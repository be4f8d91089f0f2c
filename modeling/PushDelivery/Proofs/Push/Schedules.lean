import PushDelivery.Proofs.Dispatch.Journal
import PushDelivery.Proofs.Push.Accounts

/-!
# The order of the moves does not matter

However the dispatches of a push and their tasks take turns, the ledger ends as the ledger at the
start with the journals of all dispatches entered, in some order. Over a steady store two complete
courses of one push have the same entries. So they ask for the same updates and count the same, and
they differ at most in the order of what they report and of what they ask of the store.

The counts are compared under their label values. A series is named by the first label values that
are observed for it. So the series themselves, with their names, are compared where no two label
values in use share a digest, as those of the key updates never do.
-/

namespace PushDelivery.Push

open Dispatch
open Metrics.Family (Distinct)

section Journals

variable {σ : Type} [SubscriptionStore σ] {l : Ledger σ} {r r' : Running σ}

namespace Running

/-- The entries of all dispatches, one dispatch after another. -/
def journal (l : Ledger σ) (r : Running σ) : List Entry :=
  r.dispatches.flatMap fun d => d.2.journal l d.1

theorem journal_start (l : Ledger σ) (jobs : List Job) : (Running.start jobs l).journal l = [] := by
  have hnone : ∀ j : Job, j.start.journal l j = [] := fun _ => rfl
  simp [journal, Running.start, List.flatMap_map, hnone]

/-- A move enters what it adds to the journal. -/
theorem Moves.record (h : Moves r r') (start : Ledger σ)
    (halike : ∀ id key,
      (updateKey r.ledger.store id key).1 = (updateKey start.store id key).1) :
    ∃ es, r'.ledger = r.ledger.record es ∧
      (r'.journal start).Perm (r.journal start ++ es) := by
  obtain ⟨before, after, j, label, s, s', -, hm, hd, hd'⟩ := h.exists_move
  obtain ⟨es, hledger, hjournal⟩ := hm.record start halike
  refine ⟨es, hledger, ?_⟩
  rw [journal, journal, hd, hd']
  exact flatMap_perm_of_append hjournal

/-- Over a steady store the ledger has the entries of all dispatches, in some order. -/
theorem Reaches.record {jobs : List Job} (h : (Running.start jobs l).Reaches r)
    (hl : Steady l.store) :
    ∃ es, r.ledger = l.record es ∧ es.Perm (r.journal l) := by
  induction h with
  | refl => exact ⟨[], rfl, .of_eq (journal_start l jobs).symm⟩
  | @tail r r' _ hm ih =>
    obtain ⟨es, hledger, hes⟩ := ih
    -- What has been entered so far changes no reply, so the next entries are those of the start.
    have halike : ∀ id key,
        (updateKey r.ledger.store id key).1 = (updateKey l.store id key).1 := by
      intro id key
      rw [hledger, Ledger.store_record]
      exact hl _ id key
    obtain ⟨es', hledger', hes'⟩ := hm.record l halike
    refine ⟨es ++ es', ?_, (hes.append_right es').trans hes'.symm⟩
    rw [hledger', hledger, Ledger.record_append]

end Running

def reconciliations (l : Ledger σ) (jobs : List Job) : List Entry :=
  jobs.flatMap fun j => (j.endpoints.map j.outcome).flatMap l.entries

def measurements (dispatches : List (Job × State)) : List Entry :=
  dispatches.flatMap fun d => d.2.measurements d.1

theorem filterMap_result?_reconciliations (l : Ledger σ) (jobs : List Job) :
    (reconciliations l jobs).filterMap Entry.result? =
      jobs.flatMap fun j => j.endpoints.map fun e => (l.reconcile (j.outcome e)).1 := by
  rw [reconciliations, List.filterMap_flatMap]
  refine List.flatMap_congr fun j _ => ?_
  rw [List.filterMap_flatMap, List.flatMap_map, List.map_eq_flatMap]
  exact List.flatMap_congr fun e _ => l.filterMap_result?_entries (j.outcome e)

variable {notificationId : String} {service : Service} {subscriptions : List Subscription}
  {request : PushRequest} {route : String → Transport} {c : Completed σ}

theorem Completes.stateless (hstateless : ∀ providerType, (route providerType).Stateless)
    (h : Completes notificationId service subscriptions request route l c) :
    ∀ d ∈ c.dispatches, d.1.Stateless :=
  fun d hd => .of_transport (h.transport_eq d hd ▸ hstateless _)

/-- The ledger of a completed push. -/
theorem Completes.record (hroute : ∀ providerType, (route providerType).Routed)
    (hstateless : ∀ providerType, (route providerType).Stateless) (hl : Steady l.store)
    (h : Completes notificationId service subscriptions request route l c) :
    ∃ es, c.ledger = l.record es ∧
      es.Perm (reconciliations l (c.dispatches.map Prod.fst) ++ measurements c.dispatches) := by
  obtain ⟨plan, -, -, hreaches⟩ := h.reachable.follows
  obtain ⟨es, hledger, hes⟩ := hreaches.record hl
  refine ⟨es, hledger, hes.trans ?_⟩
  have hsettled := h.settled hroute l.answers_agrees
  refine (List.flatMap_append_perm ..).symm.trans (List.Perm.append_right _ ?_)
  rw [reconciliations, List.flatMap_map]
  refine List.Perm.flatMap_left _ fun d hd => List.Perm.flatMap_right _ ?_
  exact (hsettled d hd).reconciled_perm (h.stateless hstateless d hd)

/-- The results of a completed push. -/
theorem Completes.results (hroute : ∀ providerType, (route providerType).Routed)
    (hstateless : ∀ providerType, (route providerType).Stateless) (hl : Steady l.store)
    (h : Completes notificationId service subscriptions request route l c) :
    (c.dispatches.flatMap (·.2.history.taken)).Perm
      ((c.dispatches.map Prod.fst).flatMap fun j =>
        j.endpoints.map fun e => (l.reconcile (j.outcome e)).1) := by
  have hsettled := h.settled hroute (l.answers_of_steady hl)
  rw [List.flatMap_map]
  refine List.Perm.flatMap_left _ fun d hd => ?_
  rw [eq_map_of_forall₂ (hsettled d hd).taken]
  refine (((hsettled d hd).reconciled_perm (h.stateless hstateless d hd)).map _).trans (.of_eq ?_)
  exact List.map_map

end Journals

section Entries

variable {dispatches dispatches' : List (Job × State)} {es es' common : List Entry}

theorem exists_of_mem_measurements {e : Entry} (h : e ∈ measurements dispatches) :
    ∃ providerType seconds, e = .duration providerType seconds := by
  obtain ⟨d, -, he⟩ := List.mem_flatMap.mp h
  unfold State.measurements at he
  split at he
  · exact ⟨_, _, List.mem_singleton.mp he⟩
  · cases he

theorem filterMap_measurements {β : Type} {f : Entry → Option β}
    (h : ∀ providerType seconds, f (.duration providerType seconds) = none) :
    (measurements dispatches).filterMap f = [] := by
  refine List.filterMap_eq_nil_iff.mpr fun e he => ?_
  obtain ⟨providerType, seconds, rfl⟩ := exists_of_mem_measurements he
  exact h providerType seconds

theorem measurements_of_finished (h : ∀ d ∈ dispatches, d.2.finished = true) :
    measurements dispatches = (dispatches.map Prod.fst).map fun j =>
      .duration j.provider.providerType j.elapsed := by
  rw [measurements, List.map_map, List.map_eq_flatMap]
  refine List.flatMap_congr fun d hd => ?_
  rw [State.measurements, if_pos (finished_iff.mp (h d hd)).2.2.2]
  rfl

theorem durationLabels_of_finished {σ : Type} [SubscriptionStore σ] {l : Ledger σ}
    (h : ∀ d ∈ dispatches, d.2.finished = true)
    (hes : es.Perm (reconciliations l (dispatches.map Prod.fst) ++ measurements dispatches)) :
    (es.filterMap Entry.durationLabels?).Perm
      (dispatches.map fun d => [d.1.provider.providerType]) := by
  have hnone : (reconciliations l (dispatches.map Prod.fst)).filterMap Entry.duration? = [] := by
    simp [reconciliations, List.filterMap_flatMap, Ledger.filterMap_duration?_entries]
  have hmeasured : (measurements dispatches).filterMap Entry.duration? =
      dispatches.map fun d => d.1.provider.providerType := by
    rw [measurements_of_finished h, List.map_map, List.filterMap_map]
    exact congrFun List.filterMap_eq_map dispatches
  have hperm := hes.filterMap Entry.duration?
  rw [List.filterMap_append, hnone, List.nil_append, hmeasured] at hperm
  rw [Entry.filterMap_durationLabels?]
  exact (hperm.map _).trans (.of_eq List.map_map)

/-- Entries that are the same up to their order and to durations. -/
def SameEntries (es es' : List Entry) : Prop :=
  ∀ {β : Type} (f : Entry → Option β),
    (∀ providerType seconds, f (.duration providerType seconds) = none) →
    (es.filterMap f).Perm (es'.filterMap f)

theorem SameEntries.of_perm (h : es.Perm (common ++ measurements dispatches))
    (h' : es'.Perm (common ++ measurements dispatches')) : SameEntries es es' := by
  intro β f hf
  have hleft := h.filterMap f
  have hright := h'.filterMap f
  rw [List.filterMap_append, filterMap_measurements hf] at hleft hright
  exact hleft.trans hright.symm

end Entries

/-- The same error, or reports that differ at most in the order of their results and in the
notification's id. -/
inductive SameResult : Except PushError PushReport → Except PushError PushReport → Prop
  | refused (error : PushError) : SameResult (.error error) (.error error)
  | reported {report report' : PushReport} : report.skipped = report'.skipped →
      report.delivered.Perm report'.delivered → report.failures.Perm report'.failures →
      SameResult (.ok report) (.ok report')

/-- What a push can return, and its dispatches and the ledger then, whichever course it takes. -/
inductive Ends {σ : Type} [SubscriptionStore σ] (service : Service)
    (subscriptions : List Subscription) (request : PushRequest) (route : String → Transport)
    (l : Ledger σ) : Except PushError PushReport → Running σ → Prop
  | refused {error : PushError} {r : Running σ} :
      Course.Reachable service subscriptions request route l ⟨.refused error, r⟩ →
      Ends service subscriptions request route l (.error error) r
  | completed {notificationId : String} {c : Completed σ} :
      Completes notificationId service subscriptions request route l c →
      Ends service subscriptions request route l (.ok c.report) ⟨c.ledger, c.dispatches⟩

namespace Ends

variable {σ : Type} [SubscriptionStore σ] {l : Ledger σ} {r r' : Running σ} {service : Service}
  {subscriptions : List Subscription} {request : PushRequest} {route : String → Transport}
  {result result' : Except PushError PushReport}

theorem record (hroute : ∀ providerType, (route providerType).Routed)
    (hstateless : ∀ providerType, (route providerType).Stateless) (hl : Steady l.store)
    (h : Ends service subscriptions request route l result r) :
    ∃ es, r.ledger = l.record es ∧
      es.Perm (reconciliations l (r.dispatches.map Prod.fst) ++ measurements r.dispatches) := by
  cases h with
  | refused h =>
    rw [(Course.reachable_refused_iff.mp h).1]
    exact ⟨[], rfl, .refl _⟩
  | completed h => exact h.record hroute hstateless hl

/-- Two ends of one push. -/
theorem same (hroute : ∀ providerType, (route providerType).Routed)
    (hstateless : ∀ providerType, (route providerType).Stateless) (hl : Steady l.store)
    (h : Ends service subscriptions request route l result r)
    (h' : Ends service subscriptions request route l result' r') :
    SameResult result result' ∧ r.dispatches.map Prod.fst = r'.dispatches.map Prod.fst := by
  cases h with
  | refused h =>
    obtain ⟨hr, herror⟩ := Course.reachable_refused_iff.mp h
    cases h' with
    | refused h' =>
      obtain ⟨hr', herror'⟩ := Course.reachable_refused_iff.mp h'
      rw [herror] at herror'
      cases herror'
      exact ⟨.refused _, by rw [hr, hr']⟩
    | completed h' =>
      obtain ⟨plan', hmake', -, -⟩ := h'.reachable.exists_plan
      rw [herror] at hmake'
      cases hmake'
  | completed h =>
    obtain ⟨plan, hmake, hskipped, hjobs⟩ := h.reachable.exists_plan
    cases h' with
    | refused h' =>
      obtain ⟨-, herror'⟩ := Course.reachable_refused_iff.mp h'
      rw [hmake] at herror'
      cases herror'
    | completed h' =>
      obtain ⟨plan', hmake', hskipped', hjobs'⟩ := h'.reachable.exists_plan
      rw [hmake] at hmake'
      cases hmake'
      have hsame := hjobs.trans hjobs'.symm
      have hresults := h.results hroute hstateless hl
      rw [hsame] at hresults
      have hperm := hresults.trans (h'.results hroute hstateless hl).symm
      refine ⟨.reported (hskipped.trans hskipped'.symm) ?_ ?_, hsame⟩
      · rw [h.report, h'.report]
        exact hperm.filter _
      · rw [h.report, h'.report]
        exact hperm.filter _

/-- The results that are counted are those that the consumers have read. -/
theorem resultLabels (hroute : ∀ providerType, (route providerType).Routed)
    (hstateless : ∀ providerType, (route providerType).Stateless) (hl : Steady l.store)
    (h : Ends service subscriptions request route l result r) {es : List Entry}
    (hes : es.Perm
      (reconciliations l (r.dispatches.map Prod.fst) ++ measurements r.dispatches)) :
    (es.filterMap Entry.resultLabels?).Perm
      ((r.dispatches.flatMap (·.2.history.taken)).map DeliveryResult.labels) := by
  have hcounted := hes.filterMap Entry.result?
  rw [List.filterMap_append, filterMap_measurements fun _ _ => rfl, List.append_nil,
    filterMap_result?_reconciliations] at hcounted
  rw [Entry.filterMap_resultLabels?]
  refine List.Perm.map _ (hcounted.trans ?_)
  cases h with
  | refused h =>
    rw [(Course.reachable_refused_iff.mp h).1]
    exact .refl _
  | completed h => exact (h.results hroute hstateless hl).symm

theorem sameEntries (hroute : ∀ providerType, (route providerType).Routed)
    (hstateless : ∀ providerType, (route providerType).Stateless) (hl : Steady l.store)
    (h : Ends service subscriptions request route l result r)
    (h' : Ends service subscriptions request route l result' r') :
    ∃ es es', r.ledger = l.record es ∧ r'.ledger = l.record es' ∧ SameEntries es es' ∧
      (es.filterMap Entry.resultLabels?).Perm
        ((r.dispatches.flatMap (·.2.history.taken)).map DeliveryResult.labels) ∧
      ((∀ d ∈ r.dispatches, d.2.finished = true) → (∀ d ∈ r'.dispatches, d.2.finished = true) →
        es.Perm es' ∧ (es.filterMap Entry.durationLabels?).Perm
          (r.dispatches.map fun d => [d.1.provider.providerType])) := by
  obtain ⟨-, hjobs⟩ := h.same hroute hstateless hl h'
  obtain ⟨es, hledger, hes⟩ := h.record hroute hstateless hl
  obtain ⟨es', hledger', hes'⟩ := h'.record hroute hstateless hl
  have hlabels := h.resultLabels hroute hstateless hl hes
  rw [← hjobs] at hes'
  refine ⟨es, es', hledger, hledger', SameEntries.of_perm hes hes', hlabels, fun hf hf' => ?_⟩
  have hdurations := durationLabels_of_finished hf hes
  rw [measurements_of_finished hf] at hes
  rw [measurements_of_finished hf', ← hjobs] at hes'
  exact ⟨hes.trans hes'.symm, hdurations⟩

theorem exists_ends (hroute : ∀ providerType, (route providerType).Routed) :
    ∃ result r, Ends service subscriptions request route l result r := by
  cases hrun : run "" service subscriptions request route l with
  | error error =>
    have hmake := run_eq_error_iff.mp hrun
    exact ⟨_, _, .refused (Course.reachable_refused_iff.mpr ⟨rfl, hmake⟩)⟩
  | ok c => exact ⟨_, _, .completed (completes_of_run hroute hrun)⟩

/-- A push to one group ends however the dispatch of that group runs to its end. -/
theorem of_run {plan : PushPlan} {j : Job} {s : State} {labels : List Label}
    {l' : Ledger σ} (hmake : PushPlan.make service subscriptions request = .ok plan)
    (hjobs : plan.jobs route = [j]) (hrun : Run j (j.start, l) labels (s, l'))
    (hlabels : ∀ label ∈ labels, label.isOrdinary = true) (hended : s.ended = true) :
    Ends service subscriptions request route l
      (.ok (.ofResults "" plan.skipped s.history.taken)) ⟨l', [(j, s)]⟩ := by
  have hstart := Course.reachable_of_make service subscriptions request route l
  rw [hmake] at hstart
  dsimp only at hstart
  rw [hjobs] at hstart
  have hreachable := hstart.moves (Running.reaches_of_run hrun hlabels [] [])
  have hcompletes : Completes "" service subscriptions request route l
      ⟨.ofResults "" plan.skipped s.history.taken, [(j, s)], l'⟩ :=
    ⟨hreachable, by simpa using hended, by simp [PushReport.ofResults]⟩
  exact .completed hcompletes

end Ends

section Schedules

variable {service : Service} {subscriptions : List Subscription} {request : PushRequest}
  {route : String → Transport}

/-- A push over entries held in memory comes to its end, and any two of its courses agree, however
the dispatches and their tasks take turns in each. Their series are the same as well, and exported
with the same labels, if no two label values in use share a digest. -/
theorem schedule_independent (hroute : ∀ providerType, (route providerType).Routed)
    (hstateless : ∀ providerType, (route providerType).Stateless) (l : Ledger MemoryStore) :
    (∃ result r, Ends service subscriptions request route l result r) ∧
    ∀ result result' r r', Ends service subscriptions request route l result r →
      Ends service subscriptions request route l result' r' →
    SameResult result result' ∧
    (∃ calls calls', r.ledger.updates = l.updates ++ calls ∧
      r'.ledger.updates = l.updates ++ calls' ∧ calls.Perm calls' ∧
      ((calls.map Prod.fst).Nodup → r.ledger.store = r'.ledger.store)) ∧
    (∀ id, (id ∈ r.ledger.store.entries ↔ id ∈ l.store.entries) ∧
      (id ∈ r'.ledger.store.entries ↔ id ∈ l.store.entries)) ∧
    (∀ providerType outcome,
      r.ledger.metrics.map (·.resultCount providerType outcome) =
        r'.ledger.metrics.map (·.resultCount providerType outcome)) ∧
    (∀ outcome, r.ledger.metrics.map (·.keyUpdateCount outcome) =
      r'.ledger.metrics.map (·.keyUpdateCount outcome)) ∧
    ((∀ d ∈ r.dispatches, d.2.finished = true) → (∀ d ∈ r'.dispatches, d.2.finished = true) →
      ∀ providerType, r.ledger.metrics.map (·.dispatchCount providerType) =
        r'.ledger.metrics.map (·.dispatchCount providerType)) ∧
    (Distinct ((r.dispatches.flatMap (·.2.history.taken)).map (·.labels)) →
      r.ledger.metrics.map (·.results) = r'.ledger.metrics.map (·.results)) ∧
    r.ledger.metrics.map (·.keyUpdates) = r'.ledger.metrics.map (·.keyUpdates) ∧
    ((∀ d ∈ r.dispatches, d.2.finished = true) → (∀ d ∈ r'.dispatches, d.2.finished = true) →
      Distinct (r.dispatches.map fun d => [d.1.provider.providerType]) →
      r.ledger.metrics.map (·.durations.lengths) =
        r'.ledger.metrics.map (·.durations.lengths)) := by
  refine ⟨Ends.exists_ends hroute, fun result result' r r' h h' => ?_⟩
  have hl := MemoryStore.steady l.store
  obtain ⟨hsame, -⟩ := h.same hroute hstateless hl h'
  obtain ⟨es, es', hledger, hledger', hentries, hlabels, hfinished⟩ :=
    h.sameEntries hroute hstateless hl h'
  have hupdates := hentries Entry.update? fun _ _ => rfl
  rw [hledger, hledger']
  refine ⟨hsame, ⟨_, _, l.updates_record es, l.updates_record es', hupdates, fun hids => ?_⟩,
    fun id => ?_, fun providerType outcome => ?_, fun outcome => ?_,
    fun hf hf' providerType => ?_, fun hdistinct => ?_, ?_, fun hf hf' hdistinct => ?_⟩
  · rw [Ledger.store_record, Ledger.store_record]
    exact MemoryStore.afterUpdates_perm _ hupdates hids
  · rw [Ledger.store_record, Ledger.store_record]
    exact ⟨MemoryStore.mem_afterUpdates .., MemoryStore.mem_afterUpdates ..⟩
  · have hresults := hentries Entry.result? fun _ _ => rfl
    rw [l.resultCount_record, l.resultCount_record, hresults.countP_eq]
  · have hkeyUpdates := hentries Entry.keyUpdate? fun _ _ => rfl
    rw [l.keyUpdateCount_record, l.keyUpdateCount_record, hkeyUpdates.countP_eq]
  · have hdurations := (hfinished hf hf').1.filterMap Entry.duration?
    rw [l.dispatchCount_record, l.dispatchCount_record, hdurations.countP_eq]
  · exact l.map_metrics_record_perm (·.results_enter) (hentries _ fun _ _ => rfl)
      (hdistinct.perm hlabels.symm)
  · exact l.map_metrics_record_perm (·.keyUpdates_enter) (hentries _ fun _ _ => rfl)
      (Entry.distinct_keyUpdateLabels? es)
  · obtain ⟨hperm, hdurations⟩ := hfinished hf hf'
    exact l.map_metrics_record_perm (·.lengths_durations_enter) (hperm.filterMap _)
      (hdistinct.perm hdurations.symm)

/-- Two device keys are stale. They are replaced in one order or the other. -/
theorem schedule_independent_of_two :
    let p : Provider := ⟨1, 1, "a", "gcm", ∅⟩
    let send : Sender := fun _ _ e =>
      ⟨e.setReplacementKey (e.deviceKey ++ "'"), .refused (.endpointKeyStale "old")⟩
    let subscriptions : List Subscription :=
      [⟨7, "u", 1, "gcm", "k", none, true⟩, ⟨8, "u", 1, "gcm", "m", none, true⟩]
    let request : PushRequest :=
      ⟨"shop", "u", Std.ExtTreeMap.empty.insert "gcm" (.object [("t", .string "v")])⟩
    let l : Ledger MemoryStore := ⟨(MemoryStore.insert {} 7 "k").insert 8 "m", [], some {}⟩
    ∃ report report' r r',
      Ends ⟨1, "shop", [p]⟩ subscriptions request (fun _ => .ofLimit send 2) l (.ok report) r ∧
      Ends ⟨1, "shop", [p]⟩ subscriptions request (fun _ => .ofLimit send 2) l (.ok report') r' ∧
      r.ledger.updates = [(7, "k'"), (8, "m'")] ∧ r'.ledger.updates = [(8, "m'"), (7, "k'")] ∧
      report.failures.Perm report'.failures ∧ r.ledger.store = r'.ledger.store ∧
      r.ledger.metrics.map (·.keyUpdateCount "ok") =
        r'.ledger.metrics.map (·.keyUpdateCount "ok") ∧
      r.ledger.metrics.map (·.results) = r'.ledger.metrics.map (·.results) := by
  intro p send subscriptions request l
  let route : String → Transport := fun _ => .ofLimit send 2
  have hroute : ∀ providerType, (route providerType).Routed :=
    fun _ => .ofCalls _ (by decide)
  let g : PushGroup :=
    ⟨p, ⟨Std.ExtTreeMap.empty.insert "t" "v"⟩, subscriptions.map Subscription.toEndpoint⟩
  have hplan : (PushPlan.make ⟨1, "shop", [p]⟩ subscriptions request).toOption.map
      (·.groups.values) = some [g] := by decide +kernel
  obtain ⟨plan, hmake, hvalues⟩ := exists_of_map_toOption hplan
  let j : Job := { provider := p, notification := g.notification, endpoints := g.endpoints
                   transport := .ofLimit send 2 }
  have hjobs : plan.jobs route = [j] := by
    rw [PushPlan.jobs, hvalues]
    rfl
  let fed : List Label := [.feeder, .feeder, .transport, .transport]
  let delivered (place : Nat) : List Label :=
    [.delivery place, .delivery place, .delivery place, .reconciler, .reconciler, .reconciler,
      .consume]
  let closed : List Label :=
    [.feeder, .transport, .transport, .transport, .transport, .reconciler]
  have hends : ∀ (labels : List Label) updates used,
      (∀ label ∈ labels, label.isOrdinary = true) →
      (labels.foldlM (fun c label => step j label c.1 c.2) (j.start, l)).map
        (fun c => (c.1.ended, c.2.updates, c.1.history.taken.map (·.labels))) =
          some (true, updates, used) →
      ∃ report r, Ends ⟨1, "shop", [p]⟩ subscriptions request route l (.ok report) r ∧
        r.ledger.updates = updates ∧
        (r.dispatches.flatMap (·.2.history.taken)).map (·.labels) = used := by
    intro labels updates used hlabels hfold
    obtain ⟨⟨s, l'⟩, hrun, hc⟩ := exists_run_of_foldlM hfold
    simp only [Prod.mk.injEq] at hc
    obtain ⟨hended, hupdates, hused⟩ := hc
    exact ⟨_, _, .of_run hmake hjobs hrun hlabels hended, hupdates, by simpa using hused⟩
  let stale : List String := ["gcm", "endpoint_key_stale"]
  obtain ⟨report, r, h, hupdates, hused⟩ := hends
    (fed ++ fed ++ delivered 0 ++ delivered 0 ++ closed) [(7, "k'"), (8, "m'")] [stale, stale]
    (by decide) (by decide +kernel)
  obtain ⟨report', r', h', hupdates', -⟩ := hends
    (fed ++ fed ++ delivered 1 ++ delivered 0 ++ closed) [(8, "m'"), (7, "k'")] [stale, stale]
    (by decide) (by decide +kernel)
  obtain ⟨hsame, ⟨calls, calls', hcalls, -, -, hstore⟩, -, -, hcounts, -, hresults, -⟩ :=
    (schedule_independent hroute (fun _ => .fanOut send _) l).2 _ _ _ _ h h'
  have hdistinct : Distinct [stale, stale] := by simp [Distinct]
  have hids : (calls.map Prod.fst).Nodup := by
    have : calls = [(7, "k'"), (8, "m'")] := hcalls.symm.trans hupdates
    rw [this]
    decide
  cases hsame with
  | reported _ _ hfailures =>
    exact ⟨report, report', r, r', h, h', hupdates, hupdates', hfailures, hstore hids,
      hcounts "ok", hresults (hused ▸ hdistinct)⟩

end Schedules

end PushDelivery.Push
