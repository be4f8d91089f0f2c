import Mathlib.Data.Bool.Count
import PushDelivery.Proofs.Dispatch.Journal
import PushDelivery.Proofs.Push.Course
import PushDelivery.Transport

/-!
# The metrics agree with what comes out

Several dispatches share one ledger with fresh metrics, one after another or side by side. When all
have ended uncancelled, the counts are accounts of what went in and what came out: each result is
counted once, each stale key is one key update, a key update that succeeded leaves its result stale
and one that failed makes it a store failure.

`Balanced` says this of some entries of the journal, raw results and reports. It holds of the
entries of one raw result, whatever the store replies, and it is additive, so it holds of whole
runs.

A count is read under label values, and a family tells these apart by their digest only. So the
count for a provider type and an outcome takes in the results of other types whose label values have
the same digest. `counts_agree` says what is counted, and that it is what the labels say exactly if
no two label values in use have one digest.
-/

namespace PushDelivery

open Metrics.Family (digest)

namespace DeliveryResult

/-- The words by which results are counted. -/
def outcomes : List String :=
  ["success", "transient", "provider_config_stale", "endpoint_key_stale", "unsubscribe",
    "store_failure", "unsupported_provider_type", "other"]

variable (r : DeliveryResult)

/-- The result says that the device key is stale. -/
def isStale : Bool := r.outcome = "endpoint_key_stale"

/-- The result says that a new device key was not written back. -/
def isStoreFailure : Bool := r.outcome = "store_failure"

variable {r}

theorem isStale_of_eq {detail : String} (h : r.error = some (.endpointKeyStale detail)) :
    r.isStale = true ∧ r.isStoreFailure = false := by
  simp [isStale, isStoreFailure, outcome, h, DispatchError.kind]

theorem isStale_of_ne (h : ∀ detail, r.error ≠ some (.endpointKeyStale detail)) :
    r.isStale = false := by
  unfold isStale outcome
  split
  next => simp
  next e he =>
    cases e with
    | endpointKeyStale detail => exact (h detail he).elim
    | _ => simp [DispatchError.kind]

theorem isStoreFailure_withError (r : DeliveryResult) (error : StoreError) :
    { r with error := some (.storeFailure error) }.isStale = false ∧
      { r with error := some (.storeFailure error) }.isStoreFailure = true := by
  simp [isStale, isStoreFailure, outcome, DispatchError.kind]

end DeliveryResult

/-- Entries that account for some raw results, their reports, and the provider types of dispatches
that were measured. -/
structure Balanced (es : List Entry) (raws reports : List DeliveryResult) (types : List String) :
    Prop where
  results : (es.filterMap Entry.result?).Perm reports
  durations : (es.filterMap Entry.duration?).Perm types
  keyUpdates : (es.filterMap Entry.keyUpdate?).length = raws.countP (·.isStale)
  kept : (es.filterMap Entry.keyUpdate?).count true = reports.countP (·.isStale)
  failed : (es.filterMap Entry.keyUpdate?).count false + raws.countP (·.isStoreFailure) =
    reports.countP (·.isStoreFailure)

namespace Balanced

variable {es es' : List Entry} {raws raws' reports reports' : List DeliveryResult}
  {types types' : List String}

theorem nil : Balanced [] [] [] [] := by
  constructor <;> simp

theorem append (h : Balanced es raws reports types) (h' : Balanced es' raws' reports' types') :
    Balanced (es ++ es') (raws ++ raws') (reports ++ reports') (types ++ types') := by
  have hkeyUpdates := h.keyUpdates
  have hkept := h.kept
  have hfailed := h.failed
  have hkeyUpdates' := h'.keyUpdates
  have hkept' := h'.kept
  have hfailed' := h'.failed
  constructor
  case results =>
    rw [List.filterMap_append]
    exact h.results.append h'.results
  case durations =>
    rw [List.filterMap_append]
    exact h.durations.append h'.durations
  case keyUpdates =>
    rw [List.filterMap_append, List.length_append, List.countP_append]
    omega
  case kept =>
    rw [List.filterMap_append, List.count_append, List.countP_append]
    omega
  case failed =>
    rw [List.filterMap_append, List.count_append, List.countP_append, List.countP_append]
    omega

theorem perm (h : Balanced es raws reports types) (hraws : raws.Perm raws')
    (hreports : reports.Perm reports') (htypes : types.Perm types') :
    Balanced es raws' reports' types' := by
  constructor
  case results => exact h.results.trans hreports
  case durations => exact h.durations.trans htypes
  case keyUpdates => exact h.keyUpdates.trans (hraws.countP_eq _)
  case kept => exact h.kept.trans (hreports.countP_eq _)
  case failed =>
    rw [← hraws.countP_eq, ← hreports.countP_eq]
    exact h.failed

variable {σ : Type} [SubscriptionStore σ]

/-- The account of one raw result. -/
theorem entries (l : Ledger σ) (r : DeliveryResult) :
    Balanced (l.entries r) [r] [(l.reconcile r).1] [] := by
  rcases r.stale_cases with ⟨detail, he⟩ | he
  · have hstale := DeliveryResult.isStale_of_eq he
    have hfailed := DeliveryResult.isStoreFailure_withError r
    cases hu : r.destination.requestedUpdate with
    | error error =>
      rw [Ledger.entries_of_error he hu, Ledger.reconcile_of_error he hu]
      constructor <;> simp [List.filterMap_cons, Ledger.settle, hstale, hfailed]
    | ok u =>
      rw [Ledger.entries_of_ok he hu, Ledger.reconcile_of_ok he hu]
      cases (updateKey l.store u.1 u.2).1 with
      | error error =>
        constructor <;>
          simp [List.filterMap_cons, Ledger.settle, hstale, hfailed, Except.isOk, Except.toBool]
      | ok =>
        constructor <;>
          simp [List.filterMap_cons, Ledger.settle, hstale, Except.isOk, Except.toBool]
  · have hstale := DeliveryResult.isStale_of_ne he
    rw [Ledger.entries_of_ne he, Ledger.reconcile_of_ne he]
    constructor <;> simp [List.filterMap_cons, hstale]

end Balanced

namespace Dispatch

variable {σ : Type} [SubscriptionStore σ] {j : Job} {label : Label} {s s' : State}
  {l l' : Ledger σ}

def State.answered (s : State) : List DeliveryResult := s.history.reported ++ s.reconciler.pending

def State.timed (j : Job) (s : State) : List String :=
  if s.reconciler = .finished then [j.provider.providerType] else []

/-- A move of a dispatch that nobody cancels enters what accounts for it. -/
theorem Move.balanced (hm : Move j label s l s' l') (hw : Wired j s)
    (hc : s'.cancelled = false) :
    ∃ es raws reports types, l' = l.record es ∧ Balanced es raws reports types ∧
      s'.history.reconciled = s.history.reconciled ++ raws ∧
      s'.answered = s.answered ++ reports ∧ s'.timed j = s.timed j ++ types := by
  have hc' := hm.cancelled_eq_false hc
  cases hm with
  | @reconcile _ _ r hr =>
    refine ⟨l.entries r, [r], [(l.reconcile r).1], [], (l.record_entries r).symm, .entries l r, rfl,
      ?_, ?_⟩
    · simp [State.answered, hr, Reconciler.pending]
    · simp [State.timed, hr]
  | measure hr =>
    refine ⟨[.duration j.provider.providerType j.elapsed], [], [], [j.provider.providerType], rfl,
      ?_, (List.append_nil _).symm, ?_, ?_⟩
    · constructor <;> simp [List.filterMap_cons]
    · simp [State.answered, hr, Reconciler.pending]
    · simp [State.timed, hr]
  | forsake hr hgone =>
    -- Before a cancellation the reports have a reader.
    have := hw.report_receiving hc'
    simp_all
  | stop hr | collect hr | drain hr | report hr =>
    refine ⟨[], [], [], [], rfl, .nil, (List.append_nil _).symm, ?_, ?_⟩
    · simp [State.answered, finishReconciling, hr, Reconciler.pending]
    · simp [State.timed, finishReconciling, hr]
  | _ =>
    exact ⟨[], [], [], [], rfl, .nil, (List.append_nil _).symm, (List.append_nil _).symm,
      (List.append_nil _).symm⟩

end Dispatch

namespace Push

open Dispatch

variable {σ : Type} [SubscriptionStore σ] {l : Ledger σ} {r r' : Running σ} {jobs : List Job}

namespace Running

/-- The raw results of all dispatches. -/
def raws (r : Running σ) : List DeliveryResult := r.dispatches.flatMap (·.2.history.emitted)

/-- The results that have come out of all dispatches. -/
def outputs (r : Running σ) : List DeliveryResult := r.dispatches.flatMap (·.2.history.taken)

def Balances (r : Running σ) (es : List Entry) : Prop :=
  Balanced es (r.dispatches.flatMap (·.2.history.reconciled))
    (r.dispatches.flatMap (·.2.answered)) (r.dispatches.flatMap fun d => d.2.timed d.1)

theorem Moves.balances (h : Moves r r') {es : List Entry} (hr : r.Balances es)
    (hw : ∀ d ∈ r.dispatches, Wired d.1 d.2) (hc : ∀ d ∈ r'.dispatches, d.2.cancelled = false) :
    ∃ es', r'.ledger = r.ledger.record es' ∧ r'.Balances (es ++ es') := by
  obtain ⟨before, after, j, label, s, s', -, hm, hd, hd'⟩ := h.exists_move
  obtain ⟨es', raws, reports, types, hledger, hbalanced, hraws, hreports, htypes⟩ :=
    hm.balanced (hw (j, s) (by simp [hd])) (hc (j, s') (by simp [hd']))
  refine ⟨es', hledger, ?_⟩
  unfold Balances at hr ⊢
  rw [hd] at hr
  rw [hd']
  exact (hr.append hbalanced).perm (.symm (flatMap_perm_of_append hraws))
    (.symm (flatMap_perm_of_append hreports)) (.symm (flatMap_perm_of_append htypes))

theorem Moves.cancelled_eq_false (h : Moves r r')
    (hc : ∀ d ∈ r'.dispatches, d.2.cancelled = false) :
    ∀ d ∈ r.dispatches, d.2.cancelled = false := by
  obtain ⟨before, after, j, label, s, s', -, hm, hd, hd'⟩ := h.exists_move
  rw [hd', List.forall_mem_append, List.forall_mem_cons] at hc
  rw [hd, List.forall_mem_append, List.forall_mem_cons]
  exact ⟨hc.1, hm.cancelled_eq_false hc.2.1, hc.2.2⟩

theorem Reaches.wired (h : (Running.start jobs l).Reaches r) :
    ∀ d ∈ r.dispatches, Wired d.1 d.2 := by
  refine (h.keeps (P := Wired) (Q := fun _ => True) (fun _ hm _ hw => ⟨hw.move hm, trivial⟩)
    ⟨trivial, ?_⟩).2
  simp only [Running.start, List.forall_mem_map]
  exact fun j _ => .start j

/-- As long as nobody cancels, the ledger is the one at the start with balanced entries. -/
theorem Reaches.balances (h : (Running.start jobs l).Reaches r)
    (hc : ∀ d ∈ r.dispatches, d.2.cancelled = false) :
    ∃ es, r.ledger = l.record es ∧ r.Balances es := by
  induction h with
  | refl =>
    refine ⟨[], rfl, ?_⟩
    have hreconciled : ∀ j : Job, j.start.history.reconciled = [] := fun _ => rfl
    have hanswered : ∀ j : Job, j.start.answered = [] := fun _ => rfl
    have htimed : ∀ j : Job, j.start.timed j = [] := fun _ => rfl
    have hnil {α : Type} : jobs.flatMap (fun _ => ([] : List α)) = [] := by simp
    simp only [Balances, Running.start, List.flatMap_map, hreconciled, hanswered, htimed, hnil]
    exact .nil
  | @tail r r' hreaches hm ih =>
    obtain ⟨es, hledger, hes⟩ := ih (hm.cancelled_eq_false hc)
    obtain ⟨es', hledger', hes'⟩ := hm.balances hes (Reaches.wired hreaches) hc
    refine ⟨es ++ es', ?_, hes'⟩
    rw [hledger', hledger, Ledger.record_append]

/-- When the dispatches have ended, all raw results have been reconciled and all reports read. -/
theorem Reaches.ended (h : (Running.start jobs l).Reaches r)
    (hc : ∀ d ∈ r.dispatches, d.2.cancelled = false) (he : ∀ d ∈ r.dispatches, d.2.ended = true) :
    r.dispatches.flatMap (·.2.history.reconciled) = r.raws ∧
      r.dispatches.flatMap (·.2.answered) = r.outputs := by
  have hreporting := (h.keeps (Q := fun _ => True)
    (P := fun _ s => s.cancelled = false → Reporting (fun _ _ => True) s)
    (fun _ hm _ hs => ⟨fun hc => (hs (hm.cancelled_eq_false hc)).move hm (fun _ => trivial) hc,
      trivial⟩)
    ⟨trivial, by simp only [Running.start, List.forall_mem_map]; exact fun j _ _ => .start _ j⟩).2
  have hall : ∀ d ∈ r.dispatches,
      d.2.history.reconciled = d.2.history.emitted ∧ d.2.answered = d.2.history.taken := by
    intro d hd
    exact (hreporting d hd (hc d hd)).of_ended (Reaches.wired h d hd) (hc d hd) (he d hd)
  exact ⟨List.flatMap_congr fun d hd => (hall d hd).1, List.flatMap_congr fun d hd => (hall d hd).2⟩

end Running

/-- The metrics' account of some dispatches, of their raw results and of what has come out. -/
structure Tallies (m : Metrics) (jobs : List Job) (raws outputs : List DeliveryResult) : Prop where
  results : ∀ providerType outcome,
    m.resultCount providerType outcome = outputs.countP (·.countsAs providerType outcome)
  total : m.results.total = outputs.length
  keyUpdates : m.keyUpdateCount "ok" + m.keyUpdateCount "failed" = raws.countP (·.isStale)
  kept : m.keyUpdateCount "ok" = outputs.countP (·.isStale)
  failed : m.keyUpdateCount "failed" + raws.countP (·.isStoreFailure) =
    outputs.countP (·.isStoreFailure)
  dispatches : ∀ providerType, m.dispatchCount providerType =
    jobs.countP fun j => digest [j.provider.providerType] = digest [providerType]

/-- For some provider types, the counts are those that their labels name. -/
structure TalliesByLabel (types : List String) (m : Metrics) (jobs : List Job)
    (outputs : List DeliveryResult) : Prop where
  results : ∀ providerType ∈ types, ∀ outcome ∈ DeliveryResult.outcomes,
    m.resultCount providerType outcome = outputs.countP (·.labels = [providerType, outcome])
  dispatches : ∀ providerType ∈ types,
    m.dispatchCount providerType = jobs.countP (·.provider.providerType = providerType)

/-- The digest tells what was counted from the other label values for some provider types. -/
structure ToldApart (types : List String) (jobs : List Job) (outputs : List DeliveryResult) :
    Prop where
  results : ∀ providerType ∈ types, ∀ outcome ∈ DeliveryResult.outcomes, ∀ r ∈ outputs,
    digest r.labels = digest [providerType, outcome] → r.labels = [providerType, outcome]
  dispatches : ∀ providerType ∈ types, ∀ j ∈ jobs,
    digest [j.provider.providerType] = digest [providerType] →
      j.provider.providerType = providerType

theorem countP_eq_countP_iff {α : Type} {p q : α → Prop} [DecidablePred p] [DecidablePred q]
    (h : ∀ a, q a → p a) (as : List α) :
    as.countP p = as.countP q ↔ ∀ a ∈ as, p a → q a := by
  induction as with
  | nil => simp
  | cons a as ih =>
    have hle : as.countP q ≤ as.countP p :=
      List.countP_mono_left fun b _ hb => by simpa using h b (by simpa using hb)
    rw [List.forall_mem_cons, ← ih, List.countP_cons, List.countP_cons]
    by_cases hq : q a
    · simp [h a hq, hq]
    · by_cases hp : p a
      · simp only [hp, hq, decide_true, decide_false, if_true, reduceCtorEq, if_false, forall_const,
          false_and, iff_false]
        omega
      · simp [hp, hq]

theorem countP_add_countP {α : Type} {p q r : α → Bool}
    (h : ∀ a, (p a).toNat + (q a).toNat = (r a).toNat) (as : List α) :
    as.countP p + as.countP q = as.countP r := by
  induction as with
  | nil => rfl
  | cons a as ih =>
    have := h a
    simp only [List.countP_cons]
    cases hp : p a <;> cases hq : q a <;> cases hr : r a <;> simp [hp, hq, hr] at this ⊢ <;> omega

namespace Tallies

variable {m : Metrics} {raws outputs : List DeliveryResult} {types : List String}

theorem byLabel_iff (h : Tallies m jobs raws outputs) :
    TalliesByLabel types m jobs outputs ↔ ToldApart types jobs outputs := by
  have hresult : ∀ providerType outcome,
      m.resultCount providerType outcome = outputs.countP (·.labels = [providerType, outcome]) ↔
        ∀ r ∈ outputs, digest r.labels = digest [providerType, outcome] →
          r.labels = [providerType, outcome] := by
    intro providerType outcome
    rw [h.results]
    exact countP_eq_countP_iff (fun r hr => congrArg digest hr) outputs
  have hdispatch : ∀ providerType,
      m.dispatchCount providerType = jobs.countP (·.provider.providerType = providerType) ↔
        ∀ j ∈ jobs, digest [j.provider.providerType] = digest [providerType] →
          j.provider.providerType = providerType := by
    intro providerType
    rw [h.dispatches]
    exact countP_eq_countP_iff (fun j hj => by rw [hj]) jobs
  constructor
  · intro hlabel
    constructor
    case results => exact fun t ht o ho => (hresult t o).mp (hlabel.results t ht o ho)
    case dispatches => exact fun t ht => (hdispatch t).mp (hlabel.dispatches t ht)
  · intro hapart
    constructor
    case results => exact fun t ht o ho => (hresult t o).mpr (hapart.results t ht o ho)
    case dispatches => exact fun t ht => (hdispatch t).mpr (hapart.dispatches t ht)

/-- Results of different provider types are different results. -/
theorem sum_countP_labels (outcome : String) (hnodup : types.Nodup) :
    (types.map fun providerType =>
        outputs.countP (·.labels = [providerType, outcome])).sum =
      outputs.countP fun r => r.provider.providerType ∈ types ∧ r.outcome = outcome := by
  induction types with
  | nil => simp
  | cons t types ih =>
    rw [List.nodup_cons] at hnodup
    rw [List.map_cons, List.sum_cons, ih hnodup.2]
    apply countP_add_countP
    intro r
    by_cases ht : r.provider.providerType = t
    · simp [DeliveryResult.labels, ht, hnodup.1]
    · simp [DeliveryResult.labels, ht]

/-- What the counts of the single provider types add up to, if they can be told apart. -/
theorem sum_results (h : TalliesByLabel types m jobs outputs) (hnodup : types.Nodup)
    (htypes : ∀ r ∈ outputs, r.provider.providerType ∈ types) {outcome : String}
    (houtcome : outcome ∈ DeliveryResult.outcomes) :
    (types.map (m.resultCount · outcome)).sum = outputs.countP (·.outcome = outcome) := by
  have hlabels : types.map (m.resultCount · outcome) = types.map fun providerType =>
      outputs.countP (·.labels = [providerType, outcome]) :=
    List.map_congr_left fun t ht => h.results t ht outcome houtcome
  rw [hlabels, sum_countP_labels outcome hnodup]
  refine List.countP_congr fun r hr => ?_
  simp [htypes r hr]

theorem of_balanced {es : List Entry}
    (h : Balanced es raws outputs (jobs.map (·.provider.providerType))) :
    Tallies (es.foldl Metrics.enter {}) jobs raws outputs := by
  have hkeyUpdates : ∀ b : Bool,
      (es.foldl Metrics.enter {}).keyUpdateCount (if b then "ok" else "failed") =
        (es.filterMap Entry.keyUpdate?).count b := by
    intro b
    rw [Metrics.keyUpdateCount_foldl_enter, List.count]
    simp only [Entry.digest_keyUpdate_eq_iff]
    exact Nat.zero_add _
  have hok := hkeyUpdates true
  have hfailed := hkeyUpdates false
  have hlength := List.count_true_add_count_false (es.filterMap Entry.keyUpdate?)
  constructor
  case results =>
    intro providerType outcome
    rw [Metrics.resultCount_foldl_enter, h.results.countP_eq]
    exact Nat.zero_add _
  case total =>
    rw [Metrics.total_results_foldl_enter, h.results.length_eq]
    exact Nat.zero_add _
  case keyUpdates =>
    rw [← h.keyUpdates]
    simp only [if_true, Bool.false_eq_true, if_false] at hok hfailed
    omega
  case kept => exact hok.trans h.kept
  case failed =>
    have := h.failed
    simp only [Bool.false_eq_true, if_false] at hfailed
    omega
  case dispatches =>
    intro providerType
    rw [Metrics.dispatchCount_foldl_enter, h.durations.countP_eq, List.countP_map]
    exact Nat.zero_add _

end Tallies

/-- The metrics of dispatches that have ended uncancelled, however they took turns, agree with the
raw results and with what has come out; by label exactly for the provider types whose label values
are told apart. -/
theorem counts_agree (hl : l.metrics = some {}) (h : (Running.start jobs l).Reaches r)
    (hdone : ∀ d ∈ r.dispatches,
      d.2.cancelled = false ∧ d.2.ended = true ∧ d.2.finished = true) :
    ∃ m, r.ledger.metrics = some m ∧ Tallies m jobs r.raws r.outputs ∧
      ∀ types, (TalliesByLabel types m jobs r.outputs ↔ ToldApart types jobs r.outputs) ∧
        (ToldApart types jobs r.outputs → types.Nodup →
          (∀ x ∈ r.outputs, x.provider.providerType ∈ types) →
          (types.map (m.resultCount · "endpoint_key_stale")).sum = m.keyUpdateCount "ok" ∧
          (types.map (m.resultCount · "store_failure")).sum =
            m.keyUpdateCount "failed" + r.raws.countP (·.isStoreFailure)) := by
  have hc := fun d hd => (hdone d hd).1
  obtain ⟨es, hledger, hbalances⟩ := h.balances hc
  obtain ⟨hraws, houtputs⟩ := h.ended hc fun d hd => (hdone d hd).2.1
  have htimed : (r.dispatches.flatMap fun d => d.2.timed d.1) =
      jobs.map (·.provider.providerType) := by
    have hjobs : r.dispatches.map Prod.fst = jobs := by
      rw [h.jobs]
      simp [Running.start, Function.comp_def]
    rw [← hjobs, List.map_map, List.map_eq_flatMap]
    refine List.flatMap_congr fun d hd => ?_
    rw [State.timed, if_pos (finished_iff.mp (hdone d hd).2.2).2.2.2]
    rfl
  unfold Running.Balances at hbalances
  rw [hraws, houtputs, htimed] at hbalances
  have htallies := Tallies.of_balanced hbalances
  refine ⟨_, ?_, htallies, fun types => ⟨htallies.byLabel_iff, fun hapart hnodup htypes => ?_⟩⟩
  · rw [hledger, Ledger.metrics_record, hl]
    rfl
  have hlabel := htallies.byLabel_iff.mpr hapart
  constructor
  · rw [Tallies.sum_results hlabel hnodup htypes (by decide), htallies.kept]
    rfl
  · rw [Tallies.sum_results hlabel hnodup htypes (by decide), htallies.failed]
    rfl

/-- Two of three keys are stale, and the store has one of the two subscriptions. -/
theorem counts_agree_of_three :
    let send : Sender := fun _ _ e =>
      ⟨e.setReplacementKey "new", .refused (.endpointKeyStale "old")⟩
    let a : Endpoint := (⟨1, "gcm", "k", none, ∅⟩ : Endpoint).withSubscriptionId 7
    let b : Endpoint := (⟨1, "gcm", "m", none, ∅⟩ : Endpoint).withSubscriptionId 8
    let c : Endpoint := (⟨1, "apns", "n", none, ∅⟩ : Endpoint).withSubscriptionId 9
    let jobs : List Job :=
      [⟨⟨1, 1, "main", "gcm", ∅⟩, {}, [a, b], .ofLimit send 1, fun _ _ => false, ⟨0⟩⟩,
        ⟨⟨2, 1, "main", "apns", ∅⟩, {}, [c], .ofLimit .idle 1, fun _ _ => false, ⟨0⟩⟩]
    let l : Ledger MemoryStore := ⟨MemoryStore.insert {} 7 "k", [], some {}⟩
    ∃ r m, (Running.start jobs l).Reaches r ∧ r.ledger.metrics = some m ∧
      m.keyUpdateCount "ok" + m.keyUpdateCount "failed" = 2 ∧
      m.resultCount "gcm" "store_failure" = 1 ∧ m.results.total = 3 ∧
      m.resultCount "gcm" "endpoint_key_stale" + m.resultCount "apns" "endpoint_key_stale" =
        m.keyUpdateCount "ok" := by
  intro send a b c jobs l
  let r : Running MemoryStore :=
    ⟨(completeInOrder jobs l).2, [] ++ jobs.zip (completeInOrder jobs l).1⟩
  have hrouted : ∀ j ∈ jobs, j.transport.Routed := by
    simp only [jobs, List.forall_mem_cons]
    exact ⟨.ofCalls _ (by decide), .ofCalls _ (by decide), by simp⟩
  have hcancels : ∀ j ∈ jobs, ∀ number e, j.cancels number e = false := by simp [jobs]
  have hreaches : (Running.start jobs l).Reaches r :=
    (reaches_completeInOrder hrouted hcancels [] l).1
  have hdone : ∀ d ∈ r.dispatches,
      d.2.cancelled = false ∧ d.2.ended = true ∧ d.2.finished = true := by
    decide +kernel
  obtain ⟨m, hm, htallies, htypes⟩ := counts_agree rfl hreaches hdone
  have hapart : ToldApart ["gcm", "apns"] jobs r.outputs :=
    ⟨by decide +kernel, by decide +kernel⟩
  obtain ⟨hlabel, hsums⟩ := htypes ["gcm", "apns"]
  have hresults := (hlabel.mpr hapart).results
  refine ⟨r, m, hreaches, hm, ?_, ?_, ?_, ?_⟩
  · exact htallies.keyUpdates.trans (by decide +kernel)
  · exact (hresults "gcm" (by simp) "store_failure" (by decide)).trans (by decide +kernel)
  · exact htallies.total.trans (by decide +kernel)
  · exact (hsums hapart (by decide) (by decide +kernel)).1

/-- Two provider types whose label values have the same digests. One endpoint of each is sent to,
and each type is counted with both. -/
theorem counted_under_foreign_label :
    let p : Provider := ⟨1, 1, "a", "8yn0iYCKYHlIj4-BwPqk", ∅⟩
    let q : Provider := ⟨2, 1, "b", "GReLUrM4wMqfg9yzV3KQ", ∅⟩
    let s : Subscription := ⟨7, "u", 1, p.providerType, "k", none, true⟩
    let t : Subscription := ⟨8, "u", 1, q.providerType, "m", none, true⟩
    let request : PushRequest := ⟨"shop", "u", (Std.ExtTreeMap.empty.insert p.providerType
      (.object [("t", .string "x")])).insert q.providerType (.object [("t", .string "y")])⟩
    let registry := Registry.uniform [p.providerType, q.providerType] (.ofLimit Sender.idle 1)
    ∃ c m, run "id" ⟨1, "shop", [p, q]⟩ [s, t] request registry.route
        (⟨{}, [], some {}⟩ : Ledger MemoryStore) = .ok c ∧
      (∀ d ∈ c.dispatches, d.2.cancelled = false ∧ d.2.ended = true ∧ d.2.finished = true) ∧
      c.ledger.metrics = some m ∧
      (c.dispatches.flatMap (·.2.history.taken)).countP
        (·.labels = [p.providerType, "success"]) = 1 ∧
      m.resultCount p.providerType "success" = 2 ∧
      (c.dispatches.map Prod.fst).countP (·.provider.providerType = p.providerType) = 1 ∧
      m.dispatchCount p.providerType = 2 := by
  intro p q s t request registry
  have hrun : (run "id" ⟨1, "shop", [p, q]⟩ [s, t] request registry.route
      (⟨{}, [], some {}⟩ : Ledger MemoryStore)).toOption.map (fun c =>
        (c.dispatches.all fun d => !d.2.cancelled && d.2.ended && d.2.finished,
          (c.dispatches.flatMap (·.2.history.taken)).countP
            (·.labels = [p.providerType, "success"]),
          (c.dispatches.map Prod.fst).countP (·.provider.providerType = p.providerType),
          c.ledger.metrics.map fun m =>
            (m.resultCount p.providerType "success", m.dispatchCount p.providerType))) =
      some (true, 1, 1, some (2, 2)) := by
    decide +kernel
  obtain ⟨c, hc, hvalues⟩ := exists_of_map_toOption hrun
  simp only [Prod.mk.injEq, List.all_eq_true, Bool.and_eq_true, Bool.not_eq_true',
    Option.map_eq_some_iff, and_assoc] at hvalues
  obtain ⟨hdone, houtputs, hjobs, m, hm, hresults, hdispatches⟩ := hvalues
  exact ⟨c, m, hc, hdone, hm, houtputs, hresults, hjobs, hdispatches⟩

end Push

end PushDelivery
