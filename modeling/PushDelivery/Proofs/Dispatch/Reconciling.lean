import PushDelivery.Proofs.Dispatch.Completion
import PushDelivery.Proofs.Dispatch.Interruption
import PushDelivery.Proofs.Endpoint

/-!
# Results are reconciled in order

`Reconciled` says, for a list of raw results and any store, what the reports are, which updates the
store is asked for and where they leave it: one rule for each thing that can become of a raw result,
each of them going on with the results that follow. A reconciler that nobody disturbs does just
this, at its own pace and whether the results are there from the start or come one by one.
-/

namespace PushDelivery

open DeliveryResult

/-- Raw results, their reports, the updates that are asked for meanwhile, and the store before and
after. -/
inductive Reconciled {σ : Type} [SubscriptionStore σ] :
    σ → List DeliveryResult → List DeliveryResult → List (Int64 × String) → σ → Prop
  | nil (s : σ) : Reconciled s [] [] [] s
  /-- A result that is no stale key is reported as it is. -/
  | pass {s s' : σ} {r : DeliveryResult} {rs rs' : List DeliveryResult}
      {us : List (Int64 × String)} :
      (∀ detail, r.error ≠ some (.endpointKeyStale detail)) → Reconciled s rs rs' us s' →
      Reconciled s (r :: rs) (r :: rs') us s'
  /-- The endpoint does not say what to write back. -/
  | unasked {s s' : σ} {r : DeliveryResult} {rs rs' : List DeliveryResult}
      {us : List (Int64 × String)} {detail : String} {error : StoreError} :
      r.error = some (.endpointKeyStale detail) → r.destination.Faulty error →
      Reconciled s rs rs' us s' →
      Reconciled s (r :: rs) ({ r with error := some (.storeFailure error) } :: rs') us s'
  /-- The store takes the new key. -/
  | written {s s₁ s' : σ} {r : DeliveryResult} {rs rs' : List DeliveryResult}
      {us : List (Int64 × String)} {detail : String} {id : Int64} {key : String} :
      r.error = some (.endpointKeyStale detail) → r.destination.Asks id key →
      updateKey s id key = (.ok (), s₁) → Reconciled s₁ rs rs' us s' →
      Reconciled s (r :: rs) (r :: rs') ((id, key) :: us) s'
  /-- The store does not take the new key. -/
  | refused {s s₁ s' : σ} {r : DeliveryResult} {rs rs' : List DeliveryResult}
      {us : List (Int64 × String)} {detail : String} {id : Int64} {key : String}
      {error : StoreError} :
      r.error = some (.endpointKeyStale detail) → r.destination.Asks id key →
      updateKey s id key = (.error error, s₁) → Reconciled s₁ rs rs' us s' →
      Reconciled s (r :: rs) ({ r with error := some (.storeFailure error) } :: rs')
        ((id, key) :: us) s'

variable {σ : Type} [SubscriptionStore σ]

/-- Each result is reported in its place, and only the kind of a failure can change. -/
theorem Reconciled.agrees {s s' : σ} {rs rs' : List DeliveryResult} {us : List (Int64 × String)}
    (h : Reconciled s rs rs' us s') : List.Forall₂ Agrees rs rs' := by
  induction h with
  | nil => exact .nil
  | pass _ _ ih | written _ _ _ _ ih => exact .cons (.refl _) ih
  | unasked he _ _ ih | refused he _ _ _ ih => exact .cons (.withError he) ih

namespace Ledger

/-- One result by itself, and the others from the ledger that it leaves. -/
theorem reconciled_cons (l : Ledger σ) (r : DeliveryResult) {s' : σ}
    {rs rs' : List DeliveryResult} {us : List (Int64 × String)}
    (h : Reconciled (l.afterResult r).store rs rs' us s') :
    Reconciled l.store (r :: rs) ((l.reconcile r).1 :: rs') (r.request?.toList ++ us) s' := by
  have hstore : (l.afterResult r).store = afterUpdates l.store r.request?.toList :=
    l.store_reconcile r
  rw [hstore] at h
  rcases r.stale_cases with ⟨detail, he⟩ | he
  · rw [request?_of_eq he] at h ⊢
    rcases r.destination.asks_or_faulty with ⟨id, key, hasks⟩ | ⟨error, hfaulty⟩
    · rw [hasks.requestedUpdate] at h ⊢
      rw [reconcile_of_ok he hasks.requestedUpdate]
      cases hreply : (updateKey l.store id key).1 with
      | ok => exact .written he hasks (Prod.ext hreply rfl) h
      | error error => exact .refused he hasks (Prod.ext hreply rfl) h
    · rw [hfaulty.requestedUpdate] at h ⊢
      rw [reconcile_of_error he hfaulty.requestedUpdate]
      exact .unasked he hfaulty h
  · rw [request?_of_ne he] at h ⊢
    rw [reconcile_of_ne he]
    exact .pass he h

/-- What a ledger makes of some raw results, one after another. -/
theorem reconciled_reports (l : Ledger σ) (rs : List DeliveryResult) :
    Reconciled l.store rs (l.reports rs) (rs.filterMap (·.request?)) (l.afterResults rs).store := by
  induction rs generalizing l with
  | nil => exact .nil l.store
  | cons r rs ih =>
    have h := l.reconciled_cons r (ih (l.afterResult r))
    have hrequests : (r :: rs).filterMap (·.request?) =
        r.request?.toList ++ rs.filterMap (·.request?) := by
      cases hr : r.request? <;> simp [hr]
    rw [hrequests]
    exact h

end Ledger

namespace Dispatch

variable {j : Job} {label : Label} {labels : List Label} {s₀ s s' : State} {l l' : Ledger σ}

theorem Move.report_capacity (hm : Move j label s l s' l') :
    s'.report.capacity = s.report.capacity := by
  cases hm <;> rfl

/-- A reconciler with a consumer that reads is at rest only if there may be more to come, or if it
has finished. -/
theorem AtRest.reconciler_finished (h : AtRest j s l) (hc : s.cancelled = false)
    (hreading : s.report.receiving = true) (hroom : 0 < s.report.capacity)
    (ht : s.transport = .finished) (hd : s.deliveries = []) : s.reconciler = .finished := by
  cases hr : s.reconciler with
  | receiving =>
    cases hq : s.raw.queue with
    | nil => exact (h.stuck.not_move (.drain hr hc hq ht hd) rfl).elim
    | cons r rest => exact (h.stuck.not_move (.collect hr hc hq) rfl).elim
  | holding r => exact (h.stuck.not_move (.reconcile hr) rfl).elim
  | reporting r =>
    have hlt : s.report.queue.length < s.report.capacity := by
      rw [h.report_queue]
      exact hroom
    exact (h.stuck.not_move (.report hr hc hreading hlt) rfl).elim
  | measuring => exact (h.stuck.not_move (.measure hr) rfl).elim
  | finished => rfl

/-- What a reconciler has done that has left without a disturbance. -/
theorem Processed.undisturbed {given : List DeliveryResult} (h : Processed l given j s l')
    (hleft : s.reconciler.hasLeft = true) (hc : s.cancelled = false)
    (hreading : s.report.receiving = true) :
    let results := given ++ s.history.emitted
    s.history.reported = l.reports results ∧ l'.store = (l.afterResults results).store ∧
      l'.updates = l.updates ++ results.filterMap (·.request?) := by
  obtain ⟨hall, hreported⟩ := h.complete hleft hc hreading
  refine ⟨hall ▸ hreported, ?_, hall ▸ h.updates⟩
  rw [Ledger.store_afterResults, ← hall]
  exact h.store

/-- A reconciler that nobody cancels and whose reports are read, with any store and in any dispatch.
Apart from the moves of the transport it comes to its end in a bounded number of moves, and nothing
can stop it once no more results can come. Then it has reported one result for each raw result, in
the same order and as `Reconciled` says, and the store was asked for the updates that belong to
that and for no others. -/
theorem reconciles_in_order (hr : s₀.reconciler = .receiving) (hs : s₀.history = {})
    (hroom : 0 < s₀.report.capacity) (hrun : Run j (s₀, l) labels (s, l'))
    (hc : s.cancelled = false) (hreading : s.report.receiving = true) :
    let results := s₀.raw.queue ++ s.history.emitted
    labels.length ≤ s₀.work + 7 * labels.count .transport ∧
    (AtRest j s l' → s.transport = .finished → s.deliveries = [] → s.reconciler = .finished) ∧
    (s.reconciler.hasLeft = true →
      List.Forall₂ Agrees results s.history.reported ∧
      ∃ updates, Reconciled l.store results s.history.reported updates l'.store ∧
        l'.updates = l.updates ++ updates) := by
  intro results
  have hprocessed := (Processed.start l j hr hs).of_events hrun.events
  have hlength := hrun.length_add_work_le_count
  have hcapacity : s.report.capacity = s₀.report.capacity :=
    hrun.keeps (P := fun s _ => s.report.capacity = s₀.report.capacity)
      (fun hm h => hm.report_capacity.trans h) rfl
  refine ⟨?_, fun hrest => ?_, fun hleft => ?_⟩
  · dsimp only at hlength
    omega
  · exact hrest.reconciler_finished hc hreading (hcapacity ▸ hroom)
  · obtain ⟨hreported, hstore, hupdates⟩ := hprocessed.undisturbed hleft hc hreading
    have hreconciled := l.reconciled_reports results
    rw [← hreported, ← hstore] at hreconciled
    exact ⟨hreconciled.agrees, _, hreconciled, hupdates⟩

/-- Six results, three of which fail to be written back, each for another reason. -/
theorem reconciles_in_order_six :
    let p : Provider := ⟨1, 1, "main", "gcm", ∅⟩
    let e : Endpoint := ⟨1, "gcm", "old", none, ∅⟩
    let stale (e : Endpoint) (messageId : Option String) : DeliveryResult :=
      ⟨p, e, messageId, some (.endpointKeyStale "old")⟩
    let failed (e : Endpoint) (messageId : Option String) (error : StoreError) : DeliveryResult :=
      ⟨p, e, messageId, some (.storeFailure error)⟩
    let nameless := e.setReplacementKey "k"
    let keyless := (e.withSubscriptionId 7).setReplacementKey ""
    let unknown := (e.withSubscriptionId 8).setReplacementKey "m"
    let known := (e.put subscriptionIdName "+007").setReplacementKey "n"
    let accepted : DeliveryResult := ⟨p, e, some "1", none⟩
    let delayed : DeliveryResult := ⟨p, known, some "6", some (.transient "later")⟩
    let results := [accepted, stale nameless none, stale keyless (some "3"),
      stale unknown (some "4"), stale known (some "5"), delayed]
    let j : Job := { provider := p, notification := {}, endpoints := [], transport := .rejecting }
    let l : Ledger MemoryStore := ⟨MemoryStore.insert {} 7 "old", [], none⟩
    ∃ labels s l', Run j (Job.reconcilerStartAlone results true false, l) labels (s, l') ∧
      s.history.reported = [accepted, failed nameless none (.invalidSubscriptionId ""),
        failed keyless (some "3") (.missingDeviceKey 7),
        failed unknown (some "4") (.subscriptionNotFound 8), stale known (some "5"), delayed] ∧
      l'.updates = [(8, "m"), (7, "n")] ∧
      ∃ updates, Reconciled l.store results s.history.reported updates l'.store ∧
        l'.updates = [] ++ updates := by
  intro p e stale failed nameless keyless unknown known accepted delayed results j l
  have hfold : ((List.replicate 20 Label.reconciler).foldlM
      (fun c label => step j label c.1 c.2) (Job.reconcilerStartAlone results true false, l)).map
        (fun c => (!c.1.cancelled && c.1.report.receiving && c.1.reconciler.hasLeft,
          c.1.history.emitted, c.1.history.reported, c.2.updates)) =
      some (true, [], [accepted, failed nameless none (.invalidSubscriptionId ""),
        failed keyless (some "3") (.missingDeviceKey 7),
        failed unknown (some "4") (.subscriptionNotFound 8), stale known (some "5"), delayed],
        [(8, "m"), (7, "n")]) := by
    decide +kernel
  obtain ⟨⟨s, l'⟩, hrun, hs⟩ := exists_run_of_foldlM hfold
  simp only [Prod.mk.injEq, Bool.and_eq_true, Bool.not_eq_true'] at hs
  obtain ⟨⟨⟨hc, hreading⟩, hleft⟩, hemitted, hreported, hupdates⟩ := hs
  have h := ((reconciles_in_order rfl rfl (by decide) hrun hc hreading).2.2 hleft).2
  rw [hemitted, List.append_nil] at h
  exact ⟨_, s, l', hrun, hreported, hupdates, h⟩

end Dispatch

end PushDelivery
