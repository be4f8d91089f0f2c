import PushDelivery.Proofs.Dispatch.Moves
import PushDelivery.Proofs.Metrics
import PushDelivery.Proofs.Reconciliation

/-!
# The journal of a dispatch

All that a dispatch does to the ledger is written down as entries: the updates that it asks of the
store, and what it counts and measures. The entries of a raw result depend on it and on the store's
replies only, so over a steady store a state's history tells which entries its dispatch has made.
Counts and the updates that were asked follow from a journal entry by entry.
-/

namespace PushDelivery

/-- The label values under which a result is counted. -/
def DeliveryResult.labels (r : DeliveryResult) : List String := [r.provider.providerType, r.outcome]

/-- Whether a result is counted under a provider type and an outcome. Label values of one digest are
counted together. -/
def DeliveryResult.countsAs (providerType outcome : String) (r : DeliveryResult) : Bool :=
  Metrics.Family.digest r.labels = Metrics.Family.digest [providerType, outcome]

inductive Entry where
  | update (id : Int64) (key : String)
  | keyUpdate (succeeded : Bool)
  | result (result : DeliveryResult)
  | duration (providerType : String) (seconds : Binary64)

namespace Entry

open Metrics.Family (digest)

def update? : Entry → Option (Int64 × String)
  | update id key => some (id, key)
  | _ => none

@[simp] def keyUpdate? : Entry → Option Bool
  | keyUpdate succeeded => some succeeded
  | _ => none

@[simp] def result? : Entry → Option DeliveryResult
  | result r => some r
  | _ => none

@[simp] def duration? : Entry → Option String
  | duration providerType _ => some providerType
  | _ => none

/-- The label values under which an entry counts a result. -/
def resultLabels? (e : Entry) : Option (List String) := e.result?.map DeliveryResult.labels

def keyUpdateLabels? (e : Entry) : Option (List String) :=
  e.keyUpdate?.map fun succeeded => [if succeeded then "ok" else "failed"]

def durationLabels? (e : Entry) : Option (List String) := e.duration?.map ([·])

variable (es : List Entry)

theorem filterMap_resultLabels? :
    es.filterMap resultLabels? = (es.filterMap result?).map DeliveryResult.labels :=
  List.map_filterMap.symm

theorem filterMap_keyUpdateLabels? :
    es.filterMap keyUpdateLabels? =
      (es.filterMap keyUpdate?).map fun succeeded => [if succeeded then "ok" else "failed"] :=
  List.map_filterMap.symm

theorem filterMap_durationLabels? :
    es.filterMap durationLabels? = (es.filterMap duration?).map ([·]) :=
  List.map_filterMap.symm

theorem digest_keyUpdate_eq_iff : ∀ succeeded succeeded' : Bool,
    digest [if succeeded then "ok" else "failed"] =
      digest [if succeeded' then "ok" else "failed"] ↔ succeeded = succeeded' := by
  decide +kernel

theorem distinct_keyUpdateLabels? :
    Metrics.Family.Distinct (es.filterMap keyUpdateLabels?) := by
  simp only [filterMap_keyUpdateLabels?, Metrics.Family.Distinct, List.forall_mem_map]
  intro succeeded _ succeeded' _ h
  rw [(digest_keyUpdate_eq_iff succeeded succeeded').mp h]

end Entry

namespace Metrics

def enter (m : Metrics) : Entry → Metrics
  | .update _ _ => m
  | .keyUpdate succeeded => m.observeKeyUpdate succeeded
  | .result r => m.observeResult r
  | .duration providerType seconds => m.observeDuration providerType seconds

variable (m : Metrics) (e : Entry) (es : List Entry)

theorem results_enter :
    (m.enter e).results = e.resultLabels?.toList.foldl Family.increment m.results := by
  cases e <;> rfl

theorem keyUpdates_enter :
    (m.enter e).keyUpdates = e.keyUpdateLabels?.toList.foldl Family.increment m.keyUpdates := by
  cases e <;> rfl

theorem lengths_durations_enter : (m.enter e).durations.lengths =
    e.durationLabels?.toList.foldl Family.increment m.durations.lengths := by
  cases e with
  | duration providerType seconds => exact Family.lengths_observe ..
  | _ => rfl

/-- What an entry adds to the series of a family, a journal adds for each of its entries. -/
theorem series_foldl_enter {series : Metrics → Family Nat} {labels? : Entry → Option (List String)}
    (h : ∀ (m : Metrics) e,
      series (m.enter e) = (labels? e).toList.foldl Family.increment (series m)) :
    series (es.foldl enter m) = (es.filterMap labels?).foldl Family.increment (series m) := by
  induction es generalizing m with
  | nil => rfl
  | cons e es ih =>
    rw [List.foldl_cons, ih, h, List.filterMap_cons]
    cases labels? e <;> rfl

theorem resultCount_foldl_enter (providerType outcome : String) :
    (es.foldl enter m).resultCount providerType outcome = m.resultCount providerType outcome +
      (es.filterMap Entry.result?).countP (·.countsAs providerType outcome) := by
  rw [resultCount, m.series_foldl_enter es results_enter, Family.getD_value?_foldl_increment,
    Entry.filterMap_resultLabels?, List.countP_map]
  rfl

theorem keyUpdateCount_foldl_enter (outcome : String) :
    (es.foldl enter m).keyUpdateCount outcome = m.keyUpdateCount outcome +
      (es.filterMap Entry.keyUpdate?).countP fun succeeded =>
        Family.digest [if succeeded then "ok" else "failed"] = Family.digest [outcome] := by
  rw [keyUpdateCount, m.series_foldl_enter es keyUpdates_enter, Family.getD_value?_foldl_increment,
    Entry.filterMap_keyUpdateLabels?, List.countP_map]
  rfl

theorem dispatchCount_foldl_enter (providerType : String) :
    (es.foldl enter m).dispatchCount providerType = m.dispatchCount providerType +
      (es.filterMap Entry.duration?).countP fun providerType' =>
        Family.digest [providerType'] = Family.digest [providerType] := by
  rw [dispatchCount, dispatchCount, Family.length_getD_value?, Family.length_getD_value?,
    @series_foldl_enter m es (·.durations.lengths) _ lengths_durations_enter,
    Family.getD_value?_foldl_increment, Entry.filterMap_durationLabels?, List.countP_map]
  rfl

theorem total_results_foldl_enter :
    (es.foldl enter m).results.total = m.results.total + (es.filterMap Entry.result?).length := by
  rw [m.series_foldl_enter es results_enter, Family.total_foldl_increment,
    Entry.filterMap_resultLabels?, List.length_map]

end Metrics

namespace Ledger

variable {σ : Type} [SubscriptionStore σ]

def enter (l : Ledger σ) : Entry → Ledger σ
  | .update id key => (l.update id key).2
  | e => l.observe (·.enter e)

def record (l : Ledger σ) (es : List Entry) : Ledger σ := es.foldl enter l

/-- The entries that reconciling and counting a raw result makes. -/
def entries (l : Ledger σ) (r : DeliveryResult) : List Entry :=
  match r.error with
  | some (.endpointKeyStale _) =>
    match r.destination.requestedUpdate with
    | .error _ => [.keyUpdate false, .result (l.reconcile r).1]
    | .ok (id, key) =>
      [.update id key, .keyUpdate (updateKey l.store id key).1.isOk, .result (l.reconcile r).1]
  | _ => [.result (l.reconcile r).1]

variable (l : Ledger σ) (es es' : List Entry)

theorem record_append : l.record (es ++ es') = (l.record es).record es' := List.foldl_append

theorem updates_record : (l.record es).updates = l.updates ++ es.filterMap Entry.update? := by
  induction es generalizing l with
  | nil => simp [record]
  | cons e es ih =>
    have hrest := ih (l.enter e)
    cases e with
    | update id key => exact hrest.trans (List.append_assoc ..)
    | _ => exact hrest

theorem store_record : (l.record es).store = afterUpdates l.store (es.filterMap Entry.update?) := by
  induction es generalizing l with
  | nil => rfl
  | cons e es ih => cases e <;> exact ih _

theorem metrics_record : (l.record es).metrics = l.metrics.map (es.foldl Metrics.enter) := by
  induction es generalizing l with
  | nil => exact Option.map_id'.symm
  | cons e es ih =>
    have henter : (l.enter e).metrics = l.metrics.map (·.enter e) := by
      cases e with
      | update id key => exact Option.map_id'.symm
      | _ => rfl
    refine (ih (l.enter e)).trans ?_
    rw [henter, Option.map_map]
    rfl

theorem resultCount_record (providerType outcome : String) :
    (l.record es).metrics.map (·.resultCount providerType outcome) =
      l.metrics.map fun m => m.resultCount providerType outcome +
        (es.filterMap Entry.result?).countP (·.countsAs providerType outcome) := by
  rw [metrics_record, Option.map_map]
  exact Option.map_congr fun m _ => m.resultCount_foldl_enter es providerType outcome

theorem keyUpdateCount_record (outcome : String) :
    (l.record es).metrics.map (·.keyUpdateCount outcome) =
      l.metrics.map fun m => m.keyUpdateCount outcome +
        (es.filterMap Entry.keyUpdate?).countP fun succeeded =>
          Metrics.Family.digest [if succeeded then "ok" else "failed"] =
            Metrics.Family.digest [outcome] := by
  rw [metrics_record, Option.map_map]
  exact Option.map_congr fun m _ => m.keyUpdateCount_foldl_enter es outcome

theorem dispatchCount_record (providerType : String) :
    (l.record es).metrics.map (·.dispatchCount providerType) =
      l.metrics.map fun m => m.dispatchCount providerType +
        (es.filterMap Entry.duration?).countP fun providerType' =>
          Metrics.Family.digest [providerType'] = Metrics.Family.digest [providerType] := by
  rw [metrics_record, Option.map_map]
  exact Option.map_congr fun m _ => m.dispatchCount_foldl_enter es providerType

variable {es es'} in
theorem map_metrics_record_perm {series : Metrics → Metrics.Family Nat}
    {labels? : Entry → Option (List String)}
    (h : ∀ (m : Metrics) e,
      series (m.enter e) = (labels? e).toList.foldl Metrics.Family.increment (series m))
    (hperm : (es.filterMap labels?).Perm (es'.filterMap labels?))
    (hdistinct : Metrics.Family.Distinct (es.filterMap labels?)) :
    (l.record es).metrics.map series = (l.record es').metrics.map series := by
  rw [metrics_record, metrics_record, Option.map_map, Option.map_map]
  refine Option.map_congr fun m _ => ?_
  calc series (es.foldl Metrics.enter m)
      = (es.filterMap labels?).foldl Metrics.Family.increment (series m) :=
        m.series_foldl_enter es h
    _ = (es'.filterMap labels?).foldl Metrics.Family.increment (series m) :=
        Metrics.Family.foldl_increment_perm hperm hdistinct (series m)
    _ = series (es'.foldl Metrics.enter m) := (m.series_foldl_enter es' h).symm

section Cases

variable {l} {r : DeliveryResult} {detail : String}

theorem entries_of_ne (h : ∀ detail, r.error ≠ some (.endpointKeyStale detail)) :
    l.entries r = [.result r] := by
  unfold entries
  split
  next he => exact (h _ he).elim
  next => rw [reconcile_of_ne h]

theorem entries_of_error {error : StoreError} (he : r.error = some (.endpointKeyStale detail))
    (hu : r.destination.requestedUpdate = .error error) :
    l.entries r = [.keyUpdate false, .result (l.settle r (.error error)).1] := by
  simp only [entries, he, hu]
  rw [reconcile_of_error he hu]

theorem entries_of_ok {u : Int64 × String} (he : r.error = some (.endpointKeyStale detail))
    (hu : r.destination.requestedUpdate = .ok u) :
    l.entries r = [.update u.1 u.2, .keyUpdate (updateKey l.store u.1 u.2).1.isOk,
      .result ((l.update u.1 u.2).2.settle r (updateKey l.store u.1 u.2).1).1] := by
  simp only [entries, he, hu]
  rw [reconcile_of_ok he hu]

end Cases

/-- The reconciler makes the entries of its result. -/
theorem record_entries (r : DeliveryResult) :
    l.record (l.entries r) = (l.reconcile r).2.observe (·.observeResult (l.reconcile r).1) := by
  unfold entries
  split
  next detail he =>
    split
    next error hu =>
      rw [reconcile_of_error he hu]
      rfl
    next id key hu =>
      rw [reconcile_of_ok he hu]
      simp only [record, enter, List.foldl_cons, List.foldl_nil]
      cases (updateKey l.store id key).1 <;> rfl
  next he =>
    rw [reconcile_of_ne he]
    rfl

theorem filterMap_update?_entries (r : DeliveryResult) :
    (l.entries r).filterMap Entry.update? = r.request?.toList := by
  unfold entries
  split
  next detail he =>
    rw [request?_of_eq he]
    cases r.destination.requestedUpdate <;> rfl
  next he =>
    rw [request?_of_ne he]
    rfl

theorem filterMap_result?_entries (r : DeliveryResult) :
    (l.entries r).filterMap Entry.result? = [(l.reconcile r).1] := by
  unfold entries
  split
  next detail he => cases r.destination.requestedUpdate <;> rfl
  next => rfl

theorem filterMap_duration?_entries (r : DeliveryResult) :
    (l.entries r).filterMap Entry.duration? = [] := by
  unfold entries
  split
  next detail he => cases r.destination.requestedUpdate <;> rfl
  next => rfl

theorem entries_congr {l l' : Ledger σ} (r : DeliveryResult)
    (h : ∀ id key, (updateKey l.store id key).1 = (updateKey l'.store id key).1) :
    l.entries r = l'.entries r := by
  unfold entries
  rw [reconcile_congr l r h]
  simp only [h]

end Ledger

namespace Dispatch

variable {σ : Type} [SubscriptionStore σ]

/-- The entries for what a dispatch has reconciled, if all is replied to as by a ledger. -/
def State.reconciliations (l : Ledger σ) (s : State) : List Entry :=
  s.history.reconciled.flatMap l.entries

def State.measurements (j : Job) (s : State) : List Entry :=
  if s.reconciler = .finished then [.duration j.provider.providerType j.elapsed] else []

/-- The entries of a dispatch. -/
def State.journal (l : Ledger σ) (j : Job) (s : State) : List Entry :=
  s.reconciliations l ++ s.measurements j

theorem State.filterMap_update?_journal (s : State) (l : Ledger σ) (j : Job) :
    (s.journal l j).filterMap Entry.update? =
      s.history.reconciled.filterMap DeliveryResult.request? := by
  have hmeasured : (s.measurements j).filterMap Entry.update? = [] := by
    unfold measurements
    split <;> rfl
  rw [journal, List.filterMap_append, hmeasured, List.append_nil, reconciliations,
    List.filterMap_flatMap, List.filterMap_eq_flatMap_toList]
  simp only [l.filterMap_update?_entries]

variable {j : Job} {label : Label} {s s' : State} {l l' : Ledger σ}

/-- The ledger changes with the journal. -/
theorem Move.record (hm : Move j label s l s' l') (start : Ledger σ)
    (h : ∀ id key, (updateKey l.store id key).1 = (updateKey start.store id key).1) :
    ∃ es, l' = l.record es ∧ s'.journal start j = s.journal start j ++ es := by
  cases hm with
  | @reconcile _ _ r hr =>
    refine ⟨start.entries r, ?_, ?_⟩
    · rw [← Ledger.entries_congr r h, Ledger.record_entries]
    · simp [State.journal, State.reconciliations, State.measurements, hr]
  | measure hr =>
    refine ⟨[.duration j.provider.providerType j.elapsed], rfl, ?_⟩
    simp [State.journal, State.reconciliations, State.measurements, hr]
  | stop hr | collect hr | drain hr | forsake hr | report hr =>
    refine ⟨[], rfl, ?_⟩
    simp [State.journal, State.reconciliations, State.measurements, finishReconciling, hr]
  | _ =>
    refine ⟨[], rfl, ?_⟩
    rw [List.append_nil]
    rfl

end Dispatch

end PushDelivery

/-!
## Results one after another

A reconciler that nobody disturbs takes one raw result after another: it reconciles the result,
counts the report and goes on with the ledger as it is then. `Ledger.reports` and
`Ledger.afterResults` say what comes of this for a list of raw results. What the store replies may
depend on all that it was asked before.
-/

namespace PushDelivery.Ledger

variable {σ : Type} [SubscriptionStore σ]

/-- The ledger after a raw result was reconciled and its report counted. -/
def afterResult (l : Ledger σ) (r : DeliveryResult) : Ledger σ :=
  (l.reconcile r).2.observe (·.observeResult (l.reconcile r).1)

def afterResults (l : Ledger σ) (rs : List DeliveryResult) : Ledger σ := rs.foldl afterResult l

def reports (l : Ledger σ) : List DeliveryResult → List DeliveryResult
  | [] => []
  | r :: rs => (l.reconcile r).1 :: (l.afterResult r).reports rs

/-- The entries that some raw results make. -/
def entriesOfAll (l : Ledger σ) : List DeliveryResult → List Entry
  | [] => []
  | r :: rs => l.entries r ++ (l.afterResult r).entriesOfAll rs

variable (l : Ledger σ) (rs rs' : List DeliveryResult) (r : DeliveryResult)

theorem afterResults_append :
    l.afterResults (rs ++ rs') = (l.afterResults rs).afterResults rs' :=
  List.foldl_append

theorem reports_append :
    l.reports (rs ++ rs') = l.reports rs ++ (l.afterResults rs).reports rs' := by
  induction rs generalizing l with
  | nil => rfl
  | cons r rs ih => exact congrArg _ (ih (l.afterResult r))

theorem reports_concat :
    l.reports (rs ++ [r]) = l.reports rs ++ [((l.afterResults rs).reconcile r).1] :=
  l.reports_append rs [r]

theorem afterResults_concat :
    l.afterResults (rs ++ [r]) = (l.afterResults rs).afterResult r :=
  l.afterResults_append rs [r]

@[simp] theorem length_reports : (l.reports rs).length = rs.length := by
  induction rs generalizing l with
  | nil => rfl
  | cons r rs ih => exact congrArg Nat.succ (ih (l.afterResult r))

variable {rs rs'} in
theorem reports_prefix (h : rs <+: rs') : l.reports rs <+: l.reports rs' := by
  obtain ⟨rest, rfl⟩ := h
  rw [reports_append]
  exact List.prefix_append _ _

theorem afterResults_eq_record : l.afterResults rs = l.record (l.entriesOfAll rs) := by
  induction rs generalizing l with
  | nil => rfl
  | cons r rs ih =>
    rw [entriesOfAll, record_append, record_entries]
    exact ih (l.afterResult r)

theorem filterMap_update?_entriesOfAll :
    (l.entriesOfAll rs).filterMap Entry.update? = rs.filterMap (·.request?) := by
  induction rs generalizing l with
  | nil => rfl
  | cons r rs ih =>
    rw [entriesOfAll, List.filterMap_append, filterMap_update?_entries, ih]
    cases h : r.request? <;> simp [h]

theorem filterMap_result?_entriesOfAll :
    (l.entriesOfAll rs).filterMap Entry.result? = l.reports rs := by
  induction rs generalizing l with
  | nil => rfl
  | cons r rs ih =>
    rw [entriesOfAll, List.filterMap_append, filterMap_result?_entries, ih]
    rfl

theorem filterMap_duration?_entriesOfAll :
    (l.entriesOfAll rs).filterMap Entry.duration? = [] := by
  induction rs generalizing l with
  | nil => rfl
  | cons r rs ih =>
    rw [entriesOfAll, List.filterMap_append, filterMap_duration?_entries, ih]
    rfl

/-- The updates that are asked of the store are those of the raw results, in their order. -/
theorem updates_afterResults :
    (l.afterResults rs).updates = l.updates ++ rs.filterMap (·.request?) := by
  rw [afterResults_eq_record, updates_record, filterMap_update?_entriesOfAll]

theorem store_afterResults :
    (l.afterResults rs).store = afterUpdates l.store (rs.filterMap (·.request?)) := by
  rw [afterResults_eq_record, store_record, filterMap_update?_entriesOfAll]

/-- Each report is counted once. -/
theorem resultCount_afterResults (providerType outcome : String) :
    (l.afterResults rs).metrics.map (·.resultCount providerType outcome) =
      l.metrics.map fun m => m.resultCount providerType outcome +
        (l.reports rs).countP (·.countsAs providerType outcome) := by
  rw [afterResults_eq_record, resultCount_record, filterMap_result?_entriesOfAll]

/-- Results are no dispatches; only the measurement counts as one. -/
theorem dispatchCount_observeDuration (providerType providerType' : String) (seconds : Binary64) :
    ((l.afterResults rs).observe (·.observeDuration providerType' seconds)).metrics.map
        (·.dispatchCount providerType) =
      l.metrics.map fun m => m.dispatchCount providerType +
        if Metrics.Family.digest [providerType'] = Metrics.Family.digest [providerType] then 1
        else 0 := by
  have hrecord : (l.afterResults rs).observe (·.observeDuration providerType' seconds) =
      l.record (l.entriesOfAll rs ++ [.duration providerType' seconds]) := by
    rw [record_append, ← afterResults_eq_record]
    rfl
  rw [hrecord, dispatchCount_record, List.filterMap_append, filterMap_duration?_entriesOfAll]
  simp [List.countP_singleton]

end PushDelivery.Ledger
