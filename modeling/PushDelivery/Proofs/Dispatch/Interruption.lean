import Mathlib.Logic.Relation
import PushDelivery.Proofs.Dispatch.Closing
import PushDelivery.Proofs.Dispatch.Journal
import PushDelivery.Proofs.Dispatch.Reporting

/-!
# Where an interruption cuts a reconciler off

A reconciler can be interrupted at two points of its loop: before it takes a raw result, and before
it reports one that it has reconciled. Between the two it asks the store and counts, whatever else
happens. So the store and the metrics have seen a prefix of the raw results, and the consumer's
channel the reports of that prefix or of all of it but the last.

`Processed` follows a reconciler from its start through any events: moves of the dispatch that it
belongs to, cancellations, and the loss of the consumer. A consumer that drops its stream lets go of
the reports before it cancels, so the loss is an event of its own here: whatever the reconciler does
in between is covered, and so is a reader that never cancels. The raw results can be there from the
start or be emitted later. The store may reply as it likes.
-/

namespace PushDelivery.Dispatch

variable {σ : Type} [SubscriptionStore σ]

/-- What can happen to a reconciler: a move, or its reports lose their reader. -/
inductive Event (j : Job) : State × Ledger σ → State × Ledger σ → Prop
  | move {label : Label} {s s' : State} {l l' : Ledger σ} :
      step j label s l = some (s', l') → Event j (s, l) (s', l')
  | depart (s : State) (l : Ledger σ) : Event j (s, l) ({ s with report := s.report.close }, l)

def State.measured (j : Job) (s : State) (l : Ledger σ) : Ledger σ :=
  if s.reconciler = .finished then
    l.observe (·.observeDuration j.provider.providerType j.elapsed)
  else l

/-- How far a reconciler has come with the raw results that it was given and those emitted since,
from a ledger at its start. -/
structure Processed (l₀ : Ledger σ) (given : List DeliveryResult) (j : Job) (s : State)
    (l : Ledger σ) : Prop where
  ledger : l = s.measured j (l₀.afterResults s.history.reconciled)
  raw : s.reconciler.hasLeft = false →
    s.history.reconciled ++ s.reconciler.held ++ s.raw.queue = given ++ s.history.emitted
  reports : s.reconciler.hasLeft = false →
    l₀.reports s.history.reconciled = s.history.reported ++ s.reconciler.pending
  closed : s.reconciler.hasLeft = true → s.raw.receiving = false
  reconciled : s.reconciler.hasLeft = true → s.history.reconciled <+: given ++ s.history.emitted
  reported : s.reconciler.hasLeft = true →
    s.history.reported <+: l₀.reports s.history.reconciled
  unreported : s.reconciler.hasLeft = true →
    s.history.reconciled.length ≤ s.history.reported.length + 1
  complete : s.reconciler.hasLeft = true → s.cancelled = false → s.report.receiving = true →
    s.history.reconciled = given ++ s.history.emitted ∧
      s.history.reported = l₀.reports s.history.reconciled

theorem Reconciler.length_pending_le (r : Reconciler) : r.pending.length ≤ 1 := by
  cases r <;> simp [pending]

theorem Reconciler.ne_finished_of_hasLeft {r : Reconciler} (h : r.hasLeft = false) :
    r ≠ .finished := by
  rintro rfl
  cases h

namespace Processed

variable {l₀ : Ledger σ} {given : List DeliveryResult} {j : Job} {label : Label} {s s' : State}
  {l l' : Ledger σ}

theorem emit (h : Processed l₀ given j s l) (r : DeliveryResult)
    (hr : s.raw.receiving = true) : Processed l₀ given j (emit s r) l := by
  have hleft : s.reconciler.hasLeft = false := by
    by_contra hl
    have := h.closed (by simpa using hl)
    rw [hr] at this
    cases this
  have hraw := h.raw hleft
  exact { h with
    raw := fun _ => by simp [Dispatch.emit, Channel.push, ← List.append_assoc, hraw]
    reconciled := fun hl => by simp [Dispatch.emit, hleft] at hl
    complete := fun hl => by simp [Dispatch.emit, hleft] at hl }

/-- The reconciler leaves. If nothing has interrupted it, it has nothing left to do. -/
theorem finishReconciling (h : Processed l₀ given j s l) (hl : s.reconciler.hasLeft = false)
    (hheld : s.reconciler.held = [])
    (hdone : s.cancelled = false → s.report.receiving = true →
      s.reconciler.pending = [] ∧ s.raw.queue = []) :
    Processed l₀ given j (finishReconciling s) l := by
  have hraw := h.raw hl
  have hreports := h.reports hl
  rw [hheld, List.append_nil] at hraw
  have hlength := congrArg List.length hreports
  rw [Ledger.length_reports, List.length_append] at hlength
  have hpending := s.reconciler.length_pending_le
  constructor
  case ledger =>
    have := h.ledger
    rw [State.measured, if_neg (Reconciler.ne_finished_of_hasLeft hl)] at this
    exact this
  case raw | reports =>
    intro hl'
    cases hl'
  case closed => exact fun _ => rfl
  case reconciled => exact fun _ => ⟨s.raw.queue, hraw⟩
  case reported => exact fun _ => ⟨s.reconciler.pending, hreports.symm⟩
  case unreported =>
    intro _
    show s.history.reconciled.length ≤ s.history.reported.length + 1
    omega
  case complete =>
    intro _ hc hr
    obtain ⟨hnone, hempty⟩ := hdone hc hr
    rw [hnone, List.append_nil] at hreports
    rw [hempty, List.append_nil] at hraw
    exact ⟨hraw, hreports.symm⟩

theorem move (h : Processed l₀ given j s l) (hm : Move j label s l s' l') :
    Processed l₀ given j s' l' := by
  cases hm with
  | exhaust | take | withdraw | offer | acquire | interrupt | accept | leave | wind | conclude
  | heed | fetch | miss | crash | call | lose | finish | start | discard | abort | consume =>
    exact { h with }
  | @send _ _ _ _ r _ _ _ hr => exact { h.emit r hr with }
  | @emit _ _ _ _ _ _ r _ _ _ _ hr => exact { h.emit r hr with }
  | answer =>
    exact { h with
      complete := fun hl hc => h.complete hl (Bool.or_eq_false_iff.mp hc).1 }
  | stop hr hc => exact h.finishReconciling (by rw [hr]; rfl) (by rw [hr]; rfl) (by simp [hc])
  | collect hr hc hq =>
    have hraw := h.raw (by rw [hr]; rfl)
    have hreports := h.reports (by rw [hr]; rfl)
    constructor
    case ledger => simpa [State.measured, hr] using h.ledger
    case raw => simpa [hr, hq, Reconciler.held, Channel.pop] using fun _ => hraw
    case reports => simpa [hr, Reconciler.pending] using fun _ => hreports
    all_goals simp [Reconciler.hasLeft]
  | drain hr hc hq =>
    apply h.finishReconciling (by rw [hr]; rfl) (by rw [hr]; rfl)
    intro _ _
    exact ⟨by rw [hr]; rfl, hq⟩
  | @reconcile _ _ r hr =>
    -- The update and both counts are one move, so the ledger always has all of a result or none.
    have hledger := h.ledger
    have hraw := h.raw (by rw [hr]; rfl)
    have hreports := h.reports (by rw [hr]; rfl)
    rw [State.measured, if_neg (by simp [hr])] at hledger
    constructor
    case ledger =>
      rw [State.measured, if_neg (by simp), Ledger.afterResults_concat, ← hledger]
      rfl
    case raw => simpa [hr, Reconciler.held] using fun _ => hraw
    case reports =>
      intro _
      rw [Ledger.reports_concat, ← hledger, hreports, hr]
      simp [Reconciler.pending]
    all_goals simp [Reconciler.hasLeft]
  | forsake hr hw =>
    apply h.finishReconciling (by rw [hr]; rfl) (by rw [hr]; rfl)
    intro hc hreceiving
    simp_all
  | report hr =>
    have hraw := h.raw (by rw [hr]; rfl)
    have hreports := h.reports (by rw [hr]; rfl)
    constructor
    case ledger => simpa [State.measured, hr] using h.ledger
    case raw => simpa [hr, Reconciler.held] using fun _ => hraw
    case reports => simpa [hr, Reconciler.pending] using fun _ => hreports
    all_goals simp [Reconciler.hasLeft]
  | measure hr =>
    have hledger := h.ledger
    rw [State.measured, if_neg (by simp [hr])] at hledger
    have hleft : s.reconciler.hasLeft = true := by rw [hr]; rfl
    constructor
    case ledger => rw [State.measured, if_pos rfl, ← hledger]
    case raw | reports =>
      intro hl
      cases hl
    case closed => exact fun _ => h.closed hleft
    case reconciled => exact fun _ => h.reconciled hleft
    case reported => exact fun _ => h.reported hleft
    case unreported => exact fun _ => h.unreported hleft
    case complete => exact fun _ => h.complete hleft
  | cancel | drop => exact { h with complete := by simp }

theorem start (l : Ledger σ) (j : Job) (hr : s.reconciler = .receiving)
    (hs : s.history = {}) : Processed l s.raw.queue j s l := by
  constructor <;>
    simp [State.measured, hr, hs, Reconciler.hasLeft, Reconciler.held, Reconciler.pending,
      Ledger.afterResults, Ledger.reports]

theorem event {c c' : State × Ledger σ} (h : Processed l₀ given j c.1 c.2)
    (he : Event j c c') : Processed l₀ given j c'.1 c'.2 := by
  cases he with
  | move hs => exact h.move (step_eq_some_iff.mp hs)
  | depart s l => exact { h with complete := by simp [Channel.close] }

theorem of_events {c c' : State × Ledger σ} (h : Processed l₀ given j c.1 c.2)
    (he : Relation.ReflTransGen (Event j) c c') : Processed l₀ given j c'.1 c'.2 := by
  induction he with
  | refl => exact h
  | tail _ he ih => exact ih.event he

/-- At any moment, the reconciler may have taken a raw result that is not on record yet. -/
theorem reconciled_prefix (h : Processed l₀ given j s l) :
    s.history.reconciled <+: given ++ s.history.emitted := by
  cases hl : s.reconciler.hasLeft with
  | true => exact h.reconciled hl
  | false =>
    rw [← h.raw hl, List.append_assoc]
    exact List.prefix_append _ _

theorem reported_prefix (h : Processed l₀ given j s l) :
    s.history.reported <+: l₀.reports s.history.reconciled := by
  cases hl : s.reconciler.hasLeft with
  | true => exact h.reported hl
  | false =>
    rw [h.reports hl]
    exact List.prefix_append _ _

theorem length_reconciled (h : Processed l₀ given j s l) :
    s.history.reconciled.length = s.history.reported.length ∨
      s.history.reconciled.length = s.history.reported.length + 1 := by
  have hle := h.reported_prefix.length_le
  rw [Ledger.length_reports] at hle
  cases hl : s.reconciler.hasLeft with
  | true =>
    have := h.unreported hl
    omega
  | false =>
    have hlength := congrArg List.length (h.reports hl)
    rw [Ledger.length_reports, List.length_append] at hlength
    have := s.reconciler.length_pending_le
    omega

theorem updates (h : Processed l₀ given j s l) :
    l.updates = l₀.updates ++ s.history.reconciled.filterMap (·.request?) := by
  rw [h.ledger, ← Ledger.updates_afterResults, State.measured]
  split <;> rfl

theorem store (h : Processed l₀ given j s l) :
    l.store = afterUpdates l₀.store (s.history.reconciled.filterMap (·.request?)) := by
  rw [h.ledger, ← Ledger.store_afterResults, State.measured]
  split <;> rfl

theorem resultCount (h : Processed l₀ given j s l) (providerType outcome : String) :
    l.metrics.map (·.resultCount providerType outcome) =
      l₀.metrics.map fun m => m.resultCount providerType outcome +
        (l₀.reports s.history.reconciled).countP (·.countsAs providerType outcome) := by
  rw [h.ledger, ← Ledger.resultCount_afterResults, State.measured]
  split
  next =>
    rw [Ledger.observe, Option.map_map]
    rfl
  next => rfl

end Processed

section Interruption

variable {j : Job} {s₀ s : State} {l l' : Ledger σ}

theorem Run.events {c c' : State × Ledger σ} {labels : List Label} (hrun : Run j c labels c') :
    Relation.ReflTransGen (Event j) c c' := by
  induction hrun with
  | nil c => exact .refl
  | cons hs _ ih => exact .head (.move hs) ih

/-- A reconciler that has room for all reports and that nothing interrupts goes through the raw
results that are left. -/
theorem exists_run_reports (l : Ledger σ) (hr : s.reconciler = .receiving)
    (hc : s.cancelled = false) (hreceiving : s.report.receiving = true)
    (hroom : s.report.queue.length + s.raw.queue.length ≤ s.report.capacity)
    (ht : s.transport = .finished) (hd : s.deliveries = []) :
    ∃ labels s' l', Run j (s, l) labels (s', l') ∧ s'.cancelled = false ∧
      s'.reconciler = .finished ∧
      s'.history.reported = s.history.reported ++ l.reports s.raw.queue := by
  induction hq : s.raw.queue generalizing s l with
  | nil =>
    have hdrain : Move j .reconciler s l (finishReconciling s) l := .drain hr hc hq ht hd
    have hmeasure := Move.measure (j := j) (s := finishReconciling s) (l := l) rfl
    exact ⟨_, _, _, .cons hdrain.step_eq_some (.cons hmeasure.step_eq_some (.nil _)), hc, rfl,
      (List.append_nil _).symm⟩
  | cons r rest ih =>
    -- Three moves take one raw result to the report channel.
    rw [hq, List.length_cons] at hroom
    have hcollect := Move.collect (j := j) (l := l) hr hc hq
    have hreconcile := Move.reconcile (j := j) (l := l) (r := r)
      (s := { s with reconciler := .holding r, raw := s.raw.pop }) rfl
    have hreport := Move.report (j := j) (l := l.afterResult r) (r := (l.reconcile r).1)
      (s := { s with
        reconciler := .reporting (l.reconcile r).1
        raw := s.raw.pop
        history.reconciled := s.history.reconciled ++ [r] })
      rfl hc hreceiving (by dsimp only; omega)
    have hpop : s.raw.pop.queue = rest := by rw [Channel.pop, hq, List.tail_cons]
    obtain ⟨labels, s', l', hrun, hc', hr', hreported⟩ := ih (l.afterResult r)
      (s := { s with
        reconciler := .receiving
        raw := s.raw.pop
        report := s.report.push (l.reconcile r).1
        history.reconciled := s.history.reconciled ++ [r]
        history.reported := s.history.reported ++ [(l.reconcile r).1] })
      rfl hc hreceiving (by simp [Channel.push, hpop]; omega) ht hd hpop
    refine ⟨_, s', l', .cons hcollect.step_eq_some (.cons hreconcile.step_eq_some
      (.cons hreport.step_eq_some hrun)), hc', hr', ?_⟩
    rw [hreported, List.append_assoc]
    rfl

/-- A reconciler alone, if nothing interrupts it, reports all its raw results. -/
theorem exists_run_reconcilerStartAlone (j : Job) (l : Ledger σ) (results : List DeliveryResult) :
    ∃ labels t m, Run j (Job.reconcilerStartAlone results true false, l) labels (t, m) ∧
      t.cancelled = false ∧ t.reconciler = .finished ∧ t.history.reported = l.reports results :=
  exists_run_reports (s := Job.reconcilerStartAlone results true false) l rfl rfl rfl
    (Nat.le_of_eq (Nat.zero_add _)) rfl rfl

/-- Whatever happens to a reconciler, what it has asked of the store and what it has counted are
those of one prefix of its raw results, and it has reported that prefix, or all of it but the last,
as it would have done without an interruption. -/
theorem processes_prefix (hr : s₀.reconciler = .receiving) (hs : s₀.history = {})
    (h : Relation.ReflTransGen (Event j) (s₀, l) (s, l')) :
    let results := s₀.raw.queue ++ s.history.emitted
    (∃ labels t m, Run j (Job.reconcilerStartAlone results true false, l) labels (t, m) ∧
      t.cancelled = false ∧ t.reconciler = .finished ∧ t.history.reported = l.reports results) ∧
    s.history.reported <+: l.reports results ∧
    s.history.reconciled <+: results ∧
    (s.history.reconciled.length = s.history.reported.length ∨
      s.history.reconciled.length = s.history.reported.length + 1) ∧
    l' = s.measured j (l.afterResults s.history.reconciled) ∧
    l'.updates = l.updates ++ s.history.reconciled.filterMap (·.request?) ∧
    (∀ providerType outcome, l'.metrics.map (·.resultCount providerType outcome) =
      l.metrics.map fun m => m.resultCount providerType outcome +
        (l.reports s.history.reconciled).countP (·.countsAs providerType outcome)) ∧
    (s.reconciler.hasLeft = true → s.cancelled = false → s.report.receiving = true →
      s.history.reconciled = results ∧ s.history.reported = l.reports results) := by
  intro results
  have hp := (Processed.start l j hr hs).of_events h
  have hreported := hp.reported_prefix.trans (l.reports_prefix hp.reconciled_prefix)
  refine ⟨exists_run_reconcilerStartAlone j l results, hreported, hp.reconciled_prefix,
    hp.length_reconciled, hp.ledger, hp.updates, hp.resultCount, fun hl hc hreceiving => ?_⟩
  obtain ⟨hall, hreports⟩ := hp.complete hl hc hreceiving
  rw [hall] at hreports
  exact ⟨hall, hreports⟩

/-- The consumer goes, without a cancellation, when the second of three raw results has been
reconciled. -/
theorem processes_prefix_of_two :
    let p : Provider := ⟨1, 1, "main", "gcm", ∅⟩
    let stale (id : Int64) (key : String) : DeliveryResult :=
      ⟨p, ((⟨1, "gcm", "old", none, ∅⟩ : Endpoint).withSubscriptionId id).setReplacementKey key,
        none, some (.endpointKeyStale "old")⟩
    let results : List DeliveryResult := [stale 7 "k", stale 8 "m", stale 7 "n"]
    let j : Job := { provider := p, notification := {}, endpoints := [], transport := .rejecting }
    let l : Ledger MemoryStore := ⟨MemoryStore.insert {} 7 "old", [], some {}⟩
    let s₀ : State := Job.reconcilerStartAlone results true false
    ∃ s l', Relation.ReflTransGen (Event j) (s₀, l) (s, l') ∧ s.finished = true ∧
      s.cancelled = false ∧ s.history.reported = [stale 7 "k"] ∧
      l'.updates = [(7, "k"), (8, "m")] ∧ s.history.reported <+: l.reports results := by
  intro p stale results j l s₀
  let next (c : State × Ledger MemoryStore) (label : Label) := step j label c.1 c.2
  have hfold : (((List.replicate 5 Label.reconciler).foldlM next (s₀, l)).bind fun c =>
      (List.replicate 2 Label.reconciler).foldlM next
        ({ c.1 with report := c.1.report.close }, c.2)).map
      (fun c => (c.1.finished && !c.1.cancelled, c.1.history.emitted, c.1.history.reported,
        c.2.updates)) = some (true, [], [stale 7 "k"], [(7, "k"), (8, "m")]) := by
    decide +kernel
  obtain ⟨⟨s, l'⟩, hfold, hs⟩ := Option.map_eq_some_iff.mp hfold
  obtain ⟨⟨s₁, l₁⟩, hbefore, hafter⟩ := Option.bind_eq_some_iff.mp hfold
  simp only [Prod.mk.injEq, Bool.and_eq_true, Bool.not_eq_true'] at hs
  obtain ⟨⟨hfinished, hc⟩, hemitted, hreported, hupdates⟩ := hs
  have hgone := (run_iff_foldlM.mpr hbefore).events.tail (.depart s₁ l₁)
  have hevents := hgone.trans (run_iff_foldlM.mpr hafter).events
  obtain ⟨-, hprefix, -⟩ := processes_prefix rfl rfl hevents
  rw [hemitted, List.append_nil] at hprefix
  exact ⟨s, l', hevents, hfinished, hc, hreported, hupdates, hprefix⟩

end Interruption

end PushDelivery.Dispatch
