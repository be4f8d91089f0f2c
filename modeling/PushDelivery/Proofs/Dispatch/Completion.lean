import Mathlib.Algebra.GroupWithZero.Nat
import PushDelivery.Dispatch.Step
import PushDelivery.Proofs.Dispatch.Progress

/-!
# Complete runs

`State.work` bounds the moves that a state can still make, by whomever: each of them takes some of
it. An endpoint is worth eleven moves at the start and less with every station that it has passed.
So every run is finite, and one that cannot be continued has come to rest with all tasks finished
and all reports read. The eager schedule comes to rest within its allowance.

This is for the transports of a registry. Another transport may go on for ever by itself; then its
own moves bound those of all others.
-/

namespace PushDelivery.Dispatch

def Feeder.work : Feeder → Nat
  | .idle => 1
  | .offering _ => 11
  | .finished => 0

def TransportTask.work : TransportTask → Nat
  | .acquiring => 4
  | .receiving => 3
  | .leaving => 2
  | .winding _ => 1
  | .acting (.received (some _) :: _) => 7
  | .acting [] | .acting (.sent true :: _) => 2
  | .acting _ => 1
  | .finished => 0

def Delivery.work (d : Delivery) : Nat :=
  match d.stage with
  | .queued => 7
  | .calling _ => 6
  | .reporting _ => 5

theorem Delivery.work_pos (d : Delivery) : 0 < d.work := by
  unfold work
  split <;> decide

def Reconciler.work : Reconciler → Nat
  | .receiving => 2
  | .holding _ => 5
  | .reporting _ => 4
  | .measuring => 1
  | .finished => 0

/-- A bound on the moves that are left. The last two are a cancellation and the loss of the
consumer. -/
def State.work (s : State) : Nat :=
  11 * s.unfed.length + s.feeder.work + 9 * s.feed.queue.length + s.transport.work
    + (s.deliveries.map Delivery.work).sum + 4 * s.raw.queue.length + s.reconciler.work
    + s.report.queue.length + (!s.cancelled).toNat + s.report.receiving.toNat

variable {σ : Type} [SubscriptionStore σ] {j : Job} {label : Label} {s s' : State}
  {l l' : Ledger σ}

theorem work_finishTransport (s : State) :
    (finishTransport s).work + 9 * s.feed.queue.length + s.transport.work = s.work := by
  simp only [State.work, finishTransport, Channel.close, TransportTask.work, List.length_nil]
  omega

theorem work_finishReconciling (s : State) :
    (finishReconciling s).work + 4 * s.raw.queue.length + s.reconciler.work = s.work + 1 := by
  simp only [State.work, finishReconciling, Channel.close, Reconciler.work, List.length_nil]
  omega

theorem work_removeDelivery {place : Nat} {d : Delivery} (hd : s.deliveries[place]? = some d) :
    (removeDelivery s place).work + d.work = s.work := by
  obtain ⟨before, after, hds, -, herase⟩ := exists_eq_append_of_getElem? hd
  rw [State.work, State.work, removeDelivery, herase, hds]
  simp only [List.map_append, List.map_cons, List.sum_append, List.sum_cons]
  omega

theorem work_stageDelivery_lt {place : Nat} {d : Delivery} {stage : Stage}
    (hd : s.deliveries[place]? = some d) (hlt : { d with stage : Delivery }.work < d.work) :
    (stageDelivery s place stage).work < s.work := by
  obtain ⟨before, after, hds, hmodify, -⟩ := exists_eq_append_of_getElem? hd
  rw [State.work, State.work, stageDelivery, hmodify, hds]
  simp only [List.map_append, List.map_cons, List.sum_append, List.sum_cons]
  omega

theorem work_setCancelled_le {b : Bool} (hb : s.cancelled = true → b = true) :
    { s with cancelled := b }.work ≤ s.work := by
  have hc : (!b).toNat ≤ (!s.cancelled).toNat := by
    cases h : s.cancelled with
    | false => cases b <;> simp
    | true => simp [hb h]
  simp only [State.work]
  omega

section Rejecting

variable {next : Provider → Notification → List Observation → Action} {seen : List Observation}
  {p : Provider} {n : Notification}

theorem work_of_next_eq_receive (hj : j.transport.Routed) (hT : j.transport = .sequential next)
    {heedful : Bool} (ha : next p n seen = .receive heedful) :
    (TransportTask.acting seen).work = 2 := by
  rw [next_eq_of_routed hj hT] at ha
  split at ha <;> cases ha <;> rfl

theorem work_of_next_eq_send (hj : j.transport.Routed) (hT : j.transport = .sequential next)
    {r : DeliveryResult} (ha : next p n seen = .send r) :
    (TransportTask.acting seen).work = 7 := by
  rw [next_eq_of_routed hj hT] at ha
  split at ha <;> cases ha
  rfl

theorem work_of_next_eq_finish (hj : j.transport.Routed) (hT : j.transport = .sequential next)
    (ha : next p n seen = .finish) : (TransportTask.acting seen).work = 1 := by
  rw [next_eq_of_routed hj hT] at ha
  split at ha <;> cases ha
  next h₁ h₂ h₃ =>
    unfold TransportTask.work
    split <;> simp_all

end Rejecting

/-- Whatever the transport does, every move of another takes some of the work. -/
theorem Move.work_lt_of_ne (hm : Move j label s l s' l') (hl : label ≠ .transport) :
    s'.work < s.work := by
  cases hm with
  | exhaust hf | withdraw hf => simp [State.work, hf, Feeder.work]
  | take hf hu =>
    simp only [State.work, hf, hu, Feeder.work, List.length_cons]
    omega
  | offer hf =>
    simp only [State.work, hf, Feeder.work, Channel.push, List.length_append, List.length_singleton]
    omega
  | start hT hd hs => exact work_stageDelivery_lt hd (by simp [Delivery.work, hs])
  | answer hT hd hs =>
    refine Nat.lt_of_lt_of_le (work_stageDelivery_lt hd ?_) (work_setCancelled_le ?_)
    · simp [Delivery.work, hs]
    · simp +contextual
  | discard hT hd hs =>
    have := work_removeDelivery hd
    simp only [Delivery.work, hs] at this
    omega
  | emit hT hd hs =>
    have := work_removeDelivery hd
    simp only [Delivery.work, hs] at this
    simp only [State.work, removeDelivery, Dispatch.emit, Channel.push, List.length_append,
      List.length_singleton] at this ⊢
    omega
  | @abort _ _ place ht hp =>
    have := work_removeDelivery (List.getElem?_eq_getElem hp)
    have := s.deliveries[place].work_pos
    omega
  | stop hr =>
    have := work_finishReconciling s
    simp only [hr, Reconciler.work] at this
    omega
  | collect hr _ hq =>
    simp only [State.work, hr, hq, Reconciler.work, Channel.pop, List.tail_cons, List.length_cons]
    omega
  | drain hr =>
    have := work_finishReconciling s
    simp only [hr, Reconciler.work] at this
    omega
  | reconcile hr | measure hr => simp [State.work, hr, Reconciler.work]
  | forsake hr =>
    have := work_finishReconciling s
    simp only [hr, Reconciler.work] at this
    omega
  | report hr =>
    simp only [State.work, hr, Reconciler.work, Channel.push, List.length_append,
      List.length_singleton]
    omega
  | consume hq => simp [State.work, hq, Channel.pop]
  | cancel hc => simp [State.work, hc]
  | drop hr =>
    have hc : (!true).toNat ≤ (!s.cancelled).toNat := Nat.zero_le _
    simp only [State.work, hr, Channel.close, List.length_nil, Bool.toNat_true,
      Bool.toNat_false] at hc ⊢
    omega
  | _ => exact (hl rfl).elim

/-- A move of the transport adds at most the work for one more result. -/
theorem Move.work_le_of_transport (hm : Move j .transport s l s' l') :
    s'.work ≤ s.work + 6 := by
  cases hm with
  | acquire | interrupt | leave | wind | heed | miss | call | lose =>
    simp only [State.work, TransportTask.work]
    omega
  | accept hT ht _ hq =>
    simp only [State.work, hq, TransportTask.work, acceptEndpoint, Channel.pop, Delivery.work,
      List.tail_cons, List.length_cons, List.map_append, List.map_singleton, List.sum_append,
      List.sum_singleton]
    omega
  | conclude | crash | finish =>
    have := work_finishTransport s
    simp only [State.work, finishTransport] at this ⊢
    omega
  | fetch hT ht ha _ hq =>
    simp only [State.work, hq, acceptEndpoint, Channel.pop, List.tail_cons, List.length_cons,
      TransportTask.work]
    omega
  | send hT ht ha =>
    simp only [State.work, Dispatch.emit, Channel.push, List.length_append, List.length_singleton,
      TransportTask.work]
    omega

/-- Every move takes some of the work, if the transport is one of a registry. -/
theorem Move.work_lt (hj : j.transport.Routed) (hm : Move j label s l s' l') :
    s'.work < s.work := by
  by_cases hl : label = .transport
  case neg => exact hm.work_lt_of_ne hl
  subst hl
  cases hm with
  | acquire hT ht | leave hT ht | wind hT ht => simp [State.work, ht, TransportTask.work]
  | interrupt hT ht => rcases ht with ht | ht <;> simp [State.work, ht, TransportTask.work]
  | accept hT ht _ hq =>
    simp only [State.work, ht, hq, TransportTask.work, acceptEndpoint, Channel.pop, Delivery.work,
      List.tail_cons, List.length_cons, List.map_append, List.map_singleton, List.sum_append,
      List.sum_singleton]
    omega
  | conclude hT ht =>
    have := work_finishTransport s
    rw [ht] at this
    simp only [TransportTask.work] at this
    omega
  | heed hT ht ha | miss hT ht ha =>
    have := work_of_next_eq_receive hj hT ha
    simp only [State.work, ht, this]
    simp [TransportTask.work]
  | fetch hT ht ha _ hq =>
    have := work_of_next_eq_receive hj hT ha
    simp only [State.work, ht, hq, this, acceptEndpoint, Channel.pop, List.tail_cons,
      List.length_cons]
    simp only [TransportTask.work]
    omega
  | crash hT ht ha => exact (next_ne_call hj hT ha).elim
  | call hT ht ha => exact (next_ne_call hj hT ha).elim
  | lose hT ht ha =>
    have := work_of_next_eq_send hj hT ha
    simp only [State.work, ht, this]
    simp [TransportTask.work]
  | send hT ht ha =>
    have := work_of_next_eq_send hj hT ha
    simp only [State.work, ht, this, Dispatch.emit, Channel.push, List.length_append,
      List.length_singleton]
    simp only [TransportTask.work]
    omega
  | finish hT ht ha =>
    have := work_finishTransport s
    rw [ht, work_of_next_eq_finish hj hT ha] at this
    omega

/-- A run makes at most as many moves as there was work at its start. -/
theorem Run.length_add_work_le (hj : j.transport.Routed) {c c' : State × Ledger σ}
    {labels : List Label} (hrun : Run j c labels c') :
    labels.length + c'.1.work ≤ c.1.work := by
  induction hrun with
  | nil c => simp
  | cons hs _ ih =>
    have := (step_eq_some_iff.mp hs).work_lt hj
    simp only [List.length_cons] at ih ⊢
    omega

/-- Apart from the moves of the transport itself, a run is bounded whatever the transport does. -/
theorem Run.length_add_work_le_count {c c' : State × Ledger σ} {labels : List Label}
    (hrun : Run j c labels c') :
    labels.length + c'.1.work ≤ c.1.work + 7 * labels.count .transport := by
  induction hrun with
  | nil c => simp
  | @cons s s' l l' c label labels hs _ ih =>
    have hm := step_eq_some_iff.mp hs
    rw [List.length_cons]
    by_cases hl : label = .transport
    · subst hl
      have := hm.work_le_of_transport
      rw [List.count_cons_self]
      dsimp only at ih ⊢
      omega
    · have := hm.work_lt_of_ne hl
      rw [List.count_cons_of_ne hl]
      dsimp only at ih ⊢
      omega

theorem work_start_le (j : Job) : j.start.work ≤ 11 * j.endpoints.length + 9 := by
  have ht : j.transportStart.work ≤ 4 := by
    unfold Job.transportStart
    split
    next => split <;> simp [TransportTask.work]
    next => simp [TransportTask.work]
  have hq : (j.feedStart ⟨capacity, [], true⟩).queue = [] := by
    unfold Job.feedStart
    split <;> rfl
  simp only [State.work, Job.start, hq, Feeder.work, Reconciler.work, List.length_nil,
    List.map_nil, List.sum_nil, Bool.not_false, Bool.toNat_true]
  omega

/-! ## The eager schedule -/

theorem mem_labels (hm : Move j label s l s' l') (hl : label.isOrdinary = true) :
    label ∈ s.labels := by
  cases hm with
  | start _ hd | answer _ hd | discard _ hd | emit _ hd =>
    have := (List.getElem?_eq_some_iff.mp hd).1
    simp [State.labels, this]
  | abort _ hp => simp [State.labels, hp]
  | cancel | drop => cases hl
  | _ => simp [State.labels]

theorem isOrdinary_of_mem_labels (h : label ∈ s.labels) : label.isOrdinary = true := by
  cases label with
  | cancel | drop => simp [State.labels] at h
  | _ => rfl

theorem atRest_of_eager_eq_none (h : eager j s l = none) : AtRest j s l := by
  intro label hl
  cases hs : step j label s l with
  | none => rfl
  | some c =>
    have hmem := mem_labels (step_eq_some_iff.mp hs) hl
    have := List.find?_eq_none.mp h label hmem
    simp [hs] at this

theorem exists_of_eager_eq_some (h : eager j s l = some label) :
    label.isOrdinary = true ∧ ∃ s' l', step j label s l = some (s', l') := by
  have hstep := List.find?_some h
  obtain ⟨c, hc⟩ := Option.isSome_iff_exists.mp hstep
  exact ⟨isOrdinary_of_mem_labels (List.mem_of_find?_eq_some h), c.1, c.2, hc⟩

/-- With as many moves as there is work, the eager schedule comes to rest. -/
theorem exists_run_follow_eager (hj : j.transport.Routed) {n : Nat} (hn : s.work ≤ n) :
    ∃ labels s' l', follow j (eager j) n s l = (s', l') ∧ Run j (s, l) labels (s', l') ∧
      (∀ label ∈ labels, label.isOrdinary = true) ∧ AtRest j s' l' := by
  induction n generalizing s l with
  | zero =>
    -- A move would take some of the work, and there is none.
    refine ⟨[], s, l, rfl, .nil _, by simp, fun label _ => ?_⟩
    cases hs : step j label s l with
    | none => rfl
    | some c =>
      have := (step_eq_some_iff.mp hs).work_lt hj
      omega
  | succ n ih =>
    cases he : eager j s l with
    | none => exact ⟨[], s, l, by simp [follow, he], .nil _, by simp, atRest_of_eager_eq_none he⟩
    | some label =>
      obtain ⟨hl, s₁, l₁, hs⟩ := exists_of_eager_eq_some he
      have hlt := (step_eq_some_iff.mp hs).work_lt hj
      obtain ⟨labels, s', l', hfollow, hrun, hlabels, hrest⟩ := ih (s := s₁) (l := l₁) (by omega)
      refine ⟨label :: labels, s', l', ?_, .cons hs hrun, by simpa [hl] using hlabels, hrest⟩
      simp [follow, he, hs, hfollow]

/-- A dispatch has an allowance large enough to come to rest. -/
theorem exists_run_complete (hj : j.transport.Routed) (l : Ledger σ) :
    ∃ labels s' l', complete j (eager j) j.start l = (s', l') ∧
      Run j (j.start, l) labels (s', l') ∧ (∀ label ∈ labels, label.isOrdinary = true) ∧
      AtRest j s' l' := by
  apply exists_run_follow_eager hj
  have := work_start_le j
  simp only [State.allowance, Job.start] at this ⊢
  omega

end PushDelivery.Dispatch
