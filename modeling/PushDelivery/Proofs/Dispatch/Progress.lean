import PushDelivery.Proofs.Dispatch.Closing

/-!
# A dispatch always goes on and always ends

`Stuck` is a state in which none of a dispatch's own tasks can move. If there is room on the report
channel, or nobody waits for it any more, the tasks are stuck only when all have finished. The
argument goes against the flow: the reconciler waits for nothing but raw results, so deliveries can
put theirs down and end, so the transport waits for nothing but endpoints, so the feeder can put
down its own.
-/

namespace PushDelivery.Dispatch

/-- A move of one of the dispatch's own tasks. -/
def Label.isTask : Label → Bool
  | .consume | .cancel | .drop => false
  | _ => true

/-- A move that neither cancels the dispatch nor drops its stream. -/
def Label.isOrdinary : Label → Bool
  | .cancel | .drop => false
  | _ => true

variable {σ : Type} [SubscriptionStore σ] {j : Job} {label : Label} {s s' : State}
  {l l' : Ledger σ}

def Stuck (j : Job) (s : State) (l : Ledger σ) : Prop :=
  ∀ label, label.isTask = true → step j label s l = none

namespace Stuck

theorem not_move (h : Stuck j s l) (hm : Move j label s l s' l') (hl : label.isTask = true) :
    False := by
  have := hm.step_eq_some
  rw [h label hl] at this
  cases this

/-- A feeder that cannot move waits for room on the feed. -/
theorem feeder (h : Stuck j s l) (ho : Wired j s) :
    s.feeder = .finished ∨ s.feed.receiving = true ∧ s.feed.queue ≠ [] := by
  cases hf : s.feeder with
  | idle =>
    cases hu : s.unfed with
    | nil => exact (h.not_move (.exhaust hf hu) rfl).elim
    | cons e rest => exact (h.not_move (.take hf hu) rfl).elim
  | offering e =>
    right
    by_contra hn
    by_cases hw : s.cancelled = true ∨ s.feed.receiving = false
    · exact h.not_move (.withdraw hf hw) rfl
    · rw [not_or, Bool.not_eq_true, Bool.not_eq_false] at hw
      have hq : s.feed.queue = [] := by simpa [hw.2] using hn
      exact h.not_move (.offer hf hw.1 hw.2 (by simp [hq, ho.feed_capacity, capacity])) rfl
  | finished => exact .inl rfl

theorem feeder_of_queue_eq_nil (h : Stuck j s l) (ho : Wired j s) (hq : s.feed.queue = []) :
    s.feeder = .finished := by
  rcases h.feeder ho with hf | ⟨-, hq'⟩
  · exact hf
  · exact (hq' hq).elim

section Room

variable (h : Stuck j s l) (ho : Wired j s)
  (hroom : s.cancelled = true ∨ s.report.queue = [])
include h ho hroom

/-- A reconciler that cannot move waits for raw results. -/
theorem reconciler : s.reconciler = .finished ∨
    s.reconciler = .receiving ∧ s.cancelled = false ∧ s.raw.queue = [] := by
  cases hr : s.reconciler with
  | receiving =>
    cases hc : s.cancelled with
    | false =>
      cases hq : s.raw.queue with
      | nil => simp
      | cons r rest => exact (h.not_move (.collect hr hc hq) rfl).elim
    | true => exact (h.not_move (.stop hr hc) rfl).elim
  | holding r => exact (h.not_move (.reconcile hr) rfl).elim
  | reporting r =>
    by_cases hw : s.cancelled = true ∨ s.report.receiving = false
    · exact (h.not_move (.forsake hr hw) rfl).elim
    · rw [not_or, Bool.not_eq_true, Bool.not_eq_false] at hw
      have hq : s.report.queue = [] := by simpa [hw.1] using hroom
      have hlt : s.report.queue.length < s.report.capacity := by
        simp [hq, ho.report_capacity, capacity]
      exact (h.not_move (.report hr hw.1 hw.2 hlt) rfl).elim
  | measuring => exact (h.not_move (.measure hr) rfl).elim
  | finished => exact .inl rfl

theorem raw_receiving (hr : s.raw.receiving = true) :
    s.cancelled = false ∧ s.raw.queue.length < s.raw.capacity := by
  rcases h.reconciler ho hroom with hf | ⟨-, hc, hq⟩
  · have := ho.raw_closed.mpr (by rw [hf]; rfl)
    rw [hr] at this
    cases this
  · exact ⟨hc, by simp [hq, ho.raw_capacity, capacity]⟩

theorem deliveries : s.deliveries = [] := by
  cases hds : s.deliveries with
  | nil => rfl
  | cons d rest =>
    have hd : s.deliveries[0]? = some d := by rw [hds]; rfl
    cases hT : j.transport with
    | sequential next =>
      have := ho.alone next hT
      rw [hds] at this
      cases this
    | fanOut send limit =>
      cases hs : d.stage with
      | queued => exact (h.not_move (.start hT hd hs) rfl).elim
      | calling number => exact (h.not_move (.answer hT hd hs) rfl).elim
      | reporting r =>
        cases hr : s.raw.receiving with
        | false => exact (h.not_move (.discard hT hd hs (.inr hr)) rfl).elim
        | true =>
          obtain ⟨hc, hq⟩ := h.raw_receiving ho hroom hr
          exact (h.not_move (.emit hT hd hs hc hr hq) rfl).elim

variable {send : Nat → Sender} {limit : Nat}
  {next : Provider → Notification → List Observation → Action}

theorem transport_of_fanOut (hT : j.transport = .fanOut send limit) (hlimit : 0 < limit) :
    s.transport = .finished := by
  have hd := h.deliveries ho hroom
  have hfits := ho.fits
  cases ht : s.transport with
  | acquiring =>
    cases hc : s.cancelled with
    | false => exact (h.not_move (.acquire hT ht hc (by simpa [hd])) rfl).elim
    | true => exact (h.not_move (.interrupt hT (.inl ht) hc) rfl).elim
  | receiving =>
    cases hc : s.cancelled with
    | false =>
      cases hq : s.feed.queue with
      | nil =>
        have hf := h.feeder_of_queue_eq_nil ho hq
        exact (h.not_move (.leave hT ht hc hq hf) rfl).elim
      | cons e rest => exact (h.not_move (.accept hT ht hc hq) rfl).elim
    | true => exact (h.not_move (.interrupt hT (.inr ht) hc) rfl).elim
  | leaving => exact (h.not_move (.wind hT ht) rfl).elim
  | winding aborting => exact (h.not_move (.conclude hT ht hd) rfl).elim
  | acting seen => simp [TransportTask.Fits, hT, ht] at hfits
  | finished => rfl

theorem transport_of_sequential (hT : j.transport = .sequential next) :
    s.transport = .finished := by
  have hfits := ho.fits
  cases ht : s.transport with
  | acting seen =>
    cases ha : next j.provider j.notification seen with
    | receive heedful =>
      cases hi : heedful && s.cancelled with
      | true =>
        rw [Bool.and_eq_true] at hi
        exact (h.not_move (.heed hT ht (by rw [ha, hi.1]) hi.2) rfl).elim
      | false =>
        cases hq : s.feed.queue with
        | nil =>
          have hf := h.feeder_of_queue_eq_nil ho hq
          exact (h.not_move (.miss hT ht ha hi hq hf) rfl).elim
        | cons e rest => exact (h.not_move (.fetch hT ht ha hi hq) rfl).elim
    | call e outcome =>
      by_cases hv : outcome.verdict = .crashed
      · exact (h.not_move (.crash hT ht ha hv) rfl).elim
      · exact (h.not_move (.call hT ht ha hv) rfl).elim
    | send r =>
      cases hr : s.raw.receiving with
      | false => exact (h.not_move (.lose hT ht ha hr) rfl).elim
      | true =>
        have hq := (h.raw_receiving ho hroom hr).2
        exact (h.not_move (.send hT ht ha hr hq) rfl).elim
    | finish => exact (h.not_move (.finish hT ht ha) rfl).elim
  | finished => rfl
  | _ => simp [TransportTask.Fits, hT, ht] at hfits

theorem transport (hj : j.transport.Live) : s.transport = .finished := by
  cases hT : j.transport with
  | fanOut send limit =>
    have hlimit : 0 < limit := by
      apply Nat.pos_of_ne_zero
      rintro rfl
      exact hj send hT
    exact h.transport_of_fanOut ho hroom hT hlimit
  | sequential next => exact h.transport_of_sequential ho hroom hT

/-- With room for reports the tasks are stuck only when all have finished. -/
theorem finished_of_live (hj : j.transport.Live) : s.finished = true := by
  have ht := h.transport ho hroom hj
  have hd := h.deliveries ho hroom
  have hf : s.feeder = .finished := by
    rcases h.feeder ho with hf | ⟨hr, -⟩
    · exact hf
    · rw [ho.feed_closed.mpr ht] at hr
      cases hr
  have hr : s.reconciler = .finished := by
    rcases h.reconciler ho hroom with hr | ⟨hr, hc, hq⟩
    · exact hr
    · exact (h.not_move (.drain hr hc hq ht hd) rfl).elim
  exact finished_iff.mpr ⟨hf, ht, hd, hr⟩

end Room

theorem finished (h : Stuck j s l) (ho : Orderly j s)
    (hroom : s.cancelled = true ∨ s.report.queue = []) (hj : j.transport.Routed) :
    s.finished = true :=
  h.finished_of_live ho.toWired hroom hj.live

end Stuck

/-- No task can move and the consumer has nothing to read. -/
def AtRest (j : Job) (s : State) (l : Ledger σ) : Prop :=
  ∀ label, label.isOrdinary = true → step j label s l = none

namespace AtRest

theorem stuck (h : AtRest j s l) : Stuck j s l := by
  intro label hl
  apply h label
  cases label <;> first | rfl | cases hl

theorem report_queue (h : AtRest j s l) : s.report.queue = [] := by
  cases hq : s.report.queue with
  | nil => rfl
  | cons r rest =>
    have := (Move.consume (j := j) (l := l) hq).step_eq_some
    rw [h .consume rfl] at this
    cases this

/-- A consumer that reads brings every dispatch to its end. -/
theorem finished_of_live (h : AtRest j s l) (ho : Wired j s) (hj : j.transport.Live) :
    s.finished = true :=
  h.stuck.finished_of_live ho (.inr h.report_queue) hj

theorem ended_of_live (h : AtRest j s l) (ho : Wired j s) (hj : j.transport.Live) :
    s.ended = true :=
  ended_iff.mpr ⟨h.report_queue, .inr (finished_iff.mp (h.finished_of_live ho hj)).2.2.2⟩

theorem finished (h : AtRest j s l) (ho : Orderly j s) (hj : j.transport.Routed) :
    s.finished = true :=
  h.finished_of_live ho.toWired hj.live

theorem ended (h : AtRest j s l) (ho : Orderly j s) (hj : j.transport.Routed) :
    s.ended = true :=
  h.ended_of_live ho.toWired hj.live

end AtRest

end PushDelivery.Dispatch
