import PushDelivery.Proofs.Dispatch.Completion
import PushDelivery.Proofs.Dispatch.ExactlyOnce

/-!
# A fan-out by itself

Here a fan-out is on its own with a feeder and with somebody who reads all its results, whatever the
capacities of the two channels. A `Turn` is a move of one of these, or a cancellation by a call of
the sender while it runs; no other cancellation comes from outside. A turn is logged if it emits a
result, together with the endpoint that the result is for as it was fed. `Turns` is any interleaving
with its log.

`Standing` is what holds of the tasks and the channels at any time. It implies that a fan-out is at
rest only when all tasks have finished and all results are read. It always comes there, because each
turn takes some of the work that is left.
-/

namespace PushDelivery.Dispatch

/-- A result that was emitted, with the endpoint that it is for as it was fed. -/
abbrev Emission := Endpoint × DeliveryResult

/-- One move of a fan-out, its feeder, or the reader of its results. -/
inductive Turn (j : Job) (s : State) : List Emission → State → Prop
  | feeder {s' : State} : feederStep s = some s' → Turn j s [] s'
  | transport {s' : State} : transportStep j s = some s' → Turn j s [] s'
  /-- A delivery moves and emits nothing. -/
  | delivery {s' : State} {place : Nat} : deliveryStep j s place = some s' →
      s'.history.emitted = s.history.emitted → Turn j s [] s'
  /-- A delivery emits a result. -/
  | emission {s' : State} {place : Nat} {d : Delivery} {r : DeliveryResult} :
      s.deliveries[place]? = some d → deliveryStep j s place = some s' →
      s'.history.emitted = s.history.emitted ++ [r] → Turn j s [(d.endpoint, r)] s'
  | abort {s' : State} {place : Nat} : abortStep s place = some s' → Turn j s [] s'
  /-- The sender cancels while one of its calls is running. -/
  | cancel {d : Delivery} {number : Nat} : d ∈ s.deliveries → d.stage = .calling number →
      j.cancels number d.endpoint = true → s.cancelled = false →
      Turn j s [] { s with cancelled := true }
  /-- The reader takes a result. -/
  | read {r : DeliveryResult} {rest : List DeliveryResult} : s.raw.queue = r :: rest →
      Turn j s [] { s with raw := s.raw.pop }

inductive Turns (j : Job) (s : State) : List Emission → State → Prop
  | refl : Turns j s [] s
  | tail {log log' : List Emission} {s' s'' : State} : Turns j s log s' → Turn j s' log' s'' →
      Turns j s (log ++ log') s''

/-- No turn is possible. -/
def Resting (j : Job) (s : State) : Prop := ∀ log s', ¬ Turn j s log s'

/-- A fan-out that is about to start, with all endpoints of a job before it. -/
structure Ready (j : Job) (s : State) : Prop where
  endpoints : s.feed.queue ++ s.feeder.held ++ s.unfed = j.endpoints
  fed : s.feeder = .finished → s.unfed = []
  feed_room : s.feeder = .finished ∨ 0 < s.feed.capacity
  feed_open : s.feed.receiving = true
  raw_room : 0 < s.raw.capacity
  raw_open : s.raw.receiving = true
  transport : s.transport = .acquiring
  deliveries : s.deliveries = []
  uncancelled : s.cancelled = false
  history : s.history = {}

variable {σ : Type} [SubscriptionStore σ] {j : Job} {label : Label} {s s' s'' : State}
  {l l' : Ledger σ} {log log' : List Emission} {send : Nat → Sender} {limit : Nat}

theorem Turns.trans (h : Turns j s log s') (h' : Turns j s' log' s'') :
    Turns j s (log ++ log') s'' := by
  induction h' with
  | refl =>
    rw [List.append_nil]
    exact h
  | tail _ ht ih =>
    rw [← List.append_assoc]
    exact ih.tail ht

/-! ## Turns as moves -/

def unusedLedger : Ledger AcceptingStore := ⟨.mk, [], none⟩

def Label.isFanOut : Label → Bool
  | .feeder | .transport | .delivery _ | .abort _ => true
  | _ => false

/-- What a turn can be: a move that emits nothing, an emission, a cancellation or a read. -/
theorem Turn.inv (hT : j.transport = .fanOut send limit) (h : Turn j s log s') :
    (log = [] ∧ s'.history.emitted = s.history.emitted ∧
      ∃ label, label.isFanOut = true ∧ Move j label s unusedLedger s' unusedLedger) ∨
    (∃ place d r, log = [(d.endpoint, r)] ∧ s.deliveries[place]? = some d ∧
      d.stage = .reporting r ∧ s.cancelled = false ∧ s.raw.receiving = true ∧
      s.raw.queue.length < s.raw.capacity ∧ s' = emit (removeDelivery s place) r) ∨
    (log = [] ∧ s.cancelled = false ∧ s' = { s with cancelled := true } ∧
      ∃ d ∈ s.deliveries, ∃ number, d.stage = .calling number ∧
        j.cancels number d.endpoint = true) ∨
    (log = [] ∧ s' = { s with raw := s.raw.pop } ∧ s.raw.queue ≠ []) := by
  let l := unusedLedger
  cases h with
  | feeder h =>
    have hm : Move j .feeder s l s' l := .of_feederStep h
    refine .inl ⟨rfl, ?_, _, rfl, hm⟩
    cases hm <;> rfl
  | transport h =>
    have hm : Move j .transport s l s' l := .of_transportStep h
    refine .inl ⟨rfl, ?_, _, rfl, hm⟩
    cases hm with
    | send hT' =>
      rw [hT] at hT'
      cases hT'
    | _ => rfl
  | delivery h hkeep => exact .inl ⟨rfl, hkeep, _, rfl, .of_deliveryStep h⟩
  | @emission _ place d r hd h hemit =>
    have hm : Move j (.delivery place) s l s' l := .of_deliveryStep h
    -- Of the moves of a delivery only one puts a result on the channel.
    cases hm with
    | start | answer | discard =>
      have hlength := congrArg List.length hemit
      simp [stageDelivery, removeDelivery] at hlength
    | @emit _ _ _ _ _ d' r' _ hd' hs hc hr hroom =>
      rw [hd] at hd'
      cases hd'
      have hr' : r' = r := by simpa [Dispatch.emit, removeDelivery] using hemit
      subst hr'
      exact .inr (.inl ⟨place, d, r', rfl, hd, hs, hc, hr, hroom, rfl⟩)
  | abort h =>
    have hs : step j (.abort _) s l = some (s', l) := Option.map_eq_some_iff.mpr ⟨s', h, rfl⟩
    have hm := step_eq_some_iff.mp hs
    refine .inl ⟨rfl, ?_, _, rfl, hm⟩
    cases hm
    rfl
  | @cancel d number hd hs hcancels hc =>
    exact .inr (.inr (.inl ⟨rfl, hc, rfl, d, hd, number, hs, hcancels⟩))
  | read hq => exact .inr (.inr (.inr ⟨rfl, rfl, by simp [hq]⟩))

/-- Every move of a fan-out is a turn. -/
theorem Turn.exists_of_move (hm : Move j label s l s' l') (hl : label.isFanOut = true) :
    ∃ log, Turn j s log s' := by
  have hstep := hm.step_eq_some
  cases label with
  | feeder =>
    obtain ⟨u, hu, h⟩ := Option.map_eq_some_iff.mp hstep
    cases h
    exact ⟨_, .feeder hu⟩
  | transport =>
    obtain ⟨u, hu, h⟩ := Option.map_eq_some_iff.mp hstep
    cases h
    exact ⟨_, .transport hu⟩
  | delivery place =>
    obtain ⟨u, hu, h⟩ := Option.map_eq_some_iff.mp hstep
    cases h
    cases hm with
    | start | answer | discard => exact ⟨_, .delivery hu rfl⟩
    | emit _ hd => exact ⟨_, .emission hd hu rfl⟩
  | abort place =>
    obtain ⟨u, hu, h⟩ := Option.map_eq_some_iff.mp hstep
    cases h
    exact ⟨_, .abort hu⟩
  | reconciler | consume | cancel | drop => cases hl

theorem Resting.not_move (h : Resting j s) (hm : Move j label s l s' l')
    (hl : label.isFanOut = true) : False := by
  obtain ⟨log, ht⟩ := Turn.exists_of_move hm hl
  exact h log s' ht

theorem Resting.raw_queue (h : Resting j s) : s.raw.queue = [] := by
  cases hq : s.raw.queue with
  | nil => rfl
  | cons r rest => exact (h _ _ (.read hq)).elim

/-! ## Every fan-out comes to rest -/

theorem work_emit_removeDelivery_lt {place : Nat} {d : Delivery} {r : DeliveryResult}
    (hd : s.deliveries[place]? = some d) (hs : d.stage = .reporting r) :
    (emit (removeDelivery s place) r).work < s.work := by
  have := work_removeDelivery hd
  simp only [Delivery.work, hs] at this
  simp only [State.work, removeDelivery, emit, Channel.push, List.length_append,
    List.length_singleton] at this ⊢
  omega

theorem Turn.work_lt (hj : j.transport.Routed) (hT : j.transport = .fanOut send limit)
    (h : Turn j s log s') : s'.work < s.work := by
  rcases h.inv hT with
    ⟨-, -, label, -, hm⟩ | ⟨place, d, r, -, hd, hs, -, -, -, rfl⟩ | ⟨-, hc, rfl, -⟩ | ⟨-, rfl, hq⟩
  · exact hm.work_lt hj
  · exact work_emit_removeDelivery_lt hd hs
  · simp [State.work, hc]
  · have := List.length_pos_iff.mpr hq
    simp only [State.work, Channel.pop, List.length_tail]
    omega

theorem Turns.exists_resting (hj : j.transport.Routed) (hT : j.transport = .fanOut send limit)
    (s : State) : ∃ log s', Turns j s log s' ∧ Resting j s' := by
  induction hn : s.work using Nat.strongRecOn generalizing s with
  | ind n ih =>
    by_cases hrest : Resting j s
    · exact ⟨[], s, .refl, hrest⟩
    · simp only [Resting, not_forall, not_not] at hrest
      obtain ⟨log, s₁, ht⟩ := hrest
      obtain ⟨log', s', hturns, hrest'⟩ := ih s₁.work (hn ▸ ht.work_lt hj hT) s₁ rfl
      exact ⟨_, s', (Turns.refl.tail ht).trans hturns, hrest'⟩

/-! ## The tasks and the channels -/

/-- How the tasks and the channels stand with one another. -/
structure Standing (j : Job) (s : State) : Prop where
  fits : s.transport.Fits j.transport
  feed_room : s.feeder = .finished ∨ 0 < s.feed.capacity
  raw_room : 0 < s.raw.capacity
  raw_open : s.raw.receiving = true
  feed_closed : s.feed.receiving = false ↔ s.transport = .finished
  delivered : s.transport = .finished → s.deliveries = []
  aborting : s.transport = .winding true → s.cancelled = true
  offered : s.cancelled = false → s.feeder = .finished → s.unfed = []
  read : s.cancelled = false → s.transport.hasLeft = true →
    s.feeder = .finished ∧ s.feed.queue = []

theorem eq_false_of_imp {b c : Bool} (h : c = true → b = true) (hb : b = false) : c = false := by
  rw [← Bool.not_eq_true] at hb ⊢
  exact mt h hb

namespace Standing

theorem start (hT : j.transport = .fanOut send limit) (h : Ready j s) : Standing j s where
  fits := by simp [h.transport, hT, TransportTask.Fits]
  feed_room := h.feed_room
  raw_room := h.raw_room
  raw_open := h.raw_open
  feed_closed := by simp [h.feed_open, h.transport]
  delivered _ := h.deliveries
  aborting ht := by simp [h.transport] at ht
  offered _ := h.fed
  read _ hl := by simp [h.transport, TransportTask.hasLeft] at hl

theorem setTransport {t : TransportTask} (h : Standing j s) (hs : s.transport ≠ .finished)
    (ht : t ≠ .finished) (hfits : t.Fits j.transport)
    (hread : s.cancelled = false → t.hasLeft = true → s.feeder = .finished ∧ s.feed.queue = [])
    (haborting : t = .winding true → s.cancelled = true := by simp) :
    Standing j { s with transport := t } :=
  { h with
    fits := hfits
    feed_closed := h.feed_closed.trans ⟨fun h => (hs h).elim, fun h => (ht h).elim⟩
    delivered := fun h => (ht h).elim
    read := hread
    aborting := haborting }

theorem setDeliveries (h : Standing j s) (hs : s.transport ≠ .finished) (ds : List Delivery) :
    Standing j { s with deliveries := ds } :=
  { h with delivered := fun ht => (hs ht).elim }

theorem setCancelled (h : Standing j s) {b : Bool} (hb : s.cancelled = true → b = true) :
    Standing j { s with cancelled := b } := by
  have hb' : b = false → s.cancelled = false := eq_false_of_imp hb
  exact { h with
    aborting := fun ht => hb (h.aborting ht)
    offered := fun hc => h.offered (hb' hc)
    read := fun hc => h.read (hb' hc) }

theorem transport_ne_finished {d : Delivery} {place : Nat} (h : Standing j s)
    (hd : s.deliveries[place]? = some d) : s.transport ≠ .finished := by
  intro ht
  rw [h.delivered ht] at hd
  cases hd

theorem not_hasLeft_of_feeder (h : Standing j s) (hc : s.cancelled = false)
    (hf : s.feeder ≠ .finished) : s.transport.hasLeft ≠ true :=
  fun hl => hf (h.read hc hl).1

/-- A feeder that gives up has seen a cancellation. Otherwise the feed would be closed, and the
transport would have left before the feeder. -/
theorem cancelled_of_withdraw {e : Endpoint} (h : Standing j s)
    (hf : s.feeder = .offering e) (hw : s.cancelled = true ∨ s.feed.receiving = false) :
    s.cancelled = true := by
  by_contra hc
  rw [Bool.not_eq_true] at hc
  refine h.not_hasLeft_of_feeder hc (by simp [hf]) ?_
  rw [h.feed_closed.mp (hw.resolve_left (by simp [hc]))]
  rfl

theorem move (hT : j.transport = .fanOut send limit) (h : Standing j s)
    (hm : Move j label s l s' l') (hl : label.isFanOut = true) : Standing j s' := by
  cases hm with
  | exhaust hf hu =>
    exact { h with
      feed_room := .inl rfl
      offered := fun _ _ => hu
      read := fun hc hl => ⟨rfl, (h.read hc hl).2⟩ }
  | take hf hu =>
    exact { h with
      feed_room := .inr (h.feed_room.resolve_left (by simp [hf]))
      offered := fun _ hf' => by cases hf'
      read := fun hc hl => (h.not_hasLeft_of_feeder hc (by simp [hf]) hl).elim }
  | withdraw hf hw =>
    have hc' := h.cancelled_of_withdraw hf hw
    exact { h with
      feed_room := .inl rfl
      offered := fun hc => by simp [hc'] at hc
      read := fun hc => by simp [hc'] at hc }
  | offer hf hc hr hq =>
    exact { h with
      feed_room := .inr (h.feed_room.resolve_left (by simp [hf]))
      offered := fun _ hf' => by cases hf'
      read := fun hc hl => (h.not_hasLeft_of_feeder hc (by simp [hf]) hl).elim }
  | acquire _ ht =>
    exact h.setTransport (by simp [ht]) (by simp) (by simp [TransportTask.Fits, hT])
      (by simp [TransportTask.hasLeft])
  | interrupt _ ht hc =>
    refine h.setTransport ?_ (by simp) (by simp [TransportTask.Fits, hT]) (by simp [hc])
    rcases ht with ht | ht <;> simp [ht]
  | accept _ ht =>
    have h₁ : Standing j { s with transport := .acquiring } :=
      h.setTransport (by simp [ht]) (by simp) (by simp [TransportTask.Fits, hT])
        (by simp [TransportTask.hasLeft])
    exact { h₁ with delivered := by simp, read := by simp [TransportTask.hasLeft] }
  | leave _ ht _ hq hf =>
    exact h.setTransport (by simp [ht]) (by simp) (by simp [TransportTask.Fits, hT])
      fun _ _ => ⟨hf, hq⟩
  | wind _ ht =>
    exact h.setTransport (by simp [ht]) (by simp) (by simp [TransportTask.Fits, hT])
      (fun hc _ => h.read hc (by rw [ht]; rfl))
  | conclude _ ht hd =>
    exact { h with
      fits := by simp [finishTransport, TransportTask.Fits]
      feed_closed := by simp [finishTransport, Channel.close]
      delivered := fun _ => hd
      aborting := by simp [finishTransport]
      read := fun hc _ => ⟨(h.read hc (by rw [ht]; rfl)).1, rfl⟩ }
  | start _ hd => exact { h.setDeliveries (h.transport_ne_finished hd) _ with }
  | @answer _ _ _ _ place number d _ hd =>
    have h₁ : Standing j { s with cancelled := s.cancelled || j.cancels number d.endpoint } :=
      h.setCancelled (by simp +contextual)
    exact h₁.setDeliveries (h.transport_ne_finished hd) _
  | discard _ hd => exact h.setDeliveries (h.transport_ne_finished hd) _
  | emit _ hd => exact { h.setDeliveries (h.transport_ne_finished hd) _ with }
  | abort ht => exact h.setDeliveries (by simp [ht]) _
  | heed hT' | fetch hT' | miss hT' | crash hT' | call hT' | lose hT' | send hT' | finish hT' =>
    rw [hT] at hT'
    cases hT'
  | stop | collect | drain | reconcile | forsake | report | measure | consume | cancel | drop =>
    cases hl

theorem turn (hT : j.transport = .fanOut send limit) (h : Standing j s) (ht : Turn j s log s') :
    Standing j s' := by
  rcases ht.inv hT with
    ⟨-, -, label, hl, hm⟩ | ⟨place, d, r, -, hd, hs, -, -, -, rfl⟩ | ⟨-, -, rfl, -⟩ | ⟨-, rfl, -⟩
  · exact h.move hT hm hl
  · exact { h.setDeliveries (h.transport_ne_finished hd) _ with }
  · exact h.setCancelled (by simp)
  · exact { h with }

theorem of_turns (hT : j.transport = .fanOut send limit) (hready : Ready j s)
    (hturns : Turns j s log s') : Standing j s' := by
  induction hturns with
  | refl => exact .start hT hready
  | tail _ ht ih => exact ih.turn hT ht

section AtRest

variable (h : Standing j s) (hrest : Resting j s)
include h hrest

theorem deliveries (hT : j.transport = .fanOut send limit) : s.deliveries = [] := by
  cases hds : s.deliveries with
  | nil => rfl
  | cons d rest =>
    have hd : s.deliveries[0]? = some d := by rw [hds]; rfl
    let l := unusedLedger
    cases hs : d.stage with
    | queued => exact (hrest.not_move (Move.start (l := l) hT hd hs) rfl).elim
    | calling number => exact (hrest.not_move (Move.answer (l := l) hT hd hs) rfl).elim
    | reporting r =>
      cases hc : s.cancelled with
      | true => exact (hrest.not_move (Move.discard (l := l) hT hd hs (.inl hc)) rfl).elim
      | false =>
        have hroom : s.raw.queue.length < s.raw.capacity := by
          rw [hrest.raw_queue]
          exact h.raw_room
        exact (hrest.not_move (Move.emit (l := l) hT hd hs hc h.raw_open hroom) rfl).elim

/-- A feeder at rest waits for room on a feed that is still read. -/
theorem feeder (hq : s.feed.receiving = true → s.feed.queue = []) : s.feeder = .finished := by
  let l := unusedLedger
  cases hf : s.feeder with
  | idle =>
    cases hu : s.unfed with
    | nil => exact (hrest.not_move (Move.exhaust (j := j) (l := l) hf hu) rfl).elim
    | cons e rest => exact (hrest.not_move (Move.take (j := j) (l := l) hf hu) rfl).elim
  | offering e =>
    by_cases hw : s.cancelled = true ∨ s.feed.receiving = false
    · exact (hrest.not_move (Move.withdraw (j := j) (l := l) hf hw) rfl).elim
    · rw [not_or, Bool.not_eq_true, Bool.not_eq_false] at hw
      have hroom : s.feed.queue.length < s.feed.capacity := by
        rw [hq hw.2]
        exact h.feed_room.resolve_left (by simp [hf])
      exact (hrest.not_move (Move.offer (j := j) (l := l) hf hw.1 hw.2 hroom) rfl).elim
  | finished => rfl

theorem transport (hT : j.transport = .fanOut send limit) (hlimit : 0 < limit) :
    s.transport = .finished := by
  have hd := h.deliveries hrest hT
  have hfits := h.fits
  let l := unusedLedger
  cases ht : s.transport with
  | acquiring =>
    cases hc : s.cancelled with
    | false => exact (hrest.not_move (Move.acquire (l := l) hT ht hc (by simpa [hd])) rfl).elim
    | true => exact (hrest.not_move (Move.interrupt (l := l) hT (.inl ht) hc) rfl).elim
  | receiving =>
    cases hc : s.cancelled with
    | false =>
      cases hq : s.feed.queue with
      | nil =>
        have hf := h.feeder hrest fun _ => hq
        exact (hrest.not_move (Move.leave (l := l) hT ht hc hq hf) rfl).elim
      | cons e rest => exact (hrest.not_move (Move.accept (l := l) hT ht hc hq) rfl).elim
    | true => exact (hrest.not_move (Move.interrupt (l := l) hT (.inr ht) hc) rfl).elim
  | leaving => exact (hrest.not_move (Move.wind (l := l) hT ht) rfl).elim
  | winding aborting => exact (hrest.not_move (Move.conclude (l := l) hT ht hd) rfl).elim
  | acting seen => simp [TransportTask.Fits, hT, ht] at hfits
  | finished => rfl

end AtRest

end Standing

/-- Where a fan-out with a feeder and a reader can go, it comes to rest, and there everything has
finished and everything is read. -/
structure Settles (j : Job) (s : State) : Prop where
  decreasing : ∀ log s', Turn j s log s' → s'.work < s.work
  reached : ∃ log s', Turns j s log s' ∧ Resting j s'
  finished : ∀ log s', Turns j s log s' → Resting j s' → s'.feeder = .finished ∧
    s'.transport = .finished ∧ s'.deliveries = [] ∧ s'.raw.queue = []

/-- A fan-out that was ready has come to rest without a cancellation. -/
structure Completes (j : Job) (log : List Emission) (s : State) : Prop where
  turns : ∃ s₀, Ready j s₀ ∧ Turns j s₀ log s
  resting : Resting j s
  uncancelled : s.cancelled = false

theorem Ready.settles {s₀ : State} (hready : Ready j s₀) (hj : j.transport.Routed)
    (hT : j.transport = .fanOut send limit) (hlimit : 0 < limit) (hturns : Turns j s₀ log s) :
    Settles j s where
  decreasing _ _ ht := ht.work_lt hj hT
  reached := Turns.exists_resting hj hT s
  finished log' s' hturns' hrest := by
    have h := Standing.of_turns hT hready (hturns.trans hturns')
    -- Against the flow: results are read, so deliveries end, so the transport does, so the feeder.
    have ht := h.transport hrest hT hlimit
    have hf := h.feeder hrest fun hr => by
      rw [h.feed_closed.mpr ht] at hr
      cases hr
    exact ⟨hf, ht, h.deliveries hrest hT, hrest.raw_queue⟩

theorem isOrdinary_of_isFanOut (h : label.isFanOut = true) : label.isOrdinary = true := by
  cases label <;> first | rfl | cases h

theorem Turn.uncancelled (hT : j.transport = .fanOut send limit)
    (hcancels : ∀ number e, j.cancels number e = false) (h : Turn j s log s')
    (hc : s.cancelled = false) : s'.cancelled = false := by
  rcases h.inv hT with ⟨-, -, label, hl, hm⟩ | ⟨_, _, _, -, -, -, -, -, -, rfl⟩ |
    ⟨-, -, -, d, -, number, -, hd⟩ | ⟨-, rfl, -⟩
  · exact (hm.cancelled_eq hcancels (isOrdinary_of_isFanOut hl)).trans hc
  · exact hc
  · rw [hcancels] at hd
    cases hd
  · exact hc

/-- A fan-out whose sender does not cancel comes to rest without a cancellation. -/
theorem Ready.exists_completes {s₀ : State} (hready : Ready j s₀) (hj : j.transport.Routed)
    (hT : j.transport = .fanOut send limit) (hcancels : ∀ number e, j.cancels number e = false) :
    ∃ log s, Completes j log s := by
  obtain ⟨log, s, hturns, hrest⟩ := Turns.exists_resting hj hT s₀
  refine ⟨log, s, ⟨s₀, hready, hturns⟩, hrest, ?_⟩
  clear hrest
  induction hturns with
  | refl => exact hready.uncancelled
  | tail _ ht ih => exact ht.uncancelled hT hcancels ih

/-- The start of a dispatch has a fan-out that is ready. -/
theorem Ready.start (hj : j.transport.Routed) (hT : j.transport = .fanOut send limit) :
    Ready j j.start := by
  have ht : j.transportStart = .acquiring := by
    rcases transportStart_of_routed hj with ht | ht
    · exact ht
    · simp only [Job.transportStart, hT] at ht
      split at ht <;> cases ht
  constructor <;> simp [Job.start, Job.feedStart, ht, capacity, Feeder.held]

end PushDelivery.Dispatch
