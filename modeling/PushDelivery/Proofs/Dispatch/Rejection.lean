import Mathlib.Logic.Relation
import PushDelivery.Proofs.Dispatch.FanOut
import PushDelivery.Proofs.Dispatch.Transparency

/-!
# Rejection by itself

A transport that rejects everything is followed here through whatever can happen to it: moves of the
dispatch that it belongs to, a cancellation among them, and somebody else who reads its results or
goes away. The channels may have any capacity, and the endpoints may be on the feed from the start
or be offered later.

`Refuses` is what all of that keeps. Each endpoint that was read has its rejection emitted or at
hand, in the order of the feed, and the transport leaves its loop for one of three reasons: it was
cancelled, a result found no reader, or the feed has ended. Only in the second case is a result
lost, and no more than one. Until it has finished there is something that it waits for and that can
still happen, and nothing goes on for ever.
-/

namespace PushDelivery.Dispatch

variable {σ : Type} [SubscriptionStore σ] {j : Job} {label : Label} {s s' : State}
  {l l' : Ledger σ} {c c' : State × Ledger σ}

/-- What can happen to a transport: a move of its dispatch, a read of its first result by somebody
else, and the loss of its reader. -/
inductive Incident (j : Job) : State × Ledger σ → State × Ledger σ → Prop
  | move {label : Label} {s s' : State} {l l' : Ledger σ} :
      step j label s l = some (s', l') → Incident j (s, l) (s', l')
  | read {s : State} {l : Ledger σ} {r : DeliveryResult} {rest : List DeliveryResult} :
      s.raw.queue = r :: rest → Incident j (s, l) ({ s with raw := s.raw.pop }, l)
  | depart {s : State} {l : Ledger σ} : s.raw.receiving = true →
      Incident j (s, l) ({ s with raw := s.raw.close }, l)

/-- A job whose transport is about to start, with all its endpoints before it. -/
structure Offered (j : Job) (s : State) : Prop where
  transport : s.transport = j.transportStart
  unread : s.unread = j.endpoints
  fed : s.feeder = .finished → s.unfed = []
  feed_open : s.feed.receiving = true
  feed_room : s.feeder = .finished ∨ 0 < s.feed.capacity
  raw_room : j.endpoints = [] ∨ 0 < s.raw.capacity
  deliveries : s.deliveries = []
  history : s.history = {}

/-- A transport that rejects everything has a reason to leave its loop: a cancellation, when it has
no result at hand, the loss of a result, or the end of the feed. -/
def Spent (j : Job) (s : State) : Prop :=
  (s.cancelled = true ∧
    s.history.emitted = s.history.accepted.map (Transport.rejection j.provider)) ∨
  (s.raw.receiving = false ∧ s.history.accepted.length = s.history.emitted.length + 1) ∨
  (s.feeder = .finished ∧ s.history.emitted = j.endpoints.map (Transport.rejection j.provider))

/-- How far a transport has come that rejects everything. -/
structure Refuses (j : Job) (s : State) : Prop where
  acting : s.transport ≠ .finished → ∃ seen, s.transport = .acting seen
  deliveries : s.deliveries = []
  called : s.history.called = []
  feed_open : s.transport ≠ .finished → s.feed.receiving = true
  feed_room : s.feeder = .finished ∨ 0 < s.feed.capacity
  raw_room : j.endpoints = [] ∨ 0 < s.raw.capacity
  accepted : s.history.accepted <+: j.endpoints
  unread : s.transport ≠ .finished → s.cancelled = false →
    s.history.accepted ++ s.unread = j.endpoints
  fed : s.transport ≠ .finished → s.cancelled = false → s.feeder = .finished → s.unfed = []
  emitted : s.history.emitted <+: s.history.accepted.map (Transport.rejection j.provider)
  kept : s.transport.hasLeft = false →
    s.history.emitted ++ s.transport.held.map (Transport.rejection j.provider) =
      s.history.accepted.map (Transport.rejection j.provider)
  left : s.transport.hasLeft = true → Spent j s

/-! ## The start -/

theorem transportStart_of_rejecting (hj : j.transport = .rejecting) :
    j.transportStart = .acting [] := by
  rw [Job.transportStart, hj, Transport.rejecting]

theorem Offered.start (hj : j.transport = .rejecting) : Offered j j.start := by
  constructor <;>
    simp [Job.start, Job.feedStart, transportStart_of_rejecting hj, State.unread, Feeder.held,
      capacity]

theorem Offered.startAlone (hj : j.transport = .rejecting) (reading cancelled : Bool) :
    Offered j (j.transportStartAlone reading cancelled) := by
  have hroom : j.endpoints = [] ∨ 0 < j.endpoints.length := by
    rw [← List.length_eq_zero_iff]
    exact Nat.eq_zero_or_pos _
  constructor <;>
    simp [Job.transportStartAlone, Job.feedStart, transportStart_of_rejecting hj, State.unread,
      Feeder.held, hroom]

theorem Offered.refuses (h : Offered j s) (hj : j.transport = .rejecting) : Refuses j s := by
  have ht := h.transport.trans (transportStart_of_rejecting hj)
  have hhistory := h.history
  constructor
  case acting => exact fun _ => ⟨[], ht⟩
  case deliveries => exact h.deliveries
  case feed_open => exact fun _ => h.feed_open
  case feed_room => exact h.feed_room
  case raw_room => exact h.raw_room
  case unread =>
    intro _ _
    rw [hhistory]
    exact h.unread
  case fed => exact fun _ _ => h.fed
  all_goals simp [hhistory, ht, TransportTask.held, TransportTask.hasLeft]

/-! ## What is kept -/

section Rejecting

variable (hj : j.transport = .rejecting)
include hj

theorem ne_fanOut_of_rejecting {send : Nat → Sender} {limit : Nat} :
    j.transport ≠ .fanOut send limit := by
  rw [hj, Transport.rejecting]
  exact nofun

theorem routed_of_rejecting : j.transport.Routed := hj ▸ .rejecting

variable {next : Provider → Notification → List Observation → Action} {seen : List Observation}

/-- The transport waits for the feed only as long as it is not cancelled. -/
theorem heedful_of_rejecting (hT : j.transport = .sequential next) {heedful : Bool}
    (ha : next j.provider j.notification seen = .receive heedful) : heedful = true := by
  rw [next_eq_of_routed (routed_of_rejecting hj) hT] at ha
  split at ha <;> cases ha <;> rfl

theorem hasLeft_of_rejecting (hT : j.transport = .sequential next)
    (ha : next j.provider j.notification seen ≠ .finish) :
    (TransportTask.acting seen).hasLeft = false := by
  rw [next_eq_of_routed (routed_of_rejecting hj) hT] at ha
  split at ha
  · rfl
  · rfl
  · rfl
  · exact (ha rfl).elim

end Rejecting

namespace Refuses

/-- A transport has not left for the end of its feed while the feeder is at work. -/
theorem left_of_feeder (h : Refuses j s) (hf : s.feeder ≠ .finished) {feeder : Feeder}
    {feed : Channel Endpoint} {unfed : List Endpoint} (hl : s.transport.hasLeft = true) :
    Spent j { s with feeder, feed, unfed } :=
  (h.left hl).imp_right (.imp_right fun hdone => (hf hdone.1).elim)

/-- The transport leaves its loop. -/
theorem leave (h : Refuses j s) (hs : s.transport ≠ .finished) {seen : List Observation}
    (hl : (TransportTask.acting seen).hasLeft = true) (hspent : Spent j s) :
    Refuses j { s with transport := .acting seen } :=
  { h with
    acting := fun _ => ⟨seen, rfl⟩
    feed_open := fun _ => h.feed_open hs
    unread := fun _ => h.unread hs
    fed := fun _ => h.fed hs
    kept := fun hl' => by simp [hl] at hl'
    left := fun _ => hspent }

section Acting

variable {next : Provider → Notification → List Observation → Action} {seen : List Observation}
  (hj : j.transport = .rejecting) (h : Refuses j s) (hT : j.transport = .sequential next)
  (ht : s.transport = .acting seen)
include hj h hT ht

/-- A transport that waits for the feed has emitted all its results. -/
theorem emitted_of_receive {heedful : Bool}
    (ha : next j.provider j.notification seen = .receive heedful) :
    s.history.emitted = s.history.accepted.map (Transport.rejection j.provider) := by
  have hkept := h.kept (ht ▸ hasLeft_of_rejecting hj hT (by simp [ha]))
  rwa [ht, held_of_next_eq_receive (routed_of_rejecting hj) hT ha, List.map_nil, List.append_nil]
    at hkept

/-- A transport that has a result to emit has emitted all others. -/
theorem emitted_of_send {r : DeliveryResult}
    (ha : next j.provider j.notification seen = .send r) :
    s.history.emitted ++ [r] = s.history.accepted.map (Transport.rejection j.provider) := by
  obtain ⟨e, he, rfl⟩ := exists_of_next_eq_send (routed_of_rejecting hj) hT ha
  have hkept := h.kept (ht ▸ hasLeft_of_rejecting hj hT (by simp [ha]))
  rwa [ht, he, List.map_singleton] at hkept

end Acting

theorem move (hj : j.transport = .rejecting) (h : Refuses j s) (hm : Move j label s l s' l') :
    Refuses j s' := by
  have hrouted := routed_of_rejecting hj
  cases hm with
  | exhaust hf hu =>
    exact { h with
      feed_room := .inl rfl
      unread := by simpa [State.unread, hf, Feeder.held] using h.unread
      fed := fun _ _ _ => hu
      left := h.left_of_feeder (by simp [hf]) }
  | take hf hu =>
    exact { h with
      feed_room := .inr (h.feed_room.resolve_left (by simp [hf]))
      unread := by simpa [State.unread, hf, hu, Feeder.held] using h.unread
      fed := by simp
      left := h.left_of_feeder (by simp [hf]) }
  | withdraw hf hw =>
    -- An endpoint is given up only after a cancellation, or when nobody would read it.
    have hgone (ht : s.transport ≠ .finished) (hc : s.cancelled = false) : False := by
      have hopen := h.feed_open ht
      simp [hc, hopen] at hw
    exact { h with
      feed_room := .inl rfl
      unread := fun ht hc => (hgone ht hc).elim
      fed := fun ht hc => (hgone ht hc).elim
      left := h.left_of_feeder (by simp [hf]) }
  | offer hf hc =>
    exact { h with
      feed_room := .inr (h.feed_room.resolve_left (by simp [hf]))
      unread := by simpa [State.unread, hf, Feeder.held, Channel.push] using h.unread
      fed := by simp
      left := h.left_of_feeder (by simp [hf]) }
  | acquire hT | interrupt hT | accept hT | leave hT | wind hT | conclude hT | start hT | answer hT
  | discard hT | emit hT => exact (ne_fanOut_of_rejecting hj hT).elim
  | heed hT ht ha hc =>
    exact h.leave (by simp [ht]) rfl (.inl ⟨hc, emitted_of_receive hj h hT ht ha⟩)
  | @fetch _ _ _ seen _ e rest hT ht ha hc hq =>
    rw [heedful_of_rejecting hj hT ha, Bool.true_and] at hc
    have hemitted := emitted_of_receive hj h hT ht ha
    have hread : s.history.accepted ++ [e] ++ (rest ++ s.feeder.held ++ s.unfed) = j.endpoints := by
      simpa [State.unread, hq] using h.unread (by simp [ht]) hc
    constructor
    case acting => exact fun _ => ⟨_, rfl⟩
    case deliveries => exact h.deliveries
    case called => exact h.called
    case feed_open => exact fun _ => h.feed_open (by simp [ht])
    case feed_room => exact h.feed_room
    case raw_room => exact h.raw_room
    case accepted => exact ⟨_, hread⟩
    case unread =>
      intro _ _
      simpa [State.unread, acceptEndpoint, Channel.pop, hq] using hread
    case fed => exact fun _ => h.fed (by simp [ht])
    case emitted =>
      refine ⟨[Transport.rejection j.provider e], ?_⟩
      simpa [acceptEndpoint] using hemitted
    case kept =>
      intro _
      simpa [acceptEndpoint, TransportTask.held] using hemitted
    case left => exact fun hl => (Bool.false_ne_true hl).elim
  | miss hT ht ha hc hq hf =>
    rw [heedful_of_rejecting hj hT ha, Bool.true_and] at hc
    have hemitted := emitted_of_receive hj h hT ht ha
    have hs : s.transport ≠ .finished := by simp [ht]
    have hall : s.history.accepted = j.endpoints := by
      simpa [State.unread, hq, hf, h.fed hs hc hf, Feeder.held] using h.unread hs hc
    exact h.leave hs rfl (.inr (.inr ⟨hf, hemitted.trans (congrArg _ hall)⟩))
  | crash hT ht ha | call hT ht ha => exact (next_ne_call hrouted hT ha).elim
  | lose hT ht ha hr =>
    have hlength := congrArg List.length (emitted_of_send hj h hT ht ha)
    rw [List.length_append, List.length_map, List.length_singleton] at hlength
    exact h.leave (by simp [ht]) rfl (.inr (.inl ⟨hr, hlength.symm⟩))
  | send hT ht ha hr hq =>
    have hemitted := emitted_of_send hj h hT ht ha
    have hs : s.transport ≠ .finished := by simp [ht]
    exact { h with
      acting := fun _ => ⟨_, rfl⟩
      feed_open := fun _ => h.feed_open hs
      unread := fun _ => h.unread hs
      fed := fun _ => h.fed hs
      emitted := ⟨[], by simpa [Dispatch.emit] using hemitted⟩
      kept := fun _ => by simpa [Dispatch.emit, TransportTask.held] using hemitted
      left := fun hl => (Bool.false_ne_true hl).elim }
  | finish hT ht ha =>
    have hleft := h.left (ht ▸ hasLeft_of_next_eq_finish hrouted hT ha)
    exact { h with
      acting := fun hs => (hs rfl).elim
      feed_open := fun hs => (hs rfl).elim
      unread := fun hs => (hs rfl).elim
      fed := fun hs => (hs rfl).elim
      kept := fun hl => (Bool.false_ne_true hl.symm).elim
      left := fun _ => hleft }
  | abort ht hp => simp [h.deliveries] at hp
  | stop | drain | forsake =>
    exact { h with left := fun hl => (h.left hl).imp_right (.imp_left fun h => ⟨rfl, h.2⟩) }
  | collect | reconcile | report | measure | consume => exact { h with }
  | cancel | drop =>
    exact { h with
      unread := fun _ hc => (Bool.false_ne_true hc.symm).elim
      fed := fun _ hc => (Bool.false_ne_true hc.symm).elim
      left := fun hl => (h.left hl).imp_left fun h => ⟨rfl, h.2⟩ }

theorem incident (hj : j.transport = .rejecting) (h : Refuses j c.1) (hi : Incident j c c') :
    Refuses j c'.1 := by
  cases hi with
  | move hs => exact h.move hj (step_eq_some_iff.mp hs)
  | read => exact { h with }
  | depart =>
    exact { h with left := fun hl => (h.left hl).imp_right (.imp_left fun h => ⟨rfl, h.2⟩) }

theorem of_incidents (hj : j.transport = .rejecting) (h : Refuses j c.1)
    (hi : Relation.ReflTransGen (Incident j) c c') : Refuses j c'.1 := by
  induction hi with
  | refl => exact h
  | tail _ hi ih => exact ih.incident hj hi

theorem emitted_prefix (h : Refuses j s) :
    s.history.emitted <+: j.endpoints.map (Transport.rejection j.provider) :=
  h.emitted.trans (h.accepted.map _)

end Refuses

theorem Incident.silent (hj : j.transport = .rejecting) (hc : c.1.cancelled = true)
    (hi : Incident j c c') :
    c'.1.cancelled = true ∧ c'.1.history.accepted = c.1.history.accepted := by
  cases hi with
  | move hs =>
    have hm := step_eq_some_iff.mp hs
    cases hm with
    | accept hT | answer hT => exact (ne_fanOut_of_rejecting hj hT).elim
    | fetch hT _ ha hc' =>
      rw [heedful_of_rejecting hj hT ha, hc] at hc'
      cases hc'
    | cancel | drop => exact ⟨rfl, rfl⟩
    | _ => exact ⟨hc, rfl⟩
  | read | depart => exact ⟨hc, rfl⟩

/-- Once it is cancelled the transport reads no more endpoints. -/
theorem accepted_of_cancelled (hj : j.transport = .rejecting) (hc : c.1.cancelled = true)
    (hi : Relation.ReflTransGen (Incident j) c c') :
    c'.1.history.accepted = c.1.history.accepted := by
  suffices h : c'.1.cancelled = true ∧ c'.1.history.accepted = c.1.history.accepted from h.2
  induction hi with
  | refl => exact ⟨hc, rfl⟩
  | tail _ hi ih =>
    obtain ⟨hc', haccepted⟩ := hi.silent hj ih.1
    exact ⟨hc', haccepted.trans ih.2⟩

/-! ## What must happen -/

namespace Refuses

/-- Until the transport has finished it can move, or there is a result to read, or it waits for the
feeder, which can move. -/
theorem exists_incident (hj : j.transport = .rejecting) (h : Refuses j s)
    (hs : s.transport ≠ .finished) (l : Ledger σ) :
    (∃ s', step j .transport s l = some (s', l)) ∨ s.raw.queue ≠ [] ∨
      s.cancelled = false ∧ s.feed.queue = [] ∧ ∃ s', step j .feeder s l = some (s', l) := by
  have hrouted := routed_of_rejecting hj
  obtain ⟨seen, ht⟩ := h.acting hs
  obtain ⟨next, hT⟩ : ∃ next, j.transport = .sequential next := ⟨_, hj⟩
  cases ha : next j.provider j.notification seen with
  | receive heedful =>
    obtain rfl := heedful_of_rejecting hj hT ha
    cases hc : s.cancelled with
    | true => exact .inl ⟨_, (Move.heed hT ht ha hc).step_eq_some⟩
    | false =>
      cases hq : s.feed.queue with
      | cons e rest => exact .inl ⟨_, (Move.fetch hT ht ha hc hq).step_eq_some⟩
      | nil =>
        cases hf : s.feeder with
        | idle =>
          refine .inr (.inr ⟨rfl, rfl, ?_⟩)
          cases hu : s.unfed with
          | nil => exact ⟨_, (Move.exhaust hf hu).step_eq_some⟩
          | cons e rest => exact ⟨_, (Move.take hf hu).step_eq_some⟩
        | offering e =>
          have hroom : s.feed.queue.length < s.feed.capacity := by
            rw [hq]
            exact h.feed_room.resolve_left (by simp [hf])
          exact .inr (.inr ⟨rfl, rfl, _, (Move.offer hf hc (h.feed_open hs) hroom).step_eq_some⟩)
        | finished => exact .inl ⟨_, (Move.miss hT ht ha hc hq hf).step_eq_some⟩
  | call e outcome => exact (next_ne_call hrouted hT ha).elim
  | send r =>
    cases hr : s.raw.receiving with
    | false => exact .inl ⟨_, (Move.lose hT ht ha hr).step_eq_some⟩
    | true =>
      by_cases hroom : s.raw.queue.length < s.raw.capacity
      · exact .inl ⟨_, (Move.send hT ht ha hr hroom).step_eq_some⟩
      · -- The channel is full of results, because there was an endpoint to make it for.
        refine .inr (.inl fun hq => ?_)
        have hemitted := emitted_of_send hj h hT ht ha
        have haccepted := h.accepted
        rw [h.raw_room.resolve_right (by simpa [hq] using hroom), List.prefix_nil] at haccepted
        simp [haccepted] at hemitted
  | finish => exact .inl ⟨_, (Move.finish hT ht ha).step_eq_some⟩

end Refuses

def State.patience (s : State) : Nat := s.work + s.raw.receiving.toNat

theorem Move.raw_receiving_le (hm : Move j label s l s' l') :
    s'.raw.receiving.toNat ≤ s.raw.receiving.toNat := by
  cases hm with
  | stop | drain | forsake => exact Nat.zero_le _
  | _ => exact Nat.le_refl _

theorem Incident.patience_lt (hj : j.transport.Routed) (hi : Incident j c c') :
    c'.1.patience < c.1.patience := by
  cases hi with
  | move hs =>
    have hm := step_eq_some_iff.mp hs
    exact Nat.add_lt_add_of_lt_of_le (hm.work_lt hj) hm.raw_receiving_le
  | read hq =>
    simp only [State.patience, State.work, Channel.pop, hq, List.tail_cons, List.length_cons]
    omega
  | depart hr =>
    simp only [State.patience, State.work, Channel.close, hr, List.length_nil, Bool.toNat_true,
      Bool.toNat_false]
    omega

/-- Nothing goes on for ever. -/
theorem not_forall_incident (hj : j.transport.Routed) (f : ℕ → State × Ledger σ) :
    ¬ ∀ n, Incident j (f n) (f (n + 1)) := by
  intro hf
  have hle (n : ℕ) : (f n).1.patience + n ≤ (f 0).1.patience := by
    induction n with
    | zero => exact Nat.le_refl _
    | succ n ih =>
      have := (hf n).patience_lt hj
      omega
  have := hle ((f 0).1.patience + 1)
  omega

end PushDelivery.Dispatch
