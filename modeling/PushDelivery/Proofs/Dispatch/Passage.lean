import Mathlib.Data.List.Perm.Basic
import PushDelivery.Proofs.Dispatch.Closing

/-!
# The passage of endpoints through a dispatch

As long as nobody cancels, every endpoint of the caller is in one place: not yet taken, with the
feeder, on the feed, at hand with the transport, or turned into a raw result. `Passage` accounts for
them, first on the way to the transport, where the order is the caller's, and then behind it. A
fan-out calls the sender for what it has read, and each call has its own answer. Deliveries overtake
one another, so this account is up to order. What is rejected stays in order.
-/

namespace PushDelivery

/-- The raw result of an endpoint: what the call of this number left behind, or its rejection. -/
def Job.answer (j : Job) (number : Nat) (e : Endpoint) : DeliveryResult :=
  match j.transport with
  | .fanOut send _ => (send number j.provider j.notification e).result j.provider e
  | .sequential _ => Transport.rejection j.provider e

/-- The raw result is one that the endpoint has from some call. -/
def Job.Gives (j : Job) (e : Endpoint) (r : DeliveryResult) : Prop :=
  ∃ number, r = j.answer number e

/-- The raw result of an endpoint by itself, if calls make no difference. -/
def Job.outcome (j : Job) (e : Endpoint) : DeliveryResult := j.answer 0 e

/-- All calls for an endpoint have the same answer. -/
def Job.Stateless (j : Job) : Prop := ∀ number e, j.answer number e = j.outcome e

/-- A transport whose sender does the same at each call. -/
def Transport.Stateless (t : Transport) : Prop :=
  ∀ send limit, t = .fanOut send limit → ∀ number, send number = send 0

theorem Job.answer_of_fanOut {j : Job} {send : Nat → Sender} {limit : Nat}
    (hT : j.transport = .fanOut send limit) (number : Nat) (e : Endpoint) :
    j.answer number e = (send number j.provider j.notification e).result j.provider e := by
  rw [answer, hT]

theorem Job.answer_of_sequential {j : Job}
    {next : Provider → Notification → List Observation → Action}
    (hT : j.transport = .sequential next) (number : Nat) (e : Endpoint) :
    j.answer number e = Transport.rejection j.provider e := by
  rw [answer, hT]

theorem Job.Stateless.of_transport {j : Job} (h : j.transport.Stateless) : j.Stateless := by
  intro number e
  cases hT : j.transport with
  | fanOut send limit => rw [outcome, answer_of_fanOut hT, answer_of_fanOut hT, h _ _ hT number]
  | sequential next => rw [outcome, answer_of_sequential hT, answer_of_sequential hT]

theorem Transport.Stateless.fanOut (send : Sender) (limit : Nat) :
    (Transport.fanOut (fun _ => send) limit).Stateless := by
  intro send' limit' ht number
  injection ht with hsend
  rw [← hsend]

theorem Registry.FansOutStateless.stateless {registry : Registry Transport}
    (h : registry.FansOutStateless) (providerType : String) :
    (registry.route providerType).Stateless := by
  unfold route
  cases ht : registry.get? providerType with
  | none =>
    intro send limit ht
    cases ht
  | some transport =>
    obtain ⟨send, limit, rfl, -⟩ := h providerType transport ht
    exact .fanOut send _

namespace Dispatch

def Feeder.held : Feeder → List Endpoint
  | .offering e => [e]
  | _ => []

/-- The raw result that a delivery has, or is going to have from the call that is running. -/
def Delivery.pending (j : Job) (d : Delivery) : List DeliveryResult :=
  match d.stage with
  | .queued => []
  | .calling number => [j.answer number d.endpoint]
  | .reporting r => [r]

/-- The raw results of the calls that have not been emitted. -/
def State.pending (j : Job) (s : State) : List DeliveryResult :=
  s.deliveries.flatMap (Delivery.pending j)

/-- The endpoints of deliveries that have not called the sender. -/
def State.uncalled (s : State) : List Endpoint :=
  (s.deliveries.filter (·.stage = .queued)).map Delivery.endpoint

structure Passage (j : Job) (s : State) : Prop where
  endpoints :
    s.history.accepted ++ s.feed.queue ++ s.feeder.held ++ s.unfed = j.endpoints
  called : ∀ send limit, j.transport = .fanOut send limit →
    (s.history.called ++ s.uncalled).Perm s.history.accepted
  answered : ∀ send limit, j.transport = .fanOut send limit →
    (s.history.emitted ++ s.pending j).Perm
      (s.history.called.zipIdx.map fun x => j.answer x.2 x.1)
  rejected : ∀ next, j.transport = .sequential next →
    s.history.emitted ++ s.transport.held.map (Transport.rejection j.provider) =
      s.history.accepted.map (Transport.rejection j.provider)

variable {σ : Type} [SubscriptionStore σ] {j : Job} {label : Label} {s s' : State}
  {l l' : Ledger σ} {send : Nat → Sender} {limit place : Nat} {d : Delivery} {stage : Stage}

/-- A delivery has called the sender, or it has not. -/
theorem length_pending_add_length_uncalled (j : Job) (s : State) :
    (s.pending j).length + s.uncalled.length = s.deliveries.length := by
  rw [State.pending, State.uncalled]
  induction s.deliveries with
  | nil => rfl
  | cons d ds ih =>
    cases hs : d.stage <;> simp_all [Delivery.pending] <;> omega

/-- What is pending once the delivery at a place comes to another stage. -/
theorem pending_stageDelivery_perm {rs : List DeliveryResult} (hd : s.deliveries[place]? = some d)
    (hstage : ({ d with stage } : Delivery).pending j = d.pending j ++ rs) :
    ((stageDelivery s place stage).pending j).Perm (s.pending j ++ rs) := by
  obtain ⟨before, after, hds, hmodify, -⟩ := exists_eq_append_of_getElem? hd
  rw [State.pending, State.pending, stageDelivery, hmodify, hds]
  simp only [List.flatMap_append, List.flatMap_cons, hstage, List.append_assoc]
  exact (List.perm_append_comm.append_left _).append_left _

/-- What is pending once the delivery at a place has ended. -/
theorem pending_removeDelivery_perm (hd : s.deliveries[place]? = some d) :
    (d.pending j ++ (removeDelivery s place).pending j).Perm (s.pending j) := by
  obtain ⟨before, after, hds, -, herase⟩ := exists_eq_append_of_getElem? hd
  rw [State.pending, State.pending, removeDelivery, herase, hds]
  simp only [List.flatMap_append, List.flatMap_cons]
  rw [← List.append_assoc, ← List.append_assoc]
  exact List.perm_append_comm.append_right _

theorem uncalled_stageDelivery (hd : s.deliveries[place]? = some d) (hs : d.stage ≠ .queued)
    (hstage : stage ≠ .queued) : (stageDelivery s place stage).uncalled = s.uncalled := by
  obtain ⟨before, after, hds, hmodify, -⟩ := exists_eq_append_of_getElem? hd
  rw [State.uncalled, State.uncalled, stageDelivery, hmodify, hds]
  simp [hs, hstage]

theorem uncalled_removeDelivery (hd : s.deliveries[place]? = some d) (hs : d.stage ≠ .queued) :
    (removeDelivery s place).uncalled = s.uncalled := by
  obtain ⟨before, after, hds, -, herase⟩ := exists_eq_append_of_getElem? hd
  rw [State.uncalled, State.uncalled, removeDelivery, herase, hds]
  simp [hs]

/-- A delivery that calls the sender is uncalled no more. -/
theorem cons_uncalled_stageDelivery_perm (hd : s.deliveries[place]? = some d)
    (hs : d.stage = .queued) (hstage : stage ≠ .queued) :
    (d.endpoint :: (stageDelivery s place stage).uncalled).Perm s.uncalled := by
  obtain ⟨before, after, hds, hmodify, -⟩ := exists_eq_append_of_getElem? hd
  rw [State.uncalled, State.uncalled, stageDelivery, hmodify, hds]
  simpa [hs, hstage] using List.perm_middle.symm

namespace Passage

theorem setTransport {t : TransportTask} (h : Passage j s) (ht : t.held = s.transport.held) :
    Passage j { s with transport := t } :=
  { h with rejected := by simpa only [ht] using h.rejected }

theorem finishTransport (h : Passage j s) (ho : Orderly j s) (hc : s.cancelled = false)
    (hl : s.transport.hasLeft = true) : Passage j (finishTransport s) := by
  have hq := (ho.read hc hl).2
  have ht := TransportTask.held_eq_nil_of_hasLeft hl
  exact { h with
    endpoints := by simpa [Dispatch.finishTransport, Channel.close, hq] using h.endpoints
    rejected := by
      have := h.rejected
      rw [ht] at this
      exact this }

/-- A delivery calls the sender; the call is the one of the next number. -/
theorem call (h : Passage j s) (hT : j.transport = .fanOut send limit)
    (hd : s.deliveries[place]? = some d) (hs : d.stage = .queued) :
    Passage j (stageDelivery { s with history.called := s.history.called ++ [d.endpoint] } place
      (.calling s.history.called.length)) := by
  let e := d.endpoint
  let s' := stageDelivery s place (.calling s.history.called.length)
  let r := j.answer s.history.called.length e
  have huncalled : (e :: s'.uncalled).Perm s.uncalled :=
    cons_uncalled_stageDelivery_perm hd hs (by simp)
  have hpending : (s'.pending j).Perm (s.pending j ++ [r]) :=
    pending_stageDelivery_perm hd (by simp [Delivery.pending, hs, r, e])
  refine ⟨h.endpoints, fun send limit hT => ?_, fun send limit hT => ?_, by simp [hT]⟩
  · have hcalled : (s.history.called ++ [e] ++ s'.uncalled).Perm s.history.accepted := by
      rw [List.append_assoc]
      exact (huncalled.append_left _).trans (h.called send limit hT)
    exact hcalled
  · have hanswered : (s.history.emitted ++ s'.pending j).Perm
        ((s.history.called ++ [e]).zipIdx.map fun x => j.answer x.2 x.1) := by
      rw [List.zipIdx_append, List.map_append, List.zipIdx_singleton, List.map_singleton,
        Nat.zero_add]
      refine (hpending.append_left _).trans ?_
      rw [← List.append_assoc]
      exact (h.answered send limit hT).append_right [r]
    exact hanswered

/-- The call of a delivery comes back. -/
theorem answer {number : Nat} (h : Passage j s)
    (hd : s.deliveries[place]? = some d) (hs : d.stage = .calling number) :
    Passage j (stageDelivery s place (.reporting (j.answer number d.endpoint))) := by
  let s' := stageDelivery s place (.reporting (j.answer number d.endpoint))
  have huncalled : s'.uncalled = s.uncalled :=
    uncalled_stageDelivery hd (by simp [hs]) (by simp)
  have hpending : (s'.pending j).Perm (s.pending j ++ []) :=
    pending_stageDelivery_perm hd (by simp [Delivery.pending, hs])
  rw [List.append_nil] at hpending
  refine { h with called := fun send limit hT => ?_, answered := fun send limit hT => ?_ }
  · rw [huncalled]
    exact h.called send limit hT
  · exact (hpending.append_left _).trans (h.answered send limit hT)

theorem emit {r : DeliveryResult} (h : Passage j s) (hT : j.transport = .fanOut send limit)
    (hd : s.deliveries[place]? = some d) (hs : d.stage = .reporting r) :
    Passage j (emit (removeDelivery s place) r) := by
  refine ⟨h.endpoints, fun send limit hT => ?_, fun send limit hT => ?_, by simp [hT]⟩
  · have hsame := uncalled_removeDelivery hd (by simp [hs])
    exact .trans (.of_eq (congrArg (s.history.called ++ ·) hsame)) (h.called send limit hT)
  · -- The result leaves the pending ones for the end of the emitted ones.
    have hperm := pending_removeDelivery_perm (j := j) hd
    rw [Delivery.pending, hs] at hperm
    refine .trans ?_ ((hperm.append_left _).trans (h.answered send limit hT))
    rw [Dispatch.emit, ← List.append_assoc]
    exact .refl _

theorem move (hj : j.transport.Routed) (ho : Orderly j s) (h : Passage j s)
    (hm : Move j label s l s' l') (hc' : s'.cancelled = false) : Passage j s' := by
  have hc := hm.cancelled_eq_false hc'
  cases hm with
  | exhaust hf hu =>
    exact { h with endpoints := by simpa [hf, Feeder.held] using h.endpoints }
  | take hf hu =>
    exact { h with endpoints := by simpa [hf, hu, Feeder.held] using h.endpoints }
  | withdraw hf hw =>
    have := ho.feed_receiving_of_offering hf hc
    simp_all
  | offer hf =>
    exact { h with endpoints := by simpa [hf, Feeder.held, Channel.push] using h.endpoints }
  | acquire hT ht | leave hT ht | wind hT ht =>
    exact h.setTransport (by rw [ht]; rfl)
  | interrupt hT ht hi => simp [hc] at hi
  | @accept _ _ _ _ e rest hT ht _ hq =>
    refine ⟨?_, fun send limit hT => ?_, fun send limit hT => ?_, by simp [hT]⟩
    · simpa [acceptEndpoint, Channel.pop, hq] using h.endpoints
    · simpa [acceptEndpoint, State.uncalled] using (h.called send limit hT).append_right [e]
    · simpa [acceptEndpoint, State.pending, Delivery.pending] using h.answered send limit hT
  | conclude hT ht hd => exact h.finishTransport ho hc (by rw [ht]; rfl)
  | heed hT ht ha hi => simp [hc] at hi
  | @fetch _ _ _ _ _ e rest hT ht ha _ hq =>
    refine ⟨?_, by simp [hT], by simp [hT], fun next hT' => ?_⟩
    · simpa [acceptEndpoint, Channel.pop, hq] using h.endpoints
    · have hrejected := h.rejected next hT'
      rw [ht, held_of_next_eq_receive hj hT ha, List.map_nil, List.append_nil] at hrejected
      simp [acceptEndpoint, TransportTask.held, hrejected]
  | miss hT ht ha =>
    apply h.setTransport
    rw [ht, held_of_next_eq_receive hj hT ha]
    rfl
  | crash hT ht ha => exact (next_ne_call hj hT ha).elim
  | call hT ht ha => exact (next_ne_call hj hT ha).elim
  | lose hT ht ha hr =>
    have := ho.raw_receiving hc (by simp [ht])
    simp [hr] at this
  | send hT ht ha hr hq =>
    obtain ⟨e, he, rfl⟩ := exists_of_next_eq_send hj hT ha
    refine ⟨h.endpoints, by simp [hT], by simp [hT], fun next hT' => ?_⟩
    have hrejected := h.rejected next hT'
    rw [ht, he] at hrejected
    simpa [Dispatch.emit, TransportTask.held] using hrejected
  | finish hT ht ha =>
    exact h.finishTransport ho hc (ht ▸ hasLeft_of_next_eq_finish hj hT ha)
  | start hT hd hs => exact h.call hT hd hs
  | @answer _ _ _ _ _ number d hT hd hs =>
    have h₁ : Passage j { s with cancelled := s.cancelled || j.cancels number d.endpoint } :=
      { h with }
    rw [← j.answer_of_fanOut hT]
    exact h₁.answer hd hs
  | discard hT hd hs hw =>
    have := ho.raw_receiving hc (ho.transport_ne_finished hd)
    simp_all
  | emit hT hd hs => exact h.emit hT hd hs
  | abort ht =>
    have := ho.aborting ht
    simp [hc] at this
  | stop _ hi => simp [hc] at hi
  | collect | drain | reconcile | report | measure | consume => exact { h with }
  | forsake hr hw =>
    have := ho.report_receiving hc
    simp_all
  | cancel | drop => cases hc'

theorem start (hj : j.transport.Routed) : Passage j j.start := by
  have hf := feedStart_of_routed hj ⟨capacity, [], true⟩
  rcases transportStart_of_routed hj with ht | ht <;> constructor <;>
    simp [Job.start, hf, ht, State.pending, State.uncalled, TransportTask.held, Feeder.held]

theorem of_run {labels : List Label} (hj : j.transport.Routed)
    (hrun : Run j (j.start, l) labels (s, l')) (hc : s.cancelled = false) : Passage j s := by
  have h := hrun.keeps (P := fun s _ => Orderly j s ∧ (s.cancelled = false → Passage j s))
    (fun hm ⟨ho, hp⟩ =>
      ⟨ho.move hj hm, fun hc => (hp (hm.cancelled_eq_false hc)).move hj ho hm hc⟩)
    ⟨.start hj, fun _ => .start hj⟩
  exact h.2 hc

end Passage

end Dispatch

end PushDelivery
