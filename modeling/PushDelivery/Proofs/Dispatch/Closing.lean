import Mathlib.Tactic.ByContra
import PushDelivery.Proofs.Dispatch.Moves
import PushDelivery.Transport

/-!
# Registries and how a dispatch closes down

A registration changes what is registered for its own type and nothing else. A uniform registry
leads to its transport for the types that it serves, however often they are listed, and rejects the
endpoints of all others.
-/

namespace PushDelivery.Registry

section Lookup

variable {τ : Type u} {transport transport' : τ} {providerType : String}

theorem get?_withTransport (r : Registry τ) (providerType providerType' : String) (transport : τ) :
    (r.withTransport providerType transport).get? providerType' =
      if providerType = providerType' then some transport else r.get? providerType' := by
  simp [withTransport, register, get?, Std.ExtTreeMap.getElem?_insert]

@[simp] theorem get?_empty (providerType : String) :
    ({} : Registry τ).get? providerType = none := by
  simp [get?]

theorem get?_foldl_withTransport (r : Registry τ) (types : List String) (transport : τ)
    (providerType : String) :
    (types.foldl (fun r t => r.withTransport t transport) r).get? providerType =
      if providerType ∈ types then some transport else r.get? providerType := by
  induction types generalizing r with
  | nil => simp
  | cons t types ih =>
    rw [List.foldl_cons, ih, get?_withTransport]
    by_cases ht : t = providerType
    · simp [ht]
    · have hcons : providerType ∈ t :: types ↔ providerType ∈ types := by simp [Ne.symm ht]
      simp only [hcons, if_neg ht]

theorem get?_uniform (types : List String) (transport : τ) (providerType : String) :
    (uniform types transport).get? providerType =
      if providerType ∈ types then some transport else none := by
  rw [uniform, get?_foldl_withTransport, get?_empty]

/-- All that a registry of one registration leads to is what was registered. -/
theorem eq_of_get?_withTransport_empty {providerType' : String}
    (h : (withTransport {} providerType transport).get? providerType' = some transport') :
    transport' = transport := by
  rw [get?_withTransport, get?_empty] at h
  split at h
  next => exact (Option.some.inj h).symm
  next => cases h

end Lookup

theorem route_uniform (types : List String) (transport : Transport) (providerType : String) :
    (uniform types transport).route providerType =
      if providerType ∈ types then transport else .rejecting := by
  rw [route, get?_uniform]
  split <;> rfl

end PushDelivery.Registry

/-!
## How a dispatch closes down

The channels of a dispatch are closed from the feeder to the consumer. `Wired` says which end of a
channel goes with which task and, as long as nobody cancels, that the reconciler outlives the
transport and all deliveries. Every move keeps it, whatever the transport does.

`Orderly` adds the other half of the order, for the transports of a registry: the feeder ends when
nothing is left to offer, the transport when the feed has ended. Such a dispatch never drops an
endpoint before a cancellation.
-/

namespace PushDelivery

/-- The transports that a registry leads to: a fan-out that can start, and rejection. -/
inductive Transport.Routed : Transport → Prop
  | fanOut (send : Nat → Sender) {limit : Nat} : 0 < limit → limit ≤ maxPermits →
      Routed (.fanOut send limit)
  | rejecting : Routed rejecting

theorem Transport.Routed.ofCalls (send : Nat → Sender) {limit : UInt64}
    (h : limit.toNat ≤ maxPermits) : (Transport.ofCalls send limit).Routed := by
  refine .fanOut send (by omega) ?_
  rw [maxPermits] at h ⊢
  omega

/-- A transport that can take an endpoint: a fan-out takes at least one at a time. -/
def Transport.Live (t : Transport) : Prop := ∀ send, t ≠ .fanOut send 0

theorem Transport.Routed.live {t : Transport} (h : t.Routed) : t.Live := by
  intro send ht
  rw [ht] at h
  cases h
  omega

theorem Transport.Live.ofCalls (send : Nat → Sender) (limit : UInt64) :
    (Transport.ofCalls send limit).Live := by
  intro send' ht
  injection ht
  omega

/-- Everything that is registered is a fan-out that can start. -/
def Registry.FansOut (registry : Registry Transport) : Prop :=
  ∀ providerType transport, registry.get? providerType = some transport →
    ∃ send limit, transport = .ofCalls send limit ∧ limit.toNat ≤ Transport.maxPermits

/-- The same, with senders that do the same at each call. -/
def Registry.FansOutStateless (registry : Registry Transport) : Prop :=
  ∀ providerType transport, registry.get? providerType = some transport →
    ∃ send limit, transport = .ofLimit send limit ∧ limit.toNat ≤ Transport.maxPermits

theorem Registry.FansOutStateless.fansOut {registry : Registry Transport}
    (h : registry.FansOutStateless) : registry.FansOut := by
  intro providerType transport ht
  obtain ⟨send, limit, rfl, hlimit⟩ := h providerType transport ht
  exact ⟨fun _ => send, limit, rfl, hlimit⟩

theorem Registry.FansOut.routed {registry : Registry Transport} (h : registry.FansOut)
    (providerType : String) : (registry.route providerType).Routed := by
  unfold route
  cases ht : registry.get? providerType with
  | none => exact .rejecting
  | some transport =>
    obtain ⟨send, limit, rfl, hlimit⟩ := h providerType transport ht
    exact .ofCalls send hlimit

namespace Dispatch

/-- A transport that reads no more endpoints and has none at hand that is not in a delivery. -/
def TransportTask.hasLeft : TransportTask → Bool
  | .acquiring | .receiving => false
  | .acting [] | .acting (.sent true :: _) | .acting (.received (some _) :: _) => false
  | _ => true

def TransportTask.held : TransportTask → List Endpoint
  | .acting (.received (some e) :: _) => [e]
  | _ => []

theorem TransportTask.held_eq_nil_of_hasLeft {t : TransportTask} (h : t.hasLeft = true) :
    t.held = [] := by
  unfold held
  split
  · cases h
  · rfl

/-- The reconciler has let go of its channels. -/
def Reconciler.hasLeft : Reconciler → Bool
  | .measuring | .finished => true
  | _ => false

theorem hasLeft_of_ended {s : State} (h : s.ended = true) :
    s.report.queue = [] ∧ s.reconciler.hasLeft = true := by
  obtain ⟨hq, hr⟩ := ended_iff.mp h
  refine ⟨hq, ?_⟩
  rcases hr with hr | hr <;> rw [hr] <;> rfl

def TransportTask.Fits : TransportTask → Transport → Prop
  | .finished, _ | .acting _, .sequential _ => True
  | .acting _, .fanOut .. | _, .sequential _ => False
  | _, .fanOut .. => True

/-- What a closed channel and an ended task have to do with one another, whatever the transport. -/
structure Wired (j : Job) (s : State) : Prop where
  feed_capacity : s.feed.capacity = capacity
  raw_capacity : s.raw.capacity = capacity
  report_capacity : s.report.capacity = capacity
  fits : s.transport.Fits j.transport
  alone : ∀ next, j.transport = .sequential next → s.deliveries = []
  feed_closed : s.feed.receiving = false ↔ s.transport = .finished
  raw_closed : s.raw.receiving = false ↔ s.reconciler.hasLeft = true
  report_closed : s.report.receiving = false → s.cancelled = true
  delivered : s.transport = .finished → s.deliveries = []
  drained : s.cancelled = false → s.reconciler.hasLeft = true →
    s.transport = .finished ∧ s.raw.queue = []
  aborting : s.transport = .winding true → s.cancelled = true

/-- In which order the tasks end, for a transport that reads its feed to the end. -/
structure Orderly (j : Job) (s : State) : Prop extends Wired j s where
  offered : s.cancelled = false → s.feeder = .finished → s.unfed = []
  read : s.cancelled = false → s.transport.hasLeft = true →
    s.feeder = .finished ∧ s.feed.queue = []

variable {σ : Type} [SubscriptionStore σ] {j : Job} {label : Label} {s s' : State}
  {l l' : Ledger σ}

section Rejecting

variable {next : Provider → Notification → List Observation → Action} {seen : List Observation}
  {p : Provider} {n : Notification}

/-- The sequential transport of a registry is rejection, which goes by what it has seen last. -/
theorem next_eq_of_routed (hj : j.transport.Routed) (hT : j.transport = .sequential next) :
    next p n seen =
      match seen with
      | [] | .sent true :: _ => .receive true
      | .received (some e) :: _ => .send (Transport.rejection p e)
      | _ => .finish := by
  rw [hT] at hj
  cases hj
  rfl

theorem next_ne_call (hj : j.transport.Routed) (hT : j.transport = .sequential next)
    {e : Endpoint} {outcome : SendOutcome} : next p n seen ≠ .call e outcome := by
  rw [next_eq_of_routed hj hT]
  split <;> simp

theorem hasLeft_of_next_eq_finish (hj : j.transport.Routed) (hT : j.transport = .sequential next)
    (ha : next p n seen = .finish) : (TransportTask.acting seen).hasLeft = true := by
  rw [next_eq_of_routed hj hT] at ha
  split at ha <;> cases ha
  next h₁ h₂ h₃ =>
    unfold TransportTask.hasLeft
    split <;> simp_all

theorem held_of_next_eq_receive (hj : j.transport.Routed) (hT : j.transport = .sequential next)
    {heedful : Bool} (ha : next p n seen = .receive heedful) :
    (TransportTask.acting seen).held = [] := by
  rw [next_eq_of_routed hj hT] at ha
  split at ha <;> cases ha <;> rfl

theorem exists_of_next_eq_send (hj : j.transport.Routed) (hT : j.transport = .sequential next)
    {r : DeliveryResult} (ha : next p n seen = .send r) :
    ∃ e, (TransportTask.acting seen).held = [e] ∧ r = Transport.rejection p e := by
  rw [next_eq_of_routed hj hT] at ha
  split at ha <;> cases ha
  next e seen => exact ⟨e, rfl, rfl⟩

end Rejecting

namespace Wired

/-- As long as nobody cancels, the raw channel stays open until the transport has finished. -/
theorem raw_receiving (h : Wired j s) (hc : s.cancelled = false)
    (ht : s.transport ≠ .finished) : s.raw.receiving = true := by
  by_contra hr
  exact ht (h.drained hc (h.raw_closed.mp (by simpa using hr))).1

theorem report_receiving (h : Wired j s) (hc : s.cancelled = false) :
    s.report.receiving = true := by
  by_contra hr
  have hc' := h.report_closed (by simpa using hr)
  rw [hc] at hc'
  cases hc'

theorem transport_ne_finished {d : Delivery} {place : Nat} (h : Wired j s)
    (hd : s.deliveries[place]? = some d) : s.transport ≠ .finished := by
  intro ht
  rw [h.delivered ht] at hd
  cases hd

theorem setTransport {t : TransportTask} (h : Wired j s) (hs : s.transport ≠ .finished)
    (ht : t ≠ .finished) (hfits : t.Fits j.transport)
    (haborting : t = .winding true → s.cancelled = true := by simp) :
    Wired j { s with transport := t } :=
  { h with
    fits := hfits
    feed_closed := h.feed_closed.trans ⟨fun h => (hs h).elim, fun h => (ht h).elim⟩
    delivered := fun h => (ht h).elim
    drained := fun hc hl => (hs (h.drained hc hl).1).elim
    aborting := haborting }

theorem finishTransport (h : Wired j s) (hd : s.deliveries = []) :
    Wired j (finishTransport s) :=
  { h with
    fits := by simp [Dispatch.finishTransport, TransportTask.Fits]
    feed_closed := by simp [Dispatch.finishTransport, Channel.close]
    delivered := fun _ => hd
    drained := fun hc hr => ⟨rfl, (h.drained hc hr).2⟩
    aborting := by simp [Dispatch.finishTransport] }

theorem setDeliveries (h : Wired j s) (hd : s.deliveries ≠ []) (ds : List Delivery) :
    Wired j { s with deliveries := ds } :=
  { h with
    alone := fun next hj => (hd (h.alone next hj)).elim
    delivered := fun ht => (hd (h.delivered ht)).elim }

theorem stageDelivery {d : Delivery} {place : Nat} (h : Wired j s)
    (hd : s.deliveries[place]? = some d) (stage : Stage) :
    Wired j (stageDelivery s place stage) :=
  h.setDeliveries (List.ne_nil_of_mem (List.mem_of_getElem? hd)) _

theorem removeDelivery {place : Nat} (h : Wired j s) (hd : s.deliveries ≠ []) :
    Wired j (removeDelivery s place) :=
  h.setDeliveries hd _

theorem setCancelled (h : Wired j s) {b : Bool} (hb : s.cancelled = true → b = true) :
    Wired j { s with cancelled := b } := by
  have hb' : b = false → s.cancelled = false := by
    rw [← Bool.not_eq_true, ← Bool.not_eq_true]
    exact mt hb
  exact { h with
    report_closed := fun hr => hb (h.report_closed hr)
    drained := fun hc => h.drained (hb' hc)
    aborting := fun ht => hb (h.aborting ht) }

theorem emit (h : Wired j s) (r : DeliveryResult) (hr : s.raw.receiving = true) :
    Wired j (emit s r) :=
  { h with
    drained := fun _ hl => by
      have hr' := h.raw_closed.mpr hl
      rw [hr] at hr'
      cases hr' }

theorem setReconciler {r : Reconciler} (h : Wired j s)
    (hr : r.hasLeft = s.reconciler.hasLeft) : Wired j { s with reconciler := r } :=
  { h with
    raw_closed := by rw [hr]; exact h.raw_closed
    drained := fun hc hl => h.drained hc (hr.symm.trans hl) }

theorem finishReconciling (h : Wired j s)
    (hd : s.cancelled = false → s.transport = .finished) : Wired j (finishReconciling s) :=
  { h with
    raw_closed := by simp [Dispatch.finishReconciling, Channel.close, Reconciler.hasLeft]
    drained := fun hc _ => ⟨hd hc, rfl⟩ }

theorem move (h : Wired j s) (hm : Move j label s l s' l') : Wired j s' := by
  cases hm with
  | exhaust | take | withdraw | offer => exact { h with }
  | acquire hT ht | leave hT ht =>
    apply h.setTransport (by simp [ht]) (by simp)
    simp [TransportTask.Fits, hT]
  | interrupt hT ht hc =>
    apply h.setTransport
    · rcases ht with ht | ht <;> simp [ht]
    · simp
    · simp [TransportTask.Fits, hT]
  | accept hT ht hc hq =>
    have h₁ : Wired j { s with transport := .acquiring } :=
      h.setTransport (by simp [ht]) (by simp) (by simp [TransportTask.Fits, hT])
    exact { h₁ with alone := by simp [hT], delivered := by simp }
  | wind hT ht =>
    apply h.setTransport (by simp [ht]) (by simp)
    simp [TransportTask.Fits, hT]
  | conclude hT ht hd => exact h.finishTransport hd
  | heed hT ht | miss hT ht | lose hT ht =>
    apply h.setTransport (by simp [ht]) (by simp)
    simp [TransportTask.Fits, hT]
  | @fetch _ _ _ seen _ e _ hT ht =>
    have h₁ : Wired j { s with transport := .acting (.received (some e) :: seen) } :=
      h.setTransport (by simp [ht]) (by simp) (by simp [TransportTask.Fits, hT])
    exact { h₁ with }
  | crash hT ht =>
    have h₁ := h.finishTransport (h.alone _ hT)
    exact { h₁ with }
  | @call _ _ _ seen _ outcome hT ht =>
    have h₁ : Wired j { s with transport := .acting (.called outcome :: seen) } :=
      h.setTransport (by simp [ht]) (by simp) (by simp [TransportTask.Fits, hT])
    exact { h₁ with }
  | @send _ _ _ seen r hT ht ha hr =>
    have h₁ : Wired j { s with transport := .acting (.sent true :: seen) } :=
      h.setTransport (by simp [ht]) (by simp) (by simp [TransportTask.Fits, hT])
    exact h₁.emit r hr
  | finish hT => exact h.finishTransport (h.alone _ hT)
  | start hT hd hs => exact { h.stageDelivery hd (.calling _) with }
  | @answer _ _ _ _ place number d hT hd hs =>
    have h₁ : Wired j { s with cancelled := s.cancelled || j.cancels number d.endpoint } :=
      h.setCancelled (by simp +contextual)
    exact h₁.stageDelivery hd _
  | discard hT hd hs hw => exact h.removeDelivery (List.ne_nil_of_mem (List.mem_of_getElem? hd))
  | emit hT hd hs hc hr hq =>
    exact (h.removeDelivery (List.ne_nil_of_mem (List.mem_of_getElem? hd))).emit _ hr
  | abort ht hp => exact h.removeDelivery (List.length_pos_iff.mp (by omega))
  | stop hr hc => exact h.finishReconciling (by simp [hc])
  | collect hr hc hq =>
    exact { h with
      raw_closed := by simpa [Channel.pop, Reconciler.hasLeft, hr] using h.raw_closed
      drained := by simp [Reconciler.hasLeft] }
  | drain hr hc hq ht hd => exact h.finishReconciling (fun _ => ht)
  | @reconcile _ _ r hr =>
    have h₁ := h.setReconciler (r := .reporting (l.reconcile r).1)
      (by simp [hr, Reconciler.hasLeft])
    exact { h₁ with }
  | forsake hr hw =>
    apply h.finishReconciling
    intro hc
    have := h.report_receiving hc
    simp_all
  | report hr hc hr' hq =>
    have h₁ := h.setReconciler (r := .receiving) (by simp [hr, Reconciler.hasLeft])
    exact { h₁ with report_closed := by simp [Channel.push, hr'] }
  | measure hr => exact h.setReconciler (by simp [hr, Reconciler.hasLeft])
  | consume hq => exact { h with }
  | cancel => exact h.setCancelled (by simp)
  | drop => exact { h.setCancelled (b := true) (by simp) with report_closed := fun _ => rfl }

theorem start (j : Job) : Wired j j.start := by
  have hfits : j.transportStart.Fits j.transport := by
    unfold Job.transportStart
    split
    next hT =>
      rw [hT]
      split <;> trivial
    next hT =>
      rw [hT]
      trivial
  have haborting : j.transportStart ≠ .winding true := by
    unfold Job.transportStart
    split
    next => split <;> simp
    next => simp
  by_cases ht : j.transportStart = .finished
  · constructor <;> simp [Job.start, Job.feedStart, Channel.close, ht, TransportTask.Fits,
      Reconciler.hasLeft]
  · constructor <;> simp [Job.start, Job.feedStart, ht, hfits, haborting, Reconciler.hasLeft]

end Wired

namespace Orderly

theorem not_hasLeft_of_offering {e : Endpoint} (h : Orderly j s)
    (hf : s.feeder = .offering e) (hc : s.cancelled = false) : s.transport.hasLeft = false := by
  by_contra hl
  have hd := (h.read hc (by simpa using hl)).1
  rw [hf] at hd
  cases hd

theorem feed_receiving_of_offering {e : Endpoint} (h : Orderly j s)
    (hf : s.feeder = .offering e) (hc : s.cancelled = false) : s.feed.receiving = true := by
  by_contra hr
  have ht := h.feed_closed.mp (by simpa using hr)
  have hl := h.not_hasLeft_of_offering hf hc
  rw [ht] at hl
  cases hl

/-- An endpoint is only ever offered to a transport that still reads. -/
theorem move (hj : j.transport.Routed) (h : Orderly j s) (hm : Move j label s l s' l') :
    Orderly j s' := by
  have hw := h.toWired.move hm
  cases hm with
  | exhaust hf hu =>
    exact { hw with
      offered := fun _ _ => hu
      read := fun hc hl => ⟨rfl, (h.read hc hl).2⟩ }
  | take hf hu =>
    refine { hw with offered := by simp, read := fun hc hl => ?_ }
    have := (h.read hc hl).1
    simp [hf] at this
  | withdraw hf hi =>
    -- The feed closes under an endpoint only when the transport goes, which waits for the feeder.
    refine { hw with offered := fun hc _ => ?_, read := fun hc hl => ⟨rfl, (h.read hc hl).2⟩ }
    have := h.feed_receiving_of_offering hf hc
    simp_all
  | offer hf hc hr hq =>
    refine { hw with offered := by simp, read := fun _ hl => ?_ }
    have := h.not_hasLeft_of_offering hf hc
    simp_all
  | acquire =>
    exact { hw with offered := h.offered, read := by simp [TransportTask.hasLeft] }
  | interrupt _ _ hc =>
    exact { hw with offered := h.offered, read := by simp [hc] }
  | accept =>
    exact { hw with
      offered := h.offered
      read := by simp [acceptEndpoint, TransportTask.hasLeft] }
  | leave _ _ _ hq hf | miss _ _ _ _ hq hf =>
    exact { hw with offered := h.offered, read := fun _ _ => ⟨hf, hq⟩ }
  | wind _ ht =>
    exact { hw with offered := h.offered, read := fun hc _ => h.read hc (by rw [ht]; rfl) }
  | conclude _ ht =>
    exact { hw with
      offered := h.offered
      read := fun hc _ => ⟨(h.read hc (by rw [ht]; rfl)).1, rfl⟩ }
  | heed _ _ _ hc => exact { hw with offered := h.offered, read := by simp [hc] }
  | fetch =>
    exact { hw with
      offered := h.offered
      read := by simp [acceptEndpoint, TransportTask.hasLeft] }
  | crash hT _ ha | call hT _ ha => exact (next_ne_call hj hT ha).elim
  | lose hT ht ha hr =>
    -- The reconciler outlives the transport, so its results have a reader.
    refine { hw with offered := h.offered, read := fun hc _ => ?_ }
    have := h.raw_receiving hc (by simp [ht])
    simp [hr] at this
  | send =>
    exact { hw with offered := h.offered, read := by simp [Dispatch.emit, TransportTask.hasLeft] }
  | finish hT ht ha =>
    have hleft := hasLeft_of_next_eq_finish hj hT ha
    exact { hw with
      offered := h.offered
      read := fun hc _ => ⟨(h.read hc (by rw [ht]; exact hleft)).1, rfl⟩ }
  | answer =>
    refine { hw with offered := fun hc => ?_, read := fun hc => ?_ }
    · exact h.offered (Bool.or_eq_false_iff.mp hc).1
    · exact h.read (Bool.or_eq_false_iff.mp hc).1
  | start | discard | emit | abort | stop | collect | drain | reconcile | forsake | report
  | measure | consume =>
    exact { hw with offered := h.offered, read := h.read }
  | cancel | drop => exact { hw with offered := by simp, read := by simp }

end Orderly

section Start

variable (hj : j.transport.Routed)
include hj

/-- A transport of a registry starts by reading. -/
theorem transportStart_of_routed :
    j.transportStart = .acquiring ∨ j.transportStart = .acting [] := by
  unfold Job.transportStart
  generalize j.transport = t at hj
  cases hj with
  | fanOut send h₀ h₁ => exact .inl (if_pos h₁)
  | rejecting => exact .inr rfl

theorem feedStart_of_routed (c : Channel Endpoint) : j.feedStart c = c := by
  apply if_neg
  intro h
  rcases transportStart_of_routed hj with ht | ht <;> simp [ht] at h

theorem Orderly.start : Orderly j j.start where
  toWired := .start j
  offered := by simp [Job.start]
  read := by
    rcases transportStart_of_routed hj with ht | ht <;>
      simp [Job.start, ht, TransportTask.hasLeft]

theorem Orderly.of_run {labels : List Label} (hrun : Run j (j.start, l) labels (s, l')) :
    Orderly j s :=
  hrun.keeps (P := fun s _ => Orderly j s) (fun hm h => h.move hj hm) (.start hj)

end Start

end Dispatch

end PushDelivery
