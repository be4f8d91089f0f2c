import PushDelivery.Proofs.Dispatch.Backpressure
import PushDelivery.Proofs.Dispatch.Emissions
import PushDelivery.Proofs.Dispatch.Transparency

/-!
# Transports that keep the order

A transport keeps the order if it reads all that it is fed and emits one result for each endpoint,
in the order in which it reads them. A fan-out with one permit does so because it reads no endpoint
while a delivery lives; of a sequential transport its conduct says whether it does. In a dispatch
that nobody cancels the results of such a transport come out one for each of the caller's endpoints,
in the caller's order, whatever else goes on.
-/

namespace PushDelivery

open Dispatch

/-- The transport keeps the order when it serves a provider. `Gives` says which result an endpoint
may be given, by whichever call it gets. -/
inductive Transport.InOrder (p : Provider)
    (Gives : Notification → Endpoint → DeliveryResult → Prop) : Transport → Prop
  | single {send : Nat → Sender} :
      (∀ number n e, Gives n e ((send number p n e).result p e)) →
      InOrder p Gives (.fanOut send 1)
  | sequential {next : Provider → Notification → List Observation → Action} :
      (∀ n endpoints, ∃ steps emits,
        conduct (next p n) steps [] endpoints = some (endpoints, emits) ∧
          List.Forall₂ (Gives n) endpoints emits) →
      InOrder p Gives (.sequential next)

/-- Rejection reads an endpoint and emits its result, and does the same about the next one. -/
theorem conduct_rejecting {next : Provider → Notification → List Observation → Action}
    (hnext : Transport.rejecting = .sequential next) (p : Provider) (n : Notification)
    (endpoints : List Endpoint) {seen : List Observation}
    (hseen : next p n seen = .receive true) :
    conduct (next p n) (2 * endpoints.length + 2) seen endpoints =
      some (endpoints, endpoints.map (Transport.rejection p)) := by
  cases hnext
  induction endpoints generalizing seen with
  | nil => simp [conduct, hseen]
  | cons e endpoints ih =>
    have hrest := @ih (.sent true :: .received (some e) :: seen) rfl
    have hsteps : 2 * (e :: endpoints).length + 2 = 2 * endpoints.length + 2 + 1 + 1 := by
      simp only [List.length_cons]
      omega
    rw [hsteps]
    generalize 2 * endpoints.length + 2 = steps at hrest ⊢
    simp [conduct, hseen, hrest]

namespace Transport.InOrder

variable {p : Provider} {Gives : Notification → Endpoint → DeliveryResult → Prop}

theorem ofCalls {send : Nat → Sender} {limit : UInt64} (hlimit : limit.toNat ≤ 1)
    (h : ∀ number n e, Gives n e ((send number p n e).result p e)) :
    (Transport.ofCalls send limit).InOrder p Gives := by
  rw [Transport.ofCalls, Nat.max_eq_left hlimit]
  exact .single h

theorem rejecting (h : ∀ n e, Gives n e (rejection p e)) :
    Transport.rejecting.InOrder p Gives := by
  refine .sequential fun n endpoints => ⟨2 * endpoints.length + 2, _,
    conduct_rejecting rfl p n endpoints rfl, ?_⟩
  rw [List.forall₂_map_right_iff]
  exact List.forall₂_same.mpr fun e _ => h n e

end Transport.InOrder

namespace Dispatch

/-- The endpoints before the one in delivery have their results emitted, in their order; the result
of that one is pending, if its sender has been called. -/
structure Queued (Gives : Endpoint → DeliveryResult → Prop) (s : State) : Prop where
  emitted : ∃ done, s.history.accepted = done ++ s.delivering ∧
    List.Forall₂ Gives done s.history.emitted
  staged : ∀ d ∈ s.deliveries, ∀ r, d.stage = .reporting r → Gives d.endpoint r

/-- What is kept of a dispatch whose transport keeps the order, as long as nobody cancels. -/
inductive Ordered (Gives : Endpoint → DeliveryResult → Prop)
    (R : DeliveryResult → DeliveryResult → Prop) (j : Job) (s : State) : Prop
  | single {send : Nat → Sender} : j.transport = .fanOut send 1 →
      (∀ number e, Gives e (j.answer number e)) → Sound R j s → Bounded 1 s → Queued Gives s →
      Ordered Gives R j s
  | sequential {next : Provider → Notification → List Observation → Action} {n : Nat}
      {reads : List Endpoint} {emits : List DeliveryResult} :
      j.transport = .sequential next → Wired j s → Feeding j s → Reporting R s →
      Ahead j next n reads emits s → List.Forall₂ Gives j.endpoints (s.history.emitted ++ emits) →
      Ordered Gives R j s

variable {σ : Type} [SubscriptionStore σ] {Gives : Endpoint → DeliveryResult → Prop}
  {R : DeliveryResult → DeliveryResult → Prop} {j : Job} {label : Label} {s s' : State}
  {l l' : Ledger σ} {send : Nat → Sender} {place : Nat} {d : Delivery} {stage : Stage}

theorem forall₂_comp {α β γ : Type} {A : α → β → Prop} {B : β → γ → Prop} {as : List α}
    {bs : List β} {cs : List γ} (h : List.Forall₂ A as bs) (h' : List.Forall₂ B bs cs) :
    List.Forall₂ (fun a c => ∃ b, A a b ∧ B b c) as cs := by
  induction h generalizing cs with
  | nil =>
    cases h'
    exact .nil
  | cons ha _ ih =>
    cases h' with
    | cons hb h' => exact .cons ⟨_, ha, hb⟩ (ih h')

theorem routed_of_single (hT : j.transport = .fanOut send 1) : j.transport.Routed :=
  hT ▸ .fanOut send Nat.one_pos (by decide)

namespace Queued

theorem setStage (h : Queued Gives s) (hd : s.deliveries[place]? = some d)
    (hstage : ∀ r, stage = .reporting r → Gives d.endpoint r) :
    Queued Gives (stageDelivery s place stage) where
  emitted := by
    rw [delivering_stageDelivery hd]
    exact h.emitted
  staged x hx r hr := by
    rcases mem_stageDelivery hd hx with hx | rfl
    · exact h.staged x hx r hr
    · exact hstage r hr

/-- With one permit each result is emitted behind those of all endpoints that were read before. -/
theorem move (h : Queued Gives s) (hT : j.transport = .fanOut send 1)
    (hgives : ∀ number e, Gives e (j.answer number e)) (ho : Orderly j s) (hb : Bounded 1 s)
    (hm : Move j label s l s' l') (hc' : s'.cancelled = false) : Queued Gives s' := by
  have hc := hm.cancelled_eq_false hc'
  cases hm with
  | @accept _ _ _ _ e =>
    obtain ⟨done, haccepted, hdone⟩ := h.emitted
    refine ⟨⟨done, ?_, hdone⟩, fun x hx r hr => ?_⟩
    · simp [acceptEndpoint, State.delivering, haccepted]
    · rcases List.mem_append.mp hx with hx | hx
      · exact h.staged x hx r hr
      · rw [List.mem_singleton.mp hx] at hr
        cases hr
  | start _ hd =>
    have hcalling : Queued Gives (stageDelivery s _ (.calling s.history.called.length)) :=
      h.setStage hd (by simp)
    exact { hcalling with }
  | @answer _ _ _ _ _ number d hT' hd =>
    have h₁ : Queued Gives { s with cancelled := s.cancelled || j.cancels number d.endpoint } :=
      { h with }
    refine h₁.setStage hd fun r hr => ?_
    cases hr
    rw [← j.answer_of_fanOut hT']
    exact hgives number d.endpoint
  | discard _ hd _ hw =>
    have := ho.raw_receiving hc (ho.transport_ne_finished hd)
    simp_all
  | @emit _ _ _ _ place d r _ hd hs =>
    -- The only delivery is that of the endpoint that was read last.
    obtain ⟨hds, rfl⟩ := deliveries_eq_of_permits_le hb.permits hd
    obtain ⟨done, haccepted, hdone⟩ := h.emitted
    have hr := h.staged d (by simp [hds]) r hs
    rw [State.delivering, hds] at haccepted
    refine ⟨⟨done ++ [d.endpoint], ?_, List.rel_append hdone (.cons hr .nil)⟩, ?_⟩
    · simp [Dispatch.emit, removeDelivery, State.delivering, hds, haccepted]
    · simp [Dispatch.emit, removeDelivery, hds]
  | abort ht =>
    have := ho.aborting ht
    simp [hc] at this
  | heed hT' | fetch hT' | miss hT' | crash hT' | call hT' | lose hT' | send hT' | finish hT' =>
    rw [hT] at hT'
    cases hT'
  | _ => exact { h with }

end Queued

namespace Ordered

theorem start {Gives : Notification → Endpoint → DeliveryResult → Prop}
    (R : DeliveryResult → DeliveryResult → Prop) (h : j.transport.InOrder j.provider Gives) :
    Ordered (Gives j.notification) R j j.start := by
  generalize hT : j.transport = t at h
  cases h with
  | single hgives =>
    have hrouted := routed_of_single hT
    refine .single hT (fun number e => ?_) (.start R hrouted) (.start hrouted 1)
      ⟨⟨[], rfl, .nil⟩, List.forall_mem_nil _⟩
    rw [j.answer_of_fanOut hT]
    exact hgives number j.notification e
  | sequential hconducts =>
    obtain ⟨steps, emits, hconduct, hgives⟩ := hconducts j.notification j.endpoints
    exact .sequential hT (.start j) (.start j) (.start R j) (.start hT hconduct) hgives

theorem move (h : Ordered Gives R j s) (hl : l.Answers R) (hm : Move j label s l s' l')
    (hc' : s'.cancelled = false) : Ordered Gives R j s' := by
  have hc := hm.cancelled_eq_false hc'
  cases h with
  | single hT hgives hs hb hqueued =>
    have hrouted := routed_of_single hT
    exact .single hT hgives (hs.move hrouted hl hm) (hb.move hT hm)
      (hqueued.move hT hgives hs.orderly hb hm hc')
  | sequential hT hw hf hr ha hgives =>
    obtain ⟨n', reads', emits', ha', -, -, hemitted⟩ := ha.move hT hc hw hf hm
    exact .sequential hT (hw.move hm) (hf.move hw hc hm) (hr.move hm hl.reconcile hc') ha'
      (hemitted ▸ hgives)

/-- When the stream has ended, each endpoint of the caller has its result, in the caller's order. -/
theorem settled (h : Ordered Gives R j s) (hc : s.cancelled = false) (he : s.ended = true) :
    List.Forall₂ (fun e r => ∃ raw, Gives e raw ∧ R raw r) j.endpoints s.history.taken := by
  obtain ⟨-, hleft⟩ := hasLeft_of_ended he
  cases h with
  | single hT hgives hs hb hqueued =>
    obtain ⟨ht, -⟩ := hs.orderly.drained hc hleft
    have hnone : s.delivering = [] := by rw [State.delivering, hs.orderly.delivered ht]; rfl
    have hsettled := hs.settled hc he
    have hreconciled := ((hs.reporting hc).of_ended hs.orderly.toWired hc he).1
    obtain ⟨done, haccepted, hdone⟩ := hqueued.emitted
    rw [hnone, List.append_nil, hsettled.accepted] at haccepted
    subst haccepted
    exact forall₂_comp hdone (hreconciled ▸ hsettled.taken)
  | sequential hT hw hf hr ha hgives =>
    obtain ⟨ht, -⟩ := hw.drained hc hleft
    obtain ⟨-, rfl⟩ := ha.eq_nil_of_finished ht
    obtain ⟨hreconciled, hanswered⟩ := hr.of_ended hw hc he
    have hanswers := hr.answers
    rw [hreconciled, hanswered] at hanswers
    rw [List.append_nil] at hgives
    exact forall₂_comp hgives hanswers

end Ordered

end Dispatch

end PushDelivery
