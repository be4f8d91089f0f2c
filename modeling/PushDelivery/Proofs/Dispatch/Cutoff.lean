import PushDelivery.Proofs.Dispatch.Backpressure
import PushDelivery.Proofs.Dispatch.Emissions

/-!
# What a cancellation by the sender cuts off

A call of the sender may cancel the dispatch that it belongs to. It competes with everything else
that goes on: the wait for a permit or for an endpoint, calls for other endpoints, crashes, results
that wait for room, and deliveries that are then aborted. In every order of these, what comes out is
part of what comes out without a cancellation, and nothing of an endpoint whose call cancelled.

With a single permit no delivery runs beside another one. Then the results are those of all
endpoints before the first one whose call cancels.
-/

namespace PushDelivery.Dispatch

/-- A fan-out with one permit. Before a cancellation each endpoint that was read has its result
emitted or is the one in delivery; after it, the last one that was read is the one whose call
cancelled. -/
structure Serial (j : Job) (log : List Emission) (s : State) : Prop where
  single : s.permits ≤ 1
  before : s.cancelled = false → s.history.accepted = fedOf log ++ s.delivering ∧
    (s.history.called ++ s.uncalled) = s.history.accepted
  after : s.cancelled = true → ∃ number e, j.cancels number e = true ∧
    s.history.accepted = fedOf log ++ [e] ∧ s.history.called = s.history.accepted ∧
    s.uncalled = []

variable {σ : Type} [SubscriptionStore σ] {j : Job} {label : Label} {s s' s₀ : State}
  {l l' : Ledger σ} {log log' : List Emission} {send : Nat → Sender} {limit place : Nat}
  {d : Delivery}

namespace Serial

theorem start (h : Ready j s) : Serial j [] s := by
  constructor <;> simp [h.history, h.deliveries, h.uncancelled, h.transport, fedOf,
    State.permits, State.delivering, State.uncalled, TransportTask.permits]

theorem deliveries_eq (h : Serial j log s) (hd : s.deliveries[place]? = some d) :
    s.deliveries = [d] ∧ place = 0 :=
  deliveries_eq_of_permits_le h.single hd

theorem setTransport {t : TransportTask} (h : Serial j log s)
    (ht : t.permits ≤ s.transport.permits) : Serial j log { s with transport := t } :=
  { h with single := Nat.le_trans (Nat.add_le_add_left ht _) h.single }

/-- The one call that is running cancels. -/
theorem cancel {number : Nat} (h : Serial j log s) (hds : s.deliveries = [d])
    (hs : d.stage = .calling number) (hcancels : j.cancels number d.endpoint = true)
    (hc : s.cancelled = false) :
    Serial j log { s with cancelled := true } := by
  obtain ⟨haccepted, hcalled⟩ := h.before hc
  have huncalled : s.uncalled = [] := by simp [State.uncalled, hds, hs]
  refine { h with
    before := by simp, after := fun _ => ⟨number, d.endpoint, hcancels, ?_, ?_, huncalled⟩ }
  · simpa [State.delivering, hds] using haccepted
  · simpa [huncalled] using hcalled

/-- The one delivery comes to another stage. -/
theorem setStage {stage : Stage} (h : Serial j log s) (hd : s.deliveries[place]? = some d)
    (hs : d.stage ≠ .queued) (hstage : stage ≠ .queued) :
    Serial j log (stageDelivery s place stage) := by
  obtain ⟨hds, rfl⟩ := h.deliveries_eq hd
  have huncalled : (stageDelivery s 0 stage).uncalled = s.uncalled := by
    simp [State.uncalled, stageDelivery, hds, hs, hstage]
  have hdelivering := delivering_stageDelivery hd stage
  constructor
  case single => simpa [State.permits, stageDelivery] using h.single
  case before =>
    rw [huncalled, hdelivering]
    exact h.before
  case after =>
    rw [huncalled]
    exact h.after

theorem lose (h : Serial j log s) (hd : s.deliveries[place]? = some d)
    (hc : s.cancelled = true) : Serial j log (removeDelivery s place) := by
  obtain ⟨hds, rfl⟩ := h.deliveries_eq hd
  obtain ⟨number, e, hcancels, haccepted, hcalled, -⟩ := h.after hc
  have hnone : (removeDelivery s 0).deliveries = [] := by simp [removeDelivery, hds]
  have hsingle := h.single
  constructor
  case single =>
    rw [State.permits] at hsingle ⊢
    rw [hnone]
    simp only [removeDelivery, List.length_nil]
    omega
  case before => exact fun hc' => by simp [removeDelivery, hc] at hc'
  case after =>
    exact fun _ => ⟨number, e, hcancels, haccepted, hcalled, by rw [State.uncalled, hnone]; rfl⟩

theorem emit {r : DeliveryResult} (h : Serial j log s) (hd : s.deliveries[place]? = some d)
    (hs : d.stage = .reporting r) (hc : s.cancelled = false) :
    Serial j (log ++ [(d.endpoint, r)]) (emit (removeDelivery s place) r) := by
  obtain ⟨hds, rfl⟩ := h.deliveries_eq hd
  obtain ⟨haccepted, hcalled⟩ := h.before hc
  have hnone : (Dispatch.emit (removeDelivery s 0) r).deliveries = [] := by
    simp [Dispatch.emit, removeDelivery, hds]
  have huncalled : s.uncalled = [] := by simp [State.uncalled, hds, hs]
  have hsingle := h.single
  constructor
  case single =>
    rw [State.permits] at hsingle ⊢
    rw [hnone]
    simp only [Dispatch.emit, removeDelivery, List.length_nil]
    omega
  case before =>
    intro _
    rw [State.delivering, State.uncalled, hnone]
    constructor
    · simpa [Dispatch.emit, removeDelivery, fedOf, State.delivering, hds] using haccepted
    · simpa [Dispatch.emit, removeDelivery, huncalled] using hcalled
  case after => exact fun hc' => by simp [Dispatch.emit, removeDelivery, hc] at hc'

theorem move (hT : j.transport = .fanOut send 1) (hstanding : Standing j s) (h : Serial j log s)
    (hm : Move j label s l s' l') (hl : label.isFanOut = true)
    (hkeep : s'.history.emitted = s.history.emitted) : Serial j log s' := by
  cases hm with
  | exhaust | take | withdraw | offer => exact { h with }
  | acquire hT' ht hc hd =>
    rw [hT] at hT'
    cases hT'
    exact { h with single := hd }
  | interrupt | leave | wind => exact h.setTransport (Nat.zero_le _)
  | @accept _ _ _ _ e rest hT' ht hc hq =>
    -- The permit was held by the transport, so there is no delivery.
    have hnone : s.deliveries = [] := by
      have hsingle := h.single
      rw [State.permits, ht, TransportTask.permits] at hsingle
      exact List.length_eq_zero_iff.mp (by omega)
    obtain ⟨haccepted, hcalled⟩ := h.before hc
    rw [State.delivering, hnone] at haccepted
    rw [State.uncalled, hnone] at hcalled
    constructor
    case single => simp [State.permits, hnone, TransportTask.permits]
    case before =>
      intro _
      simp_all [State.delivering, State.uncalled, acceptEndpoint]
    case after => exact fun hc' => by simp [acceptEndpoint, hc] at hc'
  | conclude => exact { h.setTransport (t := .finished) (Nat.zero_le _) with }
  | @start _ _ _ _ place d hT' hd hs =>
    obtain ⟨hds, rfl⟩ := h.deliveries_eq hd
    have huncalled : s.uncalled = [d.endpoint] := by simp [State.uncalled, hds, hs]
    constructor
    case single => simpa [State.permits, stageDelivery] using h.single
    case before =>
      intro hc
      obtain ⟨haccepted, hcalled⟩ := h.before hc
      simp_all [State.delivering, State.uncalled, stageDelivery]
    case after =>
      intro hc
      obtain ⟨_, _, _, _, _, hnone⟩ := h.after hc
      rw [huncalled] at hnone
      cases hnone
  | @answer _ _ _ _ place number d hT' hd hs =>
    obtain ⟨hds, -⟩ := h.deliveries_eq hd
    have h₁ : Serial j log { s with cancelled := s.cancelled || j.cancels number d.endpoint } := by
      -- The call may return after it has cancelled, cancel now, or not cancel at all.
      cases hc : s.cancelled with
      | true => exact { h with before := by simp, after := fun _ => h.after hc }
      | false =>
        cases hcancels : j.cancels number d.endpoint with
        | true => exact h.cancel hds hs hcancels hc
        | false => exact { h with before := fun _ => h.before hc, after := by simp }
    exact h₁.setStage hd (by simp [hs]) (by simp)
  | discard _ hd _ hw => exact h.lose hd (hw.resolve_right (by simp [hstanding.raw_open]))
  | emit => simp [Dispatch.emit, removeDelivery] at hkeep
  | abort ht hp => exact h.lose (List.getElem?_eq_getElem hp) (hstanding.aborting ht)
  | heed hT' | fetch hT' | miss hT' | crash hT' | call hT' | lose hT' | send hT' | finish hT' =>
    rw [hT] at hT'
    cases hT'
  | stop | collect | drain | reconcile | forsake | report | measure | consume | cancel | drop =>
    cases hl

theorem turn (hT : j.transport = .fanOut send 1) (hstanding : Standing j s) (h : Serial j log s)
    (ht : Turn j s log' s') : Serial j (log ++ log') s' := by
  rcases ht.inv hT with ⟨rfl, hkeep, label, hl, hm⟩ | ⟨place, d, r, rfl, hd, hr, hc, -, -, rfl⟩ |
    ⟨rfl, hc, rfl, d, hd, number, hs, hcancels⟩ | ⟨rfl, rfl, -⟩
  · rw [List.append_nil]
    exact h.move hT hstanding hm hl hkeep
  · exact h.emit hd hr hc
  · rw [List.append_nil]
    obtain ⟨place, hplace⟩ := List.mem_iff_getElem?.mp hd
    exact h.cancel (h.deliveries_eq hplace).1 hs hcancels hc
  · rw [List.append_nil]
    exact { h with }

theorem of_turns (hT : j.transport = .fanOut send 1) (hready : Ready j s)
    (hturns : Turns j s log s') : Serial j log s' := by
  induction hturns with
  | refl => exact .start hready
  | tail hturns ht ih => exact ih.turn hT (.of_turns hT hready hturns) ht

end Serial

/-- Two lists that agree up to the first element of a kind in each. -/
theorem eq_of_first {α : Type} {p : α → Bool} {xs ys zs : List α} {a b : α}
    (h : (xs ++ [a]) <+: ys ++ b :: zs) (hxs : ∀ x ∈ xs, p x = false) (ha : p a = true)
    (hys : ∀ y ∈ ys, p y = false) (hb : p b = true) : xs = ys ∧ a = b := by
  induction xs generalizing ys with
  | nil =>
    cases ys with
    | nil => exact ⟨rfl, (List.cons_prefix_cons.mp h).1⟩
    | cons y ys =>
      rw [(List.cons_prefix_cons.mp h).1, hys y List.mem_cons_self] at ha
      cases ha
  | cons x xs ih =>
    rw [List.forall_mem_cons] at hxs
    cases ys with
    | nil =>
      rw [← (List.cons_prefix_cons.mp h).1, hxs.1] at hb
      cases hb
    | cons y ys =>
      rw [List.forall_mem_cons] at hys
      obtain ⟨rfl, hrest⟩ := List.cons_prefix_cons.mp h
      obtain ⟨rfl, hab⟩ := ih hrest hxs.2 hys.2
      exact ⟨rfl, hab⟩

section Rest

variable {cancels : Endpoint → Bool} (hT : j.transport = .fanOut send 1) (hready : Ready j s₀)
  (hturns : Turns j s₀ log s) (hrest : Resting j s)
include hT hready hturns hrest

/-- With one permit a fan-out comes to rest with the results of all endpoints, or of all before one
whose call cancelled. -/
theorem serial_cases :
    (fedOf log = j.endpoints ∧ s.history.called = j.endpoints) ∨
    ∃ number e, j.cancels number e = true ∧ (fedOf log ++ [e]) <+: j.endpoints ∧
      s.history.called = fedOf log ++ [e] := by
  have hs := Standing.of_turns hT hready hturns
  have ha := Accounted.of_turns hT hready hturns
  have h := Serial.of_turns hT hready hturns
  have hnone := hs.deliveries hrest hT
  cases hc : s.cancelled with
  | false =>
    have haccepted := (Completes.fedOf_perm hT Nat.one_pos ⟨⟨s₀, hready, hturns⟩, hrest, hc⟩).1
    obtain ⟨hfed, hcalled⟩ := h.before hc
    rw [haccepted, State.delivering, hnone, List.map_nil, List.append_nil] at hfed
    rw [haccepted, State.uncalled, hnone, List.filter_nil, List.map_nil, List.append_nil] at hcalled
    exact .inl ⟨hfed.symm, hcalled⟩
  | true =>
    obtain ⟨number, e, hcancels, haccepted, hcalled, -⟩ := h.after hc
    refine .inr ⟨number, e, hcancels, ?_, hcalled.trans haccepted⟩
    rw [← haccepted]
    exact ha.accepted

theorem serial_cutoff (hj : j.Stateless) (hscript : ∀ number e, j.cancels number e = cancels e)
    {before after : List Endpoint} {e : Endpoint}
    (hendpoints : j.endpoints = before ++ e :: after) (hbefore : ∀ x ∈ before, cancels x = false)
    (hcancels : cancels e = true) :
    s.history.emitted = before.map j.outcome ∧ s.history.called = before ++ [e] := by
  have ha := Accounted.of_turns hT hready hturns
  have hfedOf : ∀ x ∈ fedOf log, cancels x = false :=
    List.forall_mem_map.mpr (ha.cancels_eq_false hscript)
  rw [ha.emitted_eq hj]
  rcases serial_cases hT hready hturns hrest with
    ⟨hfed, -⟩ | ⟨number, e', hcancels', hinitial, hcalled⟩
  · -- The result of an endpoint whose call cancelled would be among those emitted.
    have he := hfedOf e (by simp [hfed, hendpoints])
    rw [hcancels] at he
    cases he
  · rw [hendpoints] at hinitial
    rw [hscript] at hcancels'
    obtain ⟨hfed, rfl⟩ := eq_of_first hinitial hfedOf hcancels' hbefore hcancels
    rw [hcalled, hfed]
    exact ⟨rfl, rfl⟩

theorem serial_whole (hj : j.Stateless) (hscript : ∀ number e, j.cancels number e = cancels e)
    (hcancels : ∀ e ∈ j.endpoints, cancels e = false) :
    s.history.emitted = j.endpoints.map j.outcome ∧ s.history.called = j.endpoints := by
  rw [(Accounted.of_turns hT hready hturns).emitted_eq hj]
  rcases serial_cases hT hready hturns hrest with ⟨hfed, hcalled⟩ | ⟨number, e, he, hinitial, -⟩
  · rw [hfed, hcalled]
    exact ⟨rfl, rfl⟩
  · rw [hscript, hcancels e (hinitial.subset (by simp))] at he
    cases he

end Rest

/-- A fan-out whose sender may cancel, in any interleaving with its feeder and a reader of all its
results. Each result that it has emitted is for an endpoint of its own, whose call has not
cancelled, and is the one that this endpoint has in every run without a cancellation. Nothing is
read or emitted after a cancellation. The fan-out always comes to rest. With one permit it has then
emitted, in their order, the results of the endpoints before the first one whose call cancels, and
has called the sender for these and for that one; without such an endpoint, for all. -/
theorem cancels_cleanly {send : Sender} {limit : UInt64} {cancels : Endpoint → Bool}
    (hj : j.transport = .ofLimit send limit)
    (hscript : ∀ number e, j.cancels number e = cancels e)
    (hlimit : limit.toNat ≤ Transport.maxPermits) (hready : Ready j s₀)
    (hturns : Turns j s₀ log s) :
    s.history.emitted = log.map Prod.snd ∧
    (log.map Prod.fst).Subperm j.endpoints ∧
    (∀ x ∈ log, cancels x.1 = false) ∧
    (∃ log' s', Completes { j with cancels := fun _ _ => false } log' s') ∧
    (∀ log' s', Completes { j with cancels := fun _ _ => false } log' s' → log.Subperm log') ∧
    (s.cancelled = true → ∀ log' s', Turns j s log' s' →
      log' = [] ∧ s'.history.accepted = s.history.accepted ∧
        s'.history.emitted = s.history.emitted) ∧
    Settles j s ∧
    (limit.toNat ≤ 1 → Resting j s →
      (∀ before e after, j.endpoints = before ++ e :: after →
        (∀ x ∈ before, cancels x = false) → cancels e = true →
        s.history.emitted = before.map j.outcome ∧ s.history.called = before ++ [e]) ∧
      ((∀ e ∈ j.endpoints, cancels e = false) →
        s.history.emitted = j.endpoints.map j.outcome ∧ s.history.called = j.endpoints)) := by
  have hrouted := routed_of_eq_ofCalls hj hlimit
  have hstateless : j.Stateless := .of_transport (hj ▸ .fanOut send _)
  have hT : j.transport = .fanOut (fun _ => send) (max 1 limit.toNat) := hj
  have hpos : 0 < max 1 limit.toNat := by omega
  have ha := Accounted.of_turns hT hready hturns
  let j' : Job := { j with cancels := fun _ _ => false }
  have hT' : j'.transport = .fanOut (fun _ => send) (max 1 limit.toNat) := hT
  have hready' : Ready j' s₀ := { hready with }
  refine ⟨ha.emitted, ha.fedOf_subperm, ha.cancels_eq_false hscript,
    hready'.exists_completes hrouted hT' fun _ _ => rfl, fun log' s' h => ?_,
    fun hc log' s' h => ?_, hready.settles hrouted hT hpos hturns, fun hone hrest => ?_⟩
  · exact (ha.subperm hstateless).trans (h.perm hT' hpos hstateless).symm.subperm
  · obtain ⟨hlog, -, haccepted, hemitted⟩ := h.silent hT hc
    exact ⟨hlog, haccepted, hemitted⟩
  · rw [Nat.max_eq_left hone] at hT
    exact ⟨fun before e after => serial_cutoff hT hready hturns hrest hstateless hscript,
      serial_whole hT hready hturns hrest hstateless hscript⟩

/-- The call for the second of three endpoints cancels. -/
theorem cancels_cleanly_at_second :
    let p : Provider := ⟨1, 1, "main", "gcm", ∅⟩
    let a : Endpoint := ⟨1, "gcm", "a", none, ∅⟩
    let b : Endpoint := ⟨1, "gcm", "b", none, ∅⟩
    let c : Endpoint := ⟨1, "gcm", "c", none, ∅⟩
    let j : Job := ⟨p, {}, [a, b, c], .ofLimit .idle 1, fun _ e => e.deviceKey = "b", ⟨0⟩⟩
    ∃ log s, Turns j j.start log s ∧ Resting j s ∧ s.history.emitted = [⟨p, a, none, none⟩] ∧
      s.history.called = [a, b] := by
  intro p a b c j
  have hlimit : (1 : UInt64).toNat ≤ Transport.maxPermits := by decide
  have hrouted : j.transport.Routed := routed_of_eq_ofCalls rfl hlimit
  obtain ⟨log, s, hturns, hrest⟩ := Turns.exists_resting hrouted rfl j.start
  have h := cancels_cleanly rfl (fun _ _ => rfl) hlimit (.start hrouted rfl) hturns
  obtain ⟨hemitted, hcalled⟩ := (h.2.2.2.2.2.2.2 (by decide) hrest).1 [a] b [c] rfl
    (by simp [a]) (by simp [b])
  exact ⟨log, s, hturns, hrest, hemitted, hcalled⟩

end PushDelivery.Dispatch
