import Mathlib.Data.List.Perm.Subperm
import PushDelivery.Proofs.Dispatch.FanOut

/-!
# What a fan-out emits

Whatever turns a fan-out takes, every result that it has emitted is what a call for its endpoint
left behind that did not cancel, and belongs to an endpoint of its own that was read. As long as
nothing is cancelled every endpoint that was read has its result emitted or is in a delivery;
afterwards deliveries may be lost, but nothing more is read or emitted.

If calls make no difference, every result is the one that its endpoint has by itself.
-/

namespace PushDelivery.Dispatch

def fedOf (log : List Emission) : List Endpoint := log.map Prod.fst

def State.delivering (s : State) : List Endpoint := s.deliveries.map Delivery.endpoint

/-- What is known of the endpoints that were read and of the results that were emitted. -/
structure Accounted (j : Job) (log : List Emission) (s : State) : Prop where
  emitted : s.history.emitted = log.map Prod.snd
  answered : ∀ x ∈ log, ∃ number, x.2 = j.answer number x.1 ∧ j.cancels number x.1 = false
  staged : ∀ d ∈ s.deliveries, ∀ r, d.stage = .reporting r → ∃ number,
    r = j.answer number d.endpoint ∧ (s.cancelled = false → j.cancels number d.endpoint = false)
  accepted : s.history.accepted <+: j.endpoints
  placed : (fedOf log ++ s.delivering).Subperm s.history.accepted
  kept : s.cancelled = false → (fedOf log ++ s.delivering).Perm s.history.accepted
  unread : s.cancelled = false →
    s.history.accepted ++ s.feed.queue ++ s.feeder.held ++ s.unfed = j.endpoints

variable {σ : Type} [SubscriptionStore σ] {j : Job} {label : Label} {s s' : State}
  {l l' : Ledger σ} {log log' : List Emission} {send : Nat → Sender} {limit place : Nat}
  {d : Delivery} {stage : Stage}

theorem delivering_stageDelivery (hd : s.deliveries[place]? = some d) (stage : Stage) :
    (stageDelivery s place stage).delivering = s.delivering := by
  obtain ⟨before, after, hds, hmodify, -⟩ := exists_eq_append_of_getElem? hd
  rw [State.delivering, State.delivering, stageDelivery, hmodify, hds]
  simp

theorem mem_stageDelivery (hd : s.deliveries[place]? = some d) {x : Delivery}
    (hx : x ∈ (stageDelivery s place stage).deliveries) :
    x ∈ s.deliveries ∨ x = { d with stage } := by
  obtain ⟨before, after, hds, hmodify, -⟩ := exists_eq_append_of_getElem? hd
  rw [stageDelivery, hmodify] at hx
  rw [hds]
  rcases List.mem_append.mp hx with hx | hx
  · exact .inl (List.mem_append_left _ hx)
  rcases List.mem_cons.mp hx with rfl | hx
  · exact .inr rfl
  · exact .inl (List.mem_append_right _ (List.mem_cons_of_mem _ hx))

theorem perm_delivering_removeDelivery (hd : s.deliveries[place]? = some d) :
    (d.endpoint :: (removeDelivery s place).delivering).Perm s.delivering := by
  obtain ⟨before, after, hds, -, herase⟩ := exists_eq_append_of_getElem? hd
  rw [State.delivering, State.delivering, removeDelivery, herase, hds, List.map_append,
    List.map_append, List.map_cons]
  exact List.perm_middle.symm

namespace Accounted

theorem start (h : Ready j s) : Accounted j [] s := by
  constructor <;>
    simp [h.history, h.deliveries, h.uncancelled, fedOf, State.delivering, h.endpoints]

theorem setStage (h : Accounted j log s) (hd : s.deliveries[place]? = some d) (stage : Stage)
    (hstage : ∀ r, stage = .reporting r → ∃ number, r = j.answer number d.endpoint ∧
      (s.cancelled = false → j.cancels number d.endpoint = false)) :
    Accounted j log (stageDelivery s place stage) :=
  { h with
    staged := fun x hx r hr => by
      rcases mem_stageDelivery hd hx with hx | rfl
      · exact h.staged x hx r hr
      · exact hstage r hr
    placed := by
      rw [delivering_stageDelivery hd]
      exact h.placed
    kept := by
      rw [delivering_stageDelivery hd]
      exact h.kept }

theorem setCancelled (h : Accounted j log s) {b : Bool} (hb : s.cancelled = true → b = true) :
    Accounted j log { s with cancelled := b } := by
  have hb' : b = false → s.cancelled = false := eq_false_of_imp hb
  exact { h with
    staged := fun d hd r hr => by
      obtain ⟨number, hanswer, hcancels⟩ := h.staged d hd r hr
      exact ⟨number, hanswer, fun hc => hcancels (hb' hc)⟩
    kept := fun hc => h.kept (hb' hc)
    unread := fun hc => h.unread (hb' hc) }

/-- After a cancellation a delivery can be lost. -/
theorem lose (h : Accounted j log s) (hd : s.deliveries[place]? = some d)
    (hc : s.cancelled = true) : Accounted j log (removeDelivery s place) :=
  { h with
    staged := fun x hx => h.staged x (List.mem_of_mem_eraseIdx hx)
    placed := by
      have hsub : (removeDelivery s place).delivering.Subperm s.delivering :=
        (List.Subperm.cons_self).trans (perm_delivering_removeDelivery hd).subperm
      exact ((List.subperm_append_left _).mpr hsub).trans h.placed
    kept := fun hc' => by simp [removeDelivery, hc] at hc'
    unread := fun hc' => by simp [removeDelivery, hc] at hc' }

theorem emit {r : DeliveryResult} (h : Accounted j log s) (hd : s.deliveries[place]? = some d)
    (hs : d.stage = .reporting r) (hc : s.cancelled = false) :
    Accounted j (log ++ [(d.endpoint, r)]) (emit (removeDelivery s place) r) := by
  obtain ⟨number, hr, hcancels⟩ := h.staged d (List.mem_of_getElem? hd) r hs
  -- The endpoint goes from the middle of the deliveries to the end of the log.
  have hperm : (fedOf (log ++ [(d.endpoint, r)]) ++ (removeDelivery s place).delivering).Perm
      (fedOf log ++ s.delivering) := by
    rw [fedOf, List.map_append, List.map_singleton, List.append_assoc, List.singleton_append]
    exact (perm_delivering_removeDelivery hd).append_left _
  constructor
  case emitted => simp [Dispatch.emit, removeDelivery, h.emitted]
  case answered =>
    rw [List.forall_mem_append, List.forall_mem_singleton]
    exact ⟨h.answered, number, hr, hcancels hc⟩
  case staged => exact fun x hx => h.staged x (List.mem_of_mem_eraseIdx hx)
  case accepted => exact h.accepted
  case placed => exact hperm.subperm.trans h.placed
  case kept => exact fun hc => hperm.trans (h.kept hc)
  case unread => exact h.unread

theorem move (hT : j.transport = .fanOut send limit) (hs : Standing j s)
    (h : Accounted j log s) (hm : Move j label s l s' l') (hl : label.isFanOut = true)
    (hkeep : s'.history.emitted = s.history.emitted) : Accounted j log s' := by
  cases hm with
  | exhaust hf hu => exact { h with unread := by simpa [hf, Feeder.held] using h.unread }
  | take hf hu => exact { h with unread := by simpa [hf, hu, Feeder.held] using h.unread }
  | withdraw hf hw =>
    have hc := hs.cancelled_of_withdraw hf hw
    exact { h with unread := by simp [hc] }
  | offer hf =>
    exact { h with unread := by simpa [hf, Feeder.held, Channel.push] using h.unread }
  | acquire | interrupt | leave | wind => exact { h with }
  | @accept _ _ _ _ e rest _ _ hc hq =>
    have hunread : s.history.accepted ++ [e] ++ rest ++ s.feeder.held ++ s.unfed = j.endpoints := by
      simpa [hq] using h.unread hc
    have hperm : (fedOf log ++ List.map Delivery.endpoint
        (s.deliveries ++ [({ endpoint := e } : Delivery)])).Perm (s.history.accepted ++ [e]) := by
      rw [List.map_append, List.map_singleton, ← List.append_assoc]
      exact (h.kept hc).append_right [e]
    exact { h with
      staged := fun d hd r hr => by
        rcases List.mem_append.mp hd with hd | hd
        · exact h.staged d hd r hr
        · rw [List.mem_singleton.mp hd] at hr
          cases hr
      accepted := by
        refine ⟨rest ++ s.feeder.held ++ s.unfed, ?_⟩
        simpa [acceptEndpoint] using hunread
      placed := hperm.subperm
      kept := fun _ => hperm
      unread := fun _ => by simpa [acceptEndpoint, Channel.pop, hq] using hunread }
  | conclude _ ht hd =>
    exact { h with
      unread := fun hc => by
        have hq := (hs.read hc (by rw [ht]; rfl)).2
        simpa [finishTransport, Channel.close, hq] using h.unread hc }
  | start _ hd => exact { h.setStage hd (.calling _) (by simp) with }
  | @answer _ _ _ _ place number d hT' hd =>
    have h₁ : Accounted j log
        { s with cancelled := s.cancelled || j.cancels number d.endpoint } :=
      h.setCancelled (by simp +contextual)
    refine h₁.setStage hd _ fun r hr => ⟨number, ?_, fun hc => (Bool.or_eq_false_iff.mp hc).2⟩
    cases hr
    rw [j.answer_of_fanOut hT']
  | discard _ hd _ hw => exact h.lose hd (hw.resolve_right (by simp [hs.raw_open]))
  | emit => simp [Dispatch.emit, removeDelivery] at hkeep
  | abort ht hp => exact h.lose (List.getElem?_eq_getElem hp) (hs.aborting ht)
  | heed hT' | fetch hT' | miss hT' | crash hT' | call hT' | lose hT' | send hT' | finish hT' =>
    rw [hT] at hT'
    cases hT'
  | stop | collect | drain | reconcile | forsake | report | measure | consume | cancel | drop =>
    cases hl

theorem turn (hT : j.transport = .fanOut send limit) (hs : Standing j s)
    (h : Accounted j log s) (ht : Turn j s log' s') : Accounted j (log ++ log') s' := by
  rcases ht.inv hT with ⟨rfl, hkeep, label, hl, hm⟩ | ⟨place, d, r, rfl, hd, hr, hc, -, -, rfl⟩ |
    ⟨rfl, -, rfl, -⟩ | ⟨rfl, rfl, -⟩
  · rw [List.append_nil]
    exact h.move hT hs hm hl hkeep
  · exact h.emit hd hr hc
  · rw [List.append_nil]
    exact h.setCancelled (by simp)
  · rw [List.append_nil]
    exact { h with }

theorem of_turns (hT : j.transport = .fanOut send limit) (hready : Ready j s)
    (hturns : Turns j s log s') : Accounted j log s' := by
  induction hturns with
  | refl => exact .start hready
  | tail hturns ht ih => exact ih.turn hT (.of_turns hT hready hturns) ht

/-- If calls make no difference, each result is the one of its endpoint by itself. -/
theorem faithful (h : Accounted j log s) (hj : j.Stateless) : ∀ x ∈ log, x.2 = j.outcome x.1 := by
  intro x hx
  obtain ⟨number, hanswer, -⟩ := h.answered x hx
  exact hanswer.trans (hj number x.1)

/-- What was emitted, from its endpoints. -/
theorem eq_map (h : Accounted j log s) (hj : j.Stateless) :
    log = (fedOf log).map fun e => (e, j.outcome e) := by
  rw [fedOf, List.map_map]
  refine (List.map_id log).symm.trans (List.map_congr_left fun x hx => ?_)
  exact Prod.ext rfl (h.faithful hj x hx)

theorem emitted_eq (h : Accounted j log s) (hj : j.Stateless) :
    s.history.emitted = (fedOf log).map j.outcome := by
  rw [h.emitted, fedOf, List.map_map]
  exact List.map_congr_left (h.faithful hj)

theorem cancels_eq_false {cancels : Endpoint → Bool} (h : Accounted j log s)
    (hcancels : ∀ number e, j.cancels number e = cancels e) :
    ∀ x ∈ log, cancels x.1 = false := by
  intro x hx
  obtain ⟨number, -, hx⟩ := h.answered x hx
  rwa [hcancels] at hx

theorem fedOf_subperm (h : Accounted j log s) : (fedOf log).Subperm j.endpoints :=
  (List.sublist_append_left _ _).subperm.trans (h.placed.trans h.accepted.sublist.subperm)

theorem subperm (h : Accounted j log s) (hj : j.Stateless) :
    log.Subperm (j.endpoints.map fun e => (e, j.outcome e)) := by
  rw [h.eq_map hj]
  exact List.Subperm.map (fun _ _ he => (Prod.mk.inj he).1) h.fedOf_subperm

end Accounted

/-- A fan-out that has come to rest without a cancellation has read every endpoint, and emitted one
result for each. -/
theorem Completes.fedOf_perm (hT : j.transport = .fanOut send limit) (hlimit : 0 < limit)
    (h : Completes j log s) : s.history.accepted = j.endpoints ∧ (fedOf log).Perm j.endpoints := by
  obtain ⟨s₀, hready, hturns⟩ := h.turns
  have hs := Standing.of_turns hT hready hturns
  have ha := Accounted.of_turns hT hready hturns
  have ht := hs.transport h.resting hT hlimit
  obtain ⟨hf, hq⟩ := hs.read h.uncancelled (by rw [ht]; rfl)
  have haccepted : s.history.accepted = j.endpoints := by
    simpa [hf, hq, hs.offered h.uncancelled hf, Feeder.held] using ha.unread h.uncancelled
  have hperm : (fedOf log).Perm j.endpoints := by
    simpa [State.delivering, hs.delivered ht, haccepted] using ha.kept h.uncancelled
  exact ⟨haccepted, hperm⟩

/-- If calls make no difference, that is the result that each endpoint has by itself. -/
theorem Completes.perm (hT : j.transport = .fanOut send limit) (hlimit : 0 < limit)
    (hj : j.Stateless) (h : Completes j log s) :
    log.Perm (j.endpoints.map fun e => (e, j.outcome e)) := by
  obtain ⟨s₀, hready, hturns⟩ := h.turns
  rw [(Accounted.of_turns hT hready hturns).eq_map hj]
  exact (h.fedOf_perm hT hlimit).2.map _

theorem Move.accepted_of_cancelled (hT : j.transport = .fanOut send limit)
    (hm : Move j label s l s' l') (hc : s.cancelled = true) :
    s'.history.accepted = s.history.accepted := by
  cases hm with
  | accept _ _ hc' =>
    rw [hc] at hc'
    cases hc'
  | fetch hT' =>
    rw [hT] at hT'
    cases hT'
  | _ => rfl

/-- Once something is cancelled nothing more is read or emitted. -/
theorem Turn.silent (hT : j.transport = .fanOut send limit) (hc : s.cancelled = true)
    (h : Turn j s log s') : log = [] ∧ s'.cancelled = true ∧
      s'.history.accepted = s.history.accepted ∧ s'.history.emitted = s.history.emitted := by
  rcases h.inv hT with ⟨rfl, hkeep, label, hl, hm⟩ | ⟨_, _, _, _, _, _, hc', _⟩ | ⟨_, hc', _⟩ |
    ⟨rfl, rfl, -⟩
  · refine ⟨rfl, ?_, hm.accepted_of_cancelled hT hc, hkeep⟩
    by_contra hn
    rw [hm.cancelled_eq_false (by simpa using hn)] at hc
    cases hc
  · rw [hc] at hc'
    cases hc'
  · rw [hc] at hc'
    cases hc'
  · exact ⟨rfl, hc, rfl, rfl⟩

theorem Turns.silent (hT : j.transport = .fanOut send limit) (hc : s.cancelled = true)
    (h : Turns j s log s') : log = [] ∧ s'.cancelled = true ∧
      s'.history.accepted = s.history.accepted ∧ s'.history.emitted = s.history.emitted := by
  induction h with
  | refl => exact ⟨rfl, hc, rfl, rfl⟩
  | tail _ ht ih =>
    obtain ⟨rfl, hc', haccepted, hemitted⟩ := ih
    obtain ⟨rfl, hc'', haccepted', hemitted'⟩ := ht.silent hT hc'
    exact ⟨rfl, hc'', haccepted'.trans haccepted, hemitted'.trans hemitted⟩

end PushDelivery.Dispatch
