import Mathlib.Data.List.Perm.Subperm
import PushDelivery.Proofs.Dispatch.ExactlyOnce

/-!
# What the sender's calls leave behind

The transports of a registry are fan-outs of any limit, and types that it does not serve are
rejected. A fan-out with a limit beyond the permits that exist fails before it reads anything, and
rejection calls no sender. In all three cases the raw results of a dispatch that nobody cancels are
those of its sender's calls, one for each, and those of the endpoints that it rejects.
-/

namespace PushDelivery.Dispatch

/-- The transport could not start. Nothing is called and nothing comes out. -/
structure Failed (R : DeliveryResult → DeliveryResult → Prop) (j : Job) (s : State) : Prop
    extends Wired j s where
  reporting : Reporting R s
  finished : s.transport = .finished
  emitted : s.history.emitted = []
  called : s.history.called = []

/-- What is known of a dispatch that nobody cancels, for each transport that a registry of fan-outs
leads to. -/
inductive Attended (R : DeliveryResult → DeliveryResult → Prop) (j : Job) (s : State) : Prop
  | sending {send : Nat → Sender} {limit : UInt64} : j.transport = .ofCalls send limit →
      limit.toNat ≤ Transport.maxPermits → Sound R j s → Attended R j s
  | failed {send : Nat → Sender} {limit : UInt64} : j.transport = .ofCalls send limit →
      Transport.maxPermits < limit.toNat → Failed R j s → Attended R j s
  | rejecting : j.transport = .rejecting → Sound R j s → s.history.called = [] → Attended R j s

/-- The raw results that no call left behind. -/
def State.rejections (j : Job) (s : State) : List DeliveryResult :=
  match j.transport with
  | .fanOut .. => []
  | .sequential _ => s.history.reconciled

/-- What a dispatch has done when its stream has ended. -/
structure Served (R : DeliveryResult → DeliveryResult → Prop) (j : Job) (s : State) : Prop where
  reconciled : s.history.reconciled.Perm
    (s.history.called.zipIdx.map (fun x => j.answer x.2 x.1) ++ s.rejections j)
  rejections : ∀ r ∈ s.rejections j, ∃ e, r = Transport.rejection j.provider e
  called : s.history.called.Subperm j.endpoints
  calls : s.history.called ≠ [] → ∃ send limit, j.transport = .ofCalls send limit
  complete : ∀ send limit, j.transport = .ofCalls send limit →
    limit.toNat ≤ Transport.maxPermits → s.history.called.Perm j.endpoints
  taken : List.Forall₂ R s.history.reconciled s.history.taken

variable {σ : Type} [SubscriptionStore σ] {R : DeliveryResult → DeliveryResult → Prop} {j : Job}
  {label : Label} {s s' : State} {l l' : Ledger σ} {send : Nat → Sender} {limit : UInt64}

theorem limit_eq_of_ofCalls_eq {send' : Nat → Sender} {limit' : UInt64}
    (h : Transport.ofCalls send limit = .ofCalls send' limit') :
    max 1 limit.toNat = max 1 limit'.toNat := by
  injection h

theorem Failed.start (hj : j.transport = .ofCalls send limit)
    (hlimit : Transport.maxPermits < limit.toNat) : Failed R j j.start := by
  have hfinished : j.transportStart = .finished := by
    rw [Job.transportStart, hj, Transport.ofCalls]
    exact if_neg (by omega)
  exact { Wired.start j with
    reporting := .start R j
    finished := hfinished
    emitted := rfl
    called := rfl }

theorem Failed.move (h : Failed R j s) (hl : l.Answers R) (hm : Move j label s l s' l')
    (hc : s'.cancelled = false) : Failed R j s' := by
  have hw := h.toWired.move hm
  have hr := h.reporting.move hm hl.reconcile hc
  have hdeliveries := h.delivered h.finished
  have hfinished := h.finished
  -- Neither the transport nor a delivery can move; the others leave what is said here alone.
  cases hm with
  | acquire _ ht | accept _ ht | leave _ ht | wind _ ht | conclude _ ht | heed _ ht | fetch _ ht
  | miss _ ht | crash _ ht | call _ ht | lose _ ht | send _ ht | finish _ ht | abort ht =>
    rw [hfinished] at ht
    cases ht
  | interrupt _ ht =>
    rw [hfinished] at ht
    rcases ht with ht | ht <;> cases ht
  | start _ hd | answer _ hd | discard _ hd | emit _ hd =>
    rw [hdeliveries] at hd
    cases hd
  | exhaust | take | withdraw | offer | stop | collect | drain | reconcile | forsake | report
  | measure | consume | cancel | drop =>
    exact { hw with
      reporting := hr, finished := h.finished, emitted := h.emitted, called := h.called }

/-- Rejection calls no sender. -/
theorem Move.called_eq (hm : Move j label s l s' l') (hj : j.transport = .rejecting) :
    s'.history.called = s.history.called := by
  have hrouted : j.transport.Routed := hj ▸ .rejecting
  cases hm with
  | crash hT _ ha | call hT _ ha => exact (next_ne_call hrouted hT ha).elim
  | start hT =>
    rw [hj] at hT
    cases hT
  | _ => rfl

namespace Attended

theorem start (R : DeliveryResult → DeliveryResult → Prop)
    (hj : j.transport = .rejecting ∨ ∃ send limit, j.transport = .ofCalls send limit) :
    Attended R j j.start := by
  rcases hj with hj | ⟨send, limit, hj⟩
  · exact .rejecting hj (.start R (hj ▸ .rejecting)) rfl
  · by_cases hlimit : limit.toNat ≤ Transport.maxPermits
    · exact .sending hj hlimit (.start R (routed_of_eq_ofCalls hj hlimit))
    · exact .failed hj (by omega) (.start hj (by omega))

theorem move (h : Attended R j s) (hl : l.Answers R) (hm : Move j label s l s' l')
    (hc : s'.cancelled = false) : Attended R j s' := by
  cases h with
  | sending hj hlimit hs =>
    exact .sending hj hlimit (hs.move (routed_of_eq_ofCalls hj hlimit) hl hm)
  | failed hj hlimit hf => exact .failed hj hlimit (hf.move hl hm hc)
  | rejecting hj hs hcalled =>
    exact .rejecting hj (hs.move (hj ▸ .rejecting) hl hm) ((hm.called_eq hj).trans hcalled)

theorem served (h : Attended R j s) (hc : s.cancelled = false) (he : s.ended = true) :
    Served R j s := by
  cases h with
  | sending hj hlimit hs =>
    have hsettled := hs.settled hc he
    have hcalled := hsettled.called _ _ hj
    have hnone : s.rejections j = [] := by rw [State.rejections, hj, Transport.ofCalls]
    constructor
    case reconciled =>
      have hreconciled := hsettled.reconciled
      rw [State.answers_of_fanOut hj, List.map_map] at hreconciled
      rwa [hnone, List.append_nil]
    case rejections => simp [hnone]
    case called => exact hcalled.subperm
    case calls => exact fun _ => ⟨_, _, hj⟩
    case complete => exact fun _ _ _ _ => hcalled
    case taken => exact hsettled.taken
  | failed hj hlimit hf =>
    have hnone : s.rejections j = [] := by rw [State.rejections, hj, Transport.ofCalls]
    have hcalled := hf.called
    obtain ⟨hreconciled, hanswered⟩ := hf.reporting.of_ended hf.toWired hc he
    rw [hf.emitted] at hreconciled
    constructor
    case reconciled => simp [hnone, hcalled, hreconciled]
    case rejections => simp [hnone]
    case called => exact hcalled ▸ List.nil_subperm
    case calls => exact fun _ => ⟨_, _, hj⟩
    case complete =>
      intro send' limit' hj' hlimit'
      -- The transport has one limit, and that is beyond the permits that exist.
      have hsame := limit_eq_of_ofCalls_eq (hj.symm.trans hj')
      have : 0 < Transport.maxPermits := by decide
      omega
    case taken =>
      rw [← hanswered]
      exact hf.reporting.answers
  | rejecting hj hs hcalled =>
    have hsettled := hs.settled hc he
    have hall : s.rejections j = s.history.reconciled := by
      rw [State.rejections, hj, Transport.rejecting]
    constructor
    case reconciled =>
      rw [hall, hcalled]
      exact .refl _
    case rejections =>
      intro r hr
      rw [hall, hsettled.reconciled.mem_iff] at hr
      obtain ⟨x, hx, rfl⟩ := List.mem_map.mp hr
      obtain ⟨number, hx⟩ := State.gives_of_mem_answers hx
      exact ⟨x.1, hx.trans (j.answer_of_sequential hj number x.1)⟩
    case called => exact hcalled ▸ List.nil_subperm
    case calls => exact fun hne => (hne hcalled).elim
    case complete =>
      intro send limit hj'
      rw [hj] at hj'
      cases hj'
    case taken => exact hsettled.taken

end Attended

end PushDelivery.Dispatch
