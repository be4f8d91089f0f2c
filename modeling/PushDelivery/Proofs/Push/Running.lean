import Mathlib.Logic.Relation
import PushDelivery.Proofs.Dispatch.ExactlyOnce
import PushDelivery.Push

/-!
# Dispatches side by side

A move of dispatches that run side by side is a move of one of them; the others keep their states
and see the ledger change under them. What is known of each dispatch by itself is kept by all of
them together. A run of one dispatch is a run of the whole, so completing them one after another is
one of the interleavings.
-/

namespace PushDelivery.Push

open Dispatch

variable {σ : Type} [SubscriptionStore σ] {R : DeliveryResult → DeliveryResult → Prop}
  {r r' : Running σ} {place : Nat} {label : Label}

namespace Running

theorem step_eq_some_iff : r.step place label = some r' ↔
    ∃ j s s' l', r.dispatches[place]? = some (j, s) ∧
      Dispatch.step j label s r.ledger = some (s', l') ∧
      r' = ⟨l', r.dispatches.set place (j, s')⟩ := by
  constructor
  · intro h
    obtain ⟨⟨j, s⟩, hd, h⟩ := Option.bind_eq_some_iff.mp h
    obtain ⟨⟨s', l'⟩, hs, h⟩ := Option.bind_eq_some_iff.mp h
    cases h
    exact ⟨j, s, s', l', hd, hs, rfl⟩
  · rintro ⟨j, s, s', l', hd, hs, rfl⟩
    simp [step, hd, hs]

/-- An ordinary move of one of the dispatches. -/
def Moves (r r' : Running σ) : Prop :=
  ∃ place label, label.isOrdinary = true ∧ r.step place label = some r'

/-- Any number of ordinary moves, in any interleaving. -/
abbrev Reaches : Running σ → Running σ → Prop := Relation.ReflTransGen Moves

/-- Each dispatch is sound, nobody has cancelled it and its sender does not. -/
structure Sound (R : DeliveryResult → DeliveryResult → Prop) (r : Running σ) : Prop where
  answers : r.ledger.Answers R
  routed : ∀ d ∈ r.dispatches, d.1.transport.Routed
  cancels : ∀ d ∈ r.dispatches, ∀ number e, d.1.cancels number e = false
  dispatches : ∀ d ∈ r.dispatches, Dispatch.Sound R d.1 d.2 ∧ d.2.cancelled = false

/-- A move replaces the state of one dispatch by one that it moves to. -/
theorem Moves.exists_move (h : Moves r r') :
    ∃ before after j label s s', label.isOrdinary = true ∧
      Move j label s r.ledger s' r'.ledger ∧
      r.dispatches = before ++ (j, s) :: after ∧ r'.dispatches = before ++ (j, s') :: after := by
  obtain ⟨place, label, hl, hs⟩ := h
  obtain ⟨j, s, s', l', hd, hstep, rfl⟩ := step_eq_some_iff.mp hs
  obtain ⟨hp, hd'⟩ := List.getElem?_eq_some_iff.mp hd
  refine ⟨r.dispatches.take place, r.dispatches.drop (place + 1), j, label, s, s', hl,
    Dispatch.step_eq_some_iff.mp hstep, ?_, ?_⟩
  · rw [← hd', ← List.drop_eq_getElem_cons hp, List.take_append_drop]
  · exact List.set_eq_take_cons_drop _ hp

theorem Moves.jobs (h : Moves r r') :
    r'.dispatches.map Prod.fst = r.dispatches.map Prod.fst := by
  obtain ⟨before, after, j, label, s, s', -, -, hd, hd'⟩ := h.exists_move
  simp [hd, hd']

/-- What each move keeps of its own dispatch and of the ledger is kept by all together. -/
theorem Moves.keeps {P : Job → State → Prop} {Q : Ledger σ → Prop} (h : Moves r r')
    (hmove : ∀ {j label s l s' l'}, label.isOrdinary = true → Move j label s l s' l' → Q l →
      P j s → P j s' ∧ Q l')
    (hr : Q r.ledger ∧ ∀ d ∈ r.dispatches, P d.1 d.2) :
    Q r'.ledger ∧ ∀ d ∈ r'.dispatches, P d.1 d.2 := by
  obtain ⟨before, after, j, label, s, s', hl, hm, hd, hd'⟩ := h.exists_move
  obtain ⟨hledger, hall⟩ := hr
  rw [hd, List.forall_mem_append, List.forall_mem_cons] at hall
  obtain ⟨hbefore, hs, hafter⟩ := hall
  obtain ⟨hs', hledger'⟩ := hmove hl hm hledger hs
  rw [hd', List.forall_mem_append, List.forall_mem_cons]
  exact ⟨hledger', hbefore, hs', hafter⟩

theorem Moves.sound (h : Moves r r') (hr : Sound R r) : Sound R r' := by
  obtain ⟨hanswers, hall⟩ := h.keeps (Q := fun l => l.Answers R)
    (P := fun j s => j.transport.Routed ∧ (∀ number e, j.cancels number e = false) ∧
      Dispatch.Sound R j s ∧ s.cancelled = false)
    (fun hl hm hanswers ⟨hrouted, hcancels, hsound, hc⟩ =>
      ⟨⟨hrouted, hcancels, hsound.move hrouted hanswers hm,
        (hm.cancelled_eq hcancels hl).trans hc⟩, hm.answers hanswers⟩)
    ⟨hr.answers, fun d hd => ⟨hr.routed d hd, hr.cancels d hd, hr.dispatches d hd⟩⟩
  exact ⟨hanswers, fun d hd => (hall d hd).1, fun d hd => (hall d hd).2.1,
    fun d hd => (hall d hd).2.2⟩

/-- What one dispatch adds to its own list, it adds to the lists of all, up to order. -/
theorem flatMap_perm_of_append {α β : Type} {f : α → List β} {before after : List α} {a a' : α}
    {bs : List β} (h : f a' = f a ++ bs) :
    ((before ++ a' :: after).flatMap f).Perm ((before ++ a :: after).flatMap f ++ bs) := by
  simp only [List.flatMap_append, List.flatMap_cons, h, List.append_assoc]
  exact (List.perm_append_comm.append_left _).append_left _

theorem Reaches.jobs (h : Reaches r r') :
    r'.dispatches.map Prod.fst = r.dispatches.map Prod.fst := by
  induction h with
  | refl => rfl
  | tail _ hm ih => exact hm.jobs.trans ih

theorem Reaches.keeps {P : Job → State → Prop} {Q : Ledger σ → Prop} (h : Reaches r r')
    (hmove : ∀ {j label s l s' l'}, label.isOrdinary = true → Move j label s l s' l' → Q l →
      P j s → P j s' ∧ Q l')
    (hr : Q r.ledger ∧ ∀ d ∈ r.dispatches, P d.1 d.2) :
    Q r'.ledger ∧ ∀ d ∈ r'.dispatches, P d.1 d.2 := by
  induction h with
  | refl => exact hr
  | tail _ hm ih => exact hm.keeps hmove ih

theorem Reaches.sound (h : Reaches r r') (hr : Sound R r) : Sound R r' := by
  induction h with
  | refl => exact hr
  | tail _ hm ih => exact hm.sound ih

theorem Sound.start {jobs : List Job} {l : Ledger σ} (hl : l.Answers R)
    (hrouted : ∀ j ∈ jobs, j.transport.Routed)
    (hcancels : ∀ j ∈ jobs, ∀ number e, j.cancels number e = false) :
    Sound R (Running.start jobs l) := by
  have hmem : ∀ d ∈ (Running.start jobs l).dispatches, ∃ j ∈ jobs, d = (j, j.start) := by
    simp [Running.start, eq_comm]
  refine ⟨hl, fun d hd => ?_, fun d hd => ?_, fun d hd => ?_⟩ <;>
    obtain ⟨j, hj, rfl⟩ := hmem d hd
  · exact hrouted j hj
  · exact hcancels j hj
  · exact ⟨.start R (hrouted j hj), rfl⟩

/-- A run of one dispatch is a run of the whole. -/
theorem reaches_of_run {j : Job} {c c' : State × Ledger σ} {labels : List Label}
    (hrun : Run j c labels c') (hlabels : ∀ label ∈ labels, label.isOrdinary = true)
    (before after : List (Job × State)) :
    Reaches ⟨c.2, before ++ (j, c.1) :: after⟩ ⟨c'.2, before ++ (j, c'.1) :: after⟩ := by
  induction hrun with
  | nil c => exact .refl
  | @cons s s' l l' c label labels hs _ ih =>
    rw [List.forall_mem_cons] at hlabels
    refine .head ⟨before.length, label, hlabels.1, ?_⟩ (ih hlabels.2)
    exact step_eq_some_iff.mpr ⟨j, s, s', l', by simp, hs, by simp⟩

end Running

theorem length_completeInOrder (jobs : List Job) (l : Ledger σ) :
    (completeInOrder jobs l).1.length = jobs.length := by
  induction jobs generalizing l with
  | nil => rfl
  | cons j jobs ih => simp [completeInOrder, ih]

/-- Completing the dispatches one after another is one of their interleavings, and it brings all
streams to their end. -/
theorem reaches_completeInOrder {jobs : List Job} (hrouted : ∀ j ∈ jobs, j.transport.Routed)
    (hcancels : ∀ j ∈ jobs, ∀ number e, j.cancels number e = false) (before : List (Job × State))
    (l : Ledger σ) :
    Running.Reaches ⟨l, before ++ jobs.map fun j => (j, j.start)⟩
        ⟨(completeInOrder jobs l).2, before ++ jobs.zip (completeInOrder jobs l).1⟩ ∧
      ∀ s ∈ (completeInOrder jobs l).1, s.ended = true := by
  -- The dispatches in `before` have been completed and stay as they are.
  induction jobs generalizing before l with
  | nil => exact ⟨.refl, by simp [completeInOrder]⟩
  | cons j jobs ih =>
    rw [List.forall_mem_cons] at hrouted hcancels
    obtain ⟨labels, s, l₁, hcomplete, hrun, hlabels, hrest⟩ := exists_run_complete hrouted.1 l
    obtain ⟨hsound, -, -⟩ :=
      hrun.sound hrouted.1 hcancels.1 hlabels (.start _ hrouted.1) l.answers_agrees
    have hended := hrest.ended hsound.orderly hrouted.1
    obtain ⟨hreaches, hall⟩ := ih hrouted.2 hcancels.2 (before ++ [(j, s)]) l₁
    have hfirst := Running.reaches_of_run hrun hlabels before (jobs.map fun j => (j, j.start))
    rw [List.append_assoc, List.append_assoc] at hreaches
    simp only [completeInOrder, hcomplete]
    exact ⟨hfirst.trans hreaches, List.forall_mem_cons.mpr ⟨hended, hall⟩⟩

end PushDelivery.Push
