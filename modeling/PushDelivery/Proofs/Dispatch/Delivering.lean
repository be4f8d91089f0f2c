import PushDelivery.Proofs.Dispatch.Calls
import PushDelivery.Proofs.Dispatch.Interruption

/-!
# Deliveries that leave the store alone

A raw result that is no stale key is reported as it is, whatever the store replies, and asks nothing
of it. A dispatch whose sender never finds a stale key therefore reports the outcome of each of its
endpoints. A fan-out beyond the permits that exist comes to its end as well, but there is nothing to
read, so it delivers only where there is nothing to deliver.
-/

namespace PushDelivery.Dispatch

variable {σ : Type} [SubscriptionStore σ]

structure Delivered (j : Job) (l : Ledger σ) (expected : Endpoint → DeliveryResult)
    (labels : List Label) (s : State) (l' : Ledger σ) : Prop where
  length : labels.length ≤ 11 * j.endpoints.length + 9
  rest : AtRest j s l' → s.ended = true ∧ s.finished = true
  taken : s.ended = true → s.history.taken.Perm (j.endpoints.map expected)
  store : l'.store = l.store
  updates : l'.updates = l.updates

/-- A dispatch that nobody cancels, its moves in any order, gives its consumer what is expected of
each endpoint, and asks nothing of the store. -/
def Delivers (j : Job) (l : Ledger σ) (expected : Endpoint → DeliveryResult) : Prop :=
  ∀ labels s l', Run j (j.start, l) labels (s, l') →
    (∀ label ∈ labels, label.isOrdinary = true) → Delivered j l expected labels s l'

variable {R : DeliveryResult → DeliveryResult → Prop} {j : Job} {label : Label}
  {labels : List Label} {s s' : State} {l l' l₀ : Ledger σ}

theorem Passage.exists_of_mem_emitted (h : Passage j s) {r : DeliveryResult}
    (hr : r ∈ s.history.emitted) : ∃ e, j.Gives e r := by
  cases hT : j.transport with
  | fanOut send limit =>
    obtain ⟨x, -, rfl⟩ := List.mem_map.mp
      ((h.answered send limit hT).subset (List.mem_append_left _ hr))
    exact ⟨x.1, x.2, rfl⟩
  | sequential next =>
    have hmem : r ∈ s.history.accepted.map (Transport.rejection j.provider) :=
      h.rejected next hT ▸ List.mem_append_left _ hr
    obtain ⟨e, -, rfl⟩ := List.mem_map.mp hmem
    exact ⟨e, 0, (j.answer_of_sequential hT 0 e).symm⟩

/-- A reconciler that gets no stale key leaves the store alone. -/
theorem Processed.untouched (h : Processed l₀ [] j s l)
    (hnone : ∀ r ∈ s.history.emitted, r.request? = none) :
    l.store = l₀.store ∧ l.updates = l₀.updates := by
  have hrequests : s.history.reconciled.filterMap (·.request?) = [] := by
    rw [List.filterMap_eq_nil_iff]
    intro r hr
    exact hnone r (h.reconciled_prefix.subset hr)
  rw [h.store, h.updates, hrequests]
  exact ⟨rfl, List.append_nil _⟩

theorem eq_of_forall₂_unless {α : Type} {P : α → Prop} {xs ys : List α}
    (h : List.Forall₂ (fun x y => P x → y = x) xs ys) (hP : ∀ x ∈ xs, P x) : ys = xs := by
  induction h with
  | nil => rfl
  | cons hxy _ ih =>
    rw [List.forall_mem_cons] at hP
    rw [hxy hP.1, ih hP.2]

/-- A dispatch that never meets a stale key reports what each endpoint is answered. -/
theorem delivers_of_unstale {expected : Endpoint → DeliveryResult} (hj : j.transport.Routed)
    (hanswer : ∀ number e, j.answer number e = expected e)
    (hcancels : ∀ number e, j.cancels number e = false)
    (hunstale : ∀ e detail, (expected e).error ≠ some (.endpointKeyStale detail))
    (l : Ledger σ) : Delivers j l expected := by
  have hstateless : j.Stateless := fun number e => (hanswer number e).trans (hanswer 0 e).symm
  have houtcome : j.outcome = expected := funext (hanswer 0)
  intro labels s l' hrun hlabels
  obtain ⟨hsound, -, hc⟩ := hrun.sound hj hcancels hlabels (.start _ hj) l.answers_unless_stale
  have hprocessed := (Processed.start l j rfl rfl).of_events hrun.events
  have hlength := hrun.length_add_work_le hj
  have hwork := work_start_le j
  have huntouched := hprocessed.untouched fun r hr => by
    obtain ⟨e, number, rfl⟩ := (hsound.passage hc).exists_of_mem_emitted hr
    rw [hanswer]
    exact Ledger.request?_of_ne (hunstale e)
  constructor
  case length =>
    dsimp only at hlength
    omega
  case rest =>
    intro hrest
    exact ⟨hrest.ended hsound.orderly hj, hrest.finished hsound.orderly hj⟩
  case taken =>
    intro hended
    have hsettled := hsound.settled hc hended
    have hreconciled := hsettled.reconciled_perm hstateless
    rw [houtcome] at hreconciled
    have htaken : s.history.taken = s.history.reconciled := by
      apply eq_of_forall₂_unless hsettled.taken
      intro r hr
      obtain ⟨e, -, rfl⟩ := List.mem_map.mp (hreconciled.subset hr)
      exact hunstale e
    rw [htaken]
    exact hreconciled
  case store => exact huntouched.1
  case updates => exact huntouched.2

/-! ## A transport that cannot start -/

theorem Move.transport_ne_finished (hm : Move j .transport s l s' l') :
    s.transport ≠ .finished := by
  intro hf
  cases hm with
  | acquire _ ht | accept _ ht | leave _ ht | wind _ ht | conclude _ ht | heed _ ht | fetch _ ht
  | miss _ ht | crash _ ht | call _ ht | lose _ ht | send _ ht | finish _ ht =>
    rw [hf] at ht
    cases ht
  | interrupt _ ht =>
    rw [hf] at ht
    rcases ht with ht | ht <;> cases ht

theorem Run.failed (hcancels : ∀ number e, j.cancels number e = false) {c c' : State × Ledger σ}
    (hrun : Run j c labels c') (hlabels : ∀ label ∈ labels, label.isOrdinary = true)
    (hc : c.1.cancelled = false) (hl : c.2.Answers R) (h : Failed R j c.1) :
    Failed R j c'.1 ∧ labels.count .transport = 0 := by
  induction hrun with
  | nil c => exact ⟨h, rfl⟩
  | @cons s s' l l' c label labels hs _ ih =>
    rw [List.forall_mem_cons] at hlabels
    have hm := step_eq_some_iff.mp hs
    have hc' : s'.cancelled = false := (hm.cancelled_eq hcancels hlabels.1).trans hc
    obtain ⟨hfailed, hcount⟩ := ih hlabels.2 hc' (hm.answers hl) (h.move hl hm hc')
    refine ⟨hfailed, ?_⟩
    have hne : label ≠ .transport := by
      rintro rfl
      exact hm.transport_ne_finished h.finished
    rw [List.count_cons_of_ne hne, hcount]

theorem Failed.taken_eq_nil (h : Failed R j s) : s.history.taken = [] := by
  have hraw := h.reporting.raw
  rw [h.emitted, List.append_eq_nil_iff, List.append_eq_nil_iff] at hraw
  have hanswers := h.reporting.answers
  rw [hraw.1.1, List.forall₂_nil_left_iff, List.append_eq_nil_iff] at hanswers
  have hreport := h.reporting.report
  rw [hanswers.1, List.append_eq_nil_iff] at hreport
  exact hreport.1

section Beyond

variable {send : Nat → Sender} {limit : UInt64} {expected : Endpoint → DeliveryResult}
  (hj : j.transport = .ofCalls send limit) (hlimit : Transport.maxPermits < limit.toNat)
  (hcancels : ∀ number e, j.cancels number e = false)

include hj hlimit hcancels

/-- Beyond the permits that exist there is never anything to read. -/
theorem taken_eq_nil_of_beyond (hrun : Run j (j.start, l) labels (s, l'))
    (hlabels : ∀ label ∈ labels, label.isOrdinary = true) : s.history.taken = [] :=
  (hrun.failed hcancels hlabels rfl l.answers_agrees (.start hj hlimit)).1.taken_eq_nil

/-- Beyond the permits that exist nothing can be delivered. -/
theorem delivers_iff_of_beyond (l : Ledger σ) : Delivers j l expected ↔ j.endpoints = [] := by
  constructor
  · intro h
    -- The reconciler finds nothing that it could wait for, so it leaves at once.
    have hfailed : Failed DeliveryResult.Agrees j j.start := .start hj hlimit
    have hdrain : Move j .reconciler j.start l (finishReconciling j.start) l :=
      .drain rfl rfl rfl hfailed.finished rfl
    have hrun : Run j (j.start, l) [.reconciler] (finishReconciling j.start, l) :=
      .cons hdrain.step_eq_some (.nil _)
    have hperm := (h _ _ _ hrun (by simp [Label.isOrdinary])).taken rfl
    exact List.map_eq_nil_iff.mp hperm.nil_eq.symm
  · intro hnone labels s l' hrun hlabels
    obtain ⟨hfailed, hcount⟩ :=
      hrun.failed hcancels hlabels rfl l.answers_agrees (.start hj hlimit)
    have hprocessed := (Processed.start l j rfl rfl).of_events hrun.events
    have hemitted : s.history.emitted = [] := hfailed.emitted
    have huntouched := hprocessed.untouched (by simp [hemitted])
    have hlive : j.transport.Live := hj ▸ .ofCalls send limit
    have hlength := hrun.length_add_work_le_count
    have hwork := work_start_le j
    constructor
    case length =>
      dsimp only at hlength
      omega
    case rest =>
      intro hrest
      exact ⟨hrest.ended_of_live hfailed.toWired hlive,
        hrest.finished_of_live hfailed.toWired hlive⟩
    case taken =>
      intro _
      rw [hfailed.taken_eq_nil, hnone]
      exact .refl _
    case store => exact huntouched.1
    case updates => exact huntouched.2

end Beyond

end PushDelivery.Dispatch
