import Mathlib.Data.List.Forall2
import PushDelivery.Proofs.Dispatch.Passage
import PushDelivery.Proofs.Dispatch.Reporting
import PushDelivery.Proofs.Reconciliation

/-!
# Where each endpoint is

A fan-out takes the caller's endpoints one by one, and from then on each is in one place: with the
feeder, on the feed, in a delivery, on the raw channel, with the reconciler, on the report channel
or with the consumer. A `Whereabouts` says which endpoint is where, by their numbers in the caller's
list, so that equal endpoints are told apart. `Tracked` says that it describes a state and accounts
for every endpoint that was taken. Only after a cancellation is an endpoint ever given up, and it is
then nowhere.

In contrast to `Passage` this holds also after a cancellation, and it follows the results to the
consumer.
-/

namespace PushDelivery.Dispatch

/-- Which endpoints are where, by their numbers in the caller's list. -/
structure Whereabouts where
  feeder : List Nat := []
  feed : List Nat := []
  deliveries : List Nat := []
  raw : List Nat := []
  reconciler : List Nat := []
  report : List Nat := []
  consumer : List Nat := []
  /-- The endpoints that were given up. -/
  lost : List Nat := []

namespace Whereabouts

def places (w : Whereabouts) : List Nat :=
  w.feeder ++ w.feed ++ w.deliveries ++ w.raw ++ w.reconciler ++ w.report ++ w.consumer

def all (w : Whereabouts) : List Nat := w.places ++ w.lost

theorem count_all (w : Whereabouts) (i : Nat) :
    w.all.count i = w.feeder.count i + w.feed.count i + w.deliveries.count i + w.raw.count i
      + w.reconciler.count i + w.report.count i + w.consumer.count i + w.lost.count i := by
  simp only [all, places, List.count_append]

end Whereabouts

def EndpointAt (j : Job) (i : Nat) (e : Endpoint) : Prop := j.endpoints[i]? = some e

/-- A delivery of the endpoint of a number; when the sender's call is back it has what the call left
behind. -/
structure DeliveryAt (j : Job) (i : Nat) (d : Delivery) : Prop where
  endpoint : EndpointAt j i d.endpoint
  outcome : ∀ r, d.stage = .reporting r → j.Gives d.endpoint r

/-- The result of the endpoint of a number. -/
def OutcomeAt (j : Job) (i : Nat) (r : DeliveryResult) : Prop :=
  ∃ e, EndpointAt j i e ∧ j.Gives e r

/-- The result of the endpoint of a number, reconciled or not. -/
def ReportAt (j : Job) (i : Nat) (r : DeliveryResult) : Prop :=
  ∃ e raw, EndpointAt j i e ∧ j.Gives e raw ∧ raw.Agrees r

/-- What is in each place. -/
structure Located (j : Job) (s : State) (w : Whereabouts) : Prop where
  feeder : List.Forall₂ (EndpointAt j) w.feeder s.feeder.held
  feed : List.Forall₂ (EndpointAt j) w.feed s.feed.queue
  deliveries : List.Forall₂ (DeliveryAt j) w.deliveries s.deliveries
  raw : List.Forall₂ (OutcomeAt j) w.raw s.raw.queue
  reconciler : List.Forall₂ (ReportAt j) w.reconciler (s.reconciler.held ++ s.reconciler.pending)
  report : List.Forall₂ (ReportAt j) w.report s.report.queue
  consumer : List.Forall₂ (ReportAt j) w.consumer s.history.taken

/-- How many of the caller's endpoints the feeder has taken. -/
def State.pulled (j : Job) (s : State) : Nat := j.endpoints.length - s.unfed.length

/-- The whereabouts describe the state and account for every endpoint that was taken. -/
structure Tracked (j : Job) (s : State) (w : Whereabouts) : Prop where
  located : Located j s w
  unfed : j.endpoints.drop (s.pulled j) = s.unfed
  all : w.all.Perm (List.range (s.pulled j))
  kept : s.cancelled = false → w.lost = []

variable {σ : Type} [SubscriptionStore σ] {j : Job} {label : Label} {s s' : State}
  {l l' : Ledger σ} {w w' : Whereabouts} {send : Nat → Sender} {limit : Nat}

/-- What stands at a place of the right list stands at one of the left list. -/
theorem exists_of_forall₂_append_cons {α β : Type} {R : α → β → Prop} {xs : List α}
    {before after : List β} {y : β} (h : List.Forall₂ R xs (before ++ y :: after)) :
    ∃ before' x after', xs = before' ++ x :: after' ∧ List.Forall₂ R before' before ∧ R x y ∧
      List.Forall₂ R after' after := by
  induction before generalizing xs with
  | nil =>
    obtain ⟨x, rest, hx, hrest, rfl⟩ := List.forall₂_cons_right_iff.mp h
    exact ⟨[], x, rest, rfl, .nil, hx, hrest⟩
  | cons b before ih =>
    obtain ⟨x, rest, hx, hrest, rfl⟩ := List.forall₂_cons_right_iff.mp h
    obtain ⟨before', x', after', rfl, hbefore, hx', hafter⟩ := ih hrest
    exact ⟨x :: before', x', after', rfl, .cons hx hbefore, hx', hafter⟩

theorem OutcomeAt.reportAt {i : Nat} {r : DeliveryResult} (h : OutcomeAt j i r) :
    ReportAt j i r := by
  obtain ⟨e, he, hr⟩ := h
  exact ⟨e, r, he, hr, .refl _⟩

theorem ReportAt.reconcile {i : Nat} {r : DeliveryResult} (h : ReportAt j i r) (l : Ledger σ) :
    ReportAt j i (l.reconcile r).1 := by
  obtain ⟨e, raw, he, hgives, hr⟩ := h
  have hr' := l.agrees_reconcile r
  exact ⟨e, raw, he, hgives, hr'.provider.trans hr.provider, hr'.destination.trans hr.destination,
    hr'.messageId.trans hr.messageId, hr'.isError.trans hr.isError⟩

/-- The endpoint of the delivery at a place, and what replacing and removing do there. -/
theorem Located.exists_delivery {place : Nat} {d : Delivery} (h : Located j s w)
    (hd : s.deliveries[place]? = some d) :
    ∃ before i after, w.deliveries = before ++ i :: after ∧ DeliveryAt j i d ∧
      List.Forall₂ (DeliveryAt j) (before ++ after) (s.deliveries.eraseIdx place) ∧
      ∀ f, DeliveryAt j i (f d) →
        List.Forall₂ (DeliveryAt j) w.deliveries (s.deliveries.modify place f) := by
  obtain ⟨before, after, hds, hmodify, herase⟩ := exists_eq_append_of_getElem? hd
  have hdeliveries := h.deliveries
  rw [hds] at hdeliveries
  obtain ⟨before', i, after', hw, hbefore, hi, hafter⟩ := exists_of_forall₂_append_cons hdeliveries
  refine ⟨before', i, after', hw, hi, ?_, fun f hf => ?_⟩
  · rw [herase]
    exact List.rel_append hbefore hafter
  · rw [hmodify, hw]
    exact List.rel_append hbefore (.cons hf hafter)

namespace Tracked

/-- The endpoints change places, and some may be given up. -/
theorem relocate (h : Tracked j s w) (hl : Located j s' w') (hunfed : s'.unfed = s.unfed)
    (hall : ∀ i, w'.all.count i = w.all.count i)
    (hkept : s'.cancelled = false → s.cancelled = false ∧ w'.lost = w.lost) :
    Tracked j s' w' where
  located := hl
  unfed := by simpa [State.pulled, hunfed] using h.unfed
  all := by
    have := (List.perm_iff_count.mpr hall).trans h.all
    simpa [State.pulled, hunfed] using this
  kept hc := (hkept hc).2.trans (h.kept (hkept hc).1)

/-! ## From one place to the next -/

/-- The feeder takes the next endpoint of the caller. -/
theorem take {e : Endpoint} {rest : List Endpoint} (h : Tracked j s w) (hf : s.feeder = .idle)
    (hu : s.unfed = e :: rest) :
    Tracked j { s with feeder := .offering e, unfed := rest }
      { w with feeder := [s.pulled j] } := by
  have hdrop := h.unfed
  rw [hu] at hdrop
  have hat : EndpointAt j (s.pulled j) e := by
    have := congrArg List.head? hdrop
    rwa [List.head?_drop, List.head?_cons] at this
  have hpulled : j.endpoints.length - rest.length = s.pulled j + 1 := by
    have hlength := congrArg List.length hdrop
    simp only [State.pulled, hu, List.length_drop, List.length_cons] at hlength ⊢
    omega
  have hnone : w.feeder = [] := by
    have := h.located.feeder
    rw [hf] at this
    exact List.forall₂_nil_right_iff.mp this
  refine ⟨{ h.located with feeder := .cons hat .nil }, ?_, ?_, h.kept⟩
  · have := congrArg List.tail hdrop
    rw [List.tail_drop, List.tail_cons] at this
    simpa [State.pulled, hpulled] using this
  · have hperm := h.all.append_right [s.pulled j]
    rw [← List.range_succ] at hperm
    simp only [State.pulled, hpulled] at hperm ⊢
    refine .trans (List.perm_iff_count.mpr fun i => ?_) hperm
    simp only [Whereabouts.count_all, List.count_append, hnone, List.count_nil]
    omega

theorem offer {e : Endpoint} (h : Tracked j s w) (hf : s.feeder = .offering e) :
    ∃ w, Tracked j { s with feeder := .idle, feed := s.feed.push e } w := by
  have hfeeder := h.located.feeder
  rw [hf] at hfeeder
  have hl' : Located j { s with feeder := .idle, feed := s.feed.push e }
      { w with feeder := [], feed := w.feed ++ w.feeder } :=
    { h.located with
      feeder := .nil
      feed := List.rel_append h.located.feed hfeeder }
  refine ⟨_, h.relocate hl' rfl (fun i => ?_) (fun hc => ⟨hc, rfl⟩)⟩
  simp only [Whereabouts.count_all, List.count_append, List.count_nil]
  omega

theorem accept {e : Endpoint} {rest : List Endpoint} (h : Tracked j s w)
    (hq : s.feed.queue = e :: rest) :
    ∃ w, Tracked j { acceptEndpoint s e with
      transport := .acquiring, deliveries := s.deliveries ++ [{ endpoint := e }] } w := by
  have hfeed := h.located.feed
  rw [hq] at hfeed
  obtain ⟨i, feed, he, hrest, hw⟩ := List.forall₂_cons_right_iff.mp hfeed
  have hl' : Located j { acceptEndpoint s e with
      transport := .acquiring, deliveries := s.deliveries ++ [{ endpoint := e }] }
      { w with feed := feed, deliveries := w.deliveries ++ [i] } :=
    { h.located with
      feed := by simpa [acceptEndpoint, Channel.pop, hq] using hrest
      deliveries := List.rel_append h.located.deliveries (.cons ⟨he, by simp⟩ .nil) }
  refine ⟨_, h.relocate hl' rfl (fun i => ?_) (fun hc => ⟨hc, rfl⟩)⟩
  simp only [Whereabouts.count_all, hw, List.count_append, List.count_cons, List.count_nil]
  omega

/-- A delivery comes to another stage, and the dispatch may be cancelled by it. -/
theorem stage {place : Nat} {d : Delivery} {called : List Endpoint} {b : Bool}
    (h : Tracked j s w) (hd : s.deliveries[place]? = some d) (stage : Stage)
    (hr : ∀ r, stage = .reporting r → j.Gives d.endpoint r)
    (hb : b = false → s.cancelled = false) :
    Tracked j (stageDelivery { s with history.called := called, cancelled := b } place stage)
      w := by
  obtain ⟨before, i, after, -, hi, -, hmodify⟩ := h.located.exists_delivery hd
  have hl' : Located j
      (stageDelivery { s with history.called := called, cancelled := b } place stage) w :=
    { h.located with deliveries := hmodify _ ⟨hi.endpoint, hr⟩ }
  exact h.relocate hl' rfl (fun _ => rfl) (fun hc => ⟨hb hc, rfl⟩)

theorem emit {place : Nat} {d : Delivery} {r : DeliveryResult} (h : Tracked j s w)
    (hd : s.deliveries[place]? = some d) (hs : d.stage = .reporting r) :
    ∃ w, Tracked j (Dispatch.emit (removeDelivery s place) r) w := by
  obtain ⟨before, i, after, hw, hi, herase, -⟩ := h.located.exists_delivery hd
  have hl' : Located j (Dispatch.emit (removeDelivery s place) r)
      { w with deliveries := before ++ after, raw := w.raw ++ [i] } :=
    { h.located with
      deliveries := herase
      raw := List.rel_append h.located.raw (.cons ⟨_, hi.endpoint, hi.outcome r hs⟩ .nil) }
  refine ⟨_, h.relocate hl' rfl (fun i => ?_) (fun hc => ⟨hc, rfl⟩)⟩
  simp only [Whereabouts.count_all, hw, List.count_append, List.count_cons, List.count_nil]
  omega

theorem collect {r : DeliveryResult} {rest : List DeliveryResult} (h : Tracked j s w)
    (hr : s.reconciler = .receiving) (hq : s.raw.queue = r :: rest) :
    ∃ w, Tracked j { s with reconciler := .holding r, raw := s.raw.pop } w := by
  have hraw := h.located.raw
  have hreconciler := h.located.reconciler
  rw [hq] at hraw
  rw [hr] at hreconciler
  obtain ⟨i, raw, hi, hrest, hw⟩ := List.forall₂_cons_right_iff.mp hraw
  have hnone : w.reconciler = [] := List.forall₂_nil_right_iff.mp hreconciler
  have hl' : Located j { s with reconciler := .holding r, raw := s.raw.pop }
      { w with raw := raw, reconciler := [i] } :=
    { h.located with
      raw := by simpa [Channel.pop, hq] using hrest
      reconciler := .cons hi.reportAt .nil }
  refine ⟨_, h.relocate hl' rfl (fun i => ?_) (fun hc => ⟨hc, rfl⟩)⟩
  simp only [Whereabouts.count_all, hw, hnone, List.count_cons, List.count_nil]
  omega

theorem reconcile {r : DeliveryResult} (h : Tracked j s w) (hr : s.reconciler = .holding r)
    (l : Ledger σ) :
    Tracked j { s with
      reconciler := .reporting (l.reconcile r).1
      history.reconciled := s.history.reconciled ++ [r] } w := by
  have hreconciler := h.located.reconciler
  rw [hr] at hreconciler
  obtain ⟨i, rest, hi, hrest, hw⟩ := List.forall₂_cons_right_iff.mp hreconciler
  have hl' : Located j { s with
      reconciler := .reporting (l.reconcile r).1
      history.reconciled := s.history.reconciled ++ [r] } w :=
    { h.located with reconciler := hw ▸ .cons (hi.reconcile l) hrest }
  exact h.relocate hl' rfl (fun _ => rfl) (fun hc => ⟨hc, rfl⟩)

theorem report {r : DeliveryResult} (h : Tracked j s w) (hr : s.reconciler = .reporting r) :
    ∃ w, Tracked j { s with
      reconciler := .receiving
      report := s.report.push r
      history.reported := s.history.reported ++ [r] } w := by
  have hreconciler := h.located.reconciler
  rw [hr] at hreconciler
  have hl' : Located j { s with
      reconciler := .receiving
      report := s.report.push r
      history.reported := s.history.reported ++ [r] }
      { w with reconciler := [], report := w.report ++ w.reconciler } :=
    { h.located with
      reconciler := .nil
      report := List.rel_append h.located.report hreconciler }
  refine ⟨_, h.relocate hl' rfl (fun i => ?_) (fun hc => ⟨hc, rfl⟩)⟩
  simp only [Whereabouts.count_all, List.count_append, List.count_nil]
  omega

theorem consume {r : DeliveryResult} {rest : List DeliveryResult} (h : Tracked j s w)
    (hq : s.report.queue = r :: rest) :
    ∃ w, Tracked j
      { s with report := s.report.pop, history.taken := s.history.taken ++ [r] } w := by
  have hreport := h.located.report
  rw [hq] at hreport
  obtain ⟨i, report, hi, hrest, hw⟩ := List.forall₂_cons_right_iff.mp hreport
  have hl' : Located j { s with report := s.report.pop, history.taken := s.history.taken ++ [r] }
      { w with report := report, consumer := w.consumer ++ [i] } :=
    { h.located with
      report := by simpa [Channel.pop, hq] using hrest
      consumer := List.rel_append h.located.consumer (.cons hi .nil) }
  refine ⟨_, h.relocate hl' rfl (fun i => ?_) (fun hc => ⟨hc, rfl⟩)⟩
  simp only [Whereabouts.count_all, hw, List.count_append, List.count_cons, List.count_nil]
  omega

/-! ## What is given up -/

/-- The feeder ends; before a cancellation it has no endpoint then. -/
theorem finishFeeding (h : Tracked j s w) (hc : s.cancelled = false → s.feeder.held = []) :
    ∃ w, Tracked j { s with feeder := .finished } w := by
  have hl' : Located j { s with feeder := .finished }
      { w with feeder := [], lost := w.feeder ++ w.lost } := { h.located with feeder := .nil }
  refine ⟨_, h.relocate hl' rfl (fun i => ?_) (fun hc' => ⟨hc', ?_⟩)⟩
  · simp only [Whereabouts.count_all, List.count_append, List.count_nil]
    omega
  · have hfeeder := h.located.feeder
    rw [hc hc', List.forall₂_nil_right_iff] at hfeeder
    simp [hfeeder]

theorem finishTransport (h : Tracked j s w) (hc : s.cancelled = false → s.feed.queue = []) :
    ∃ w, Tracked j (finishTransport s) w := by
  have hl' : Located j (Dispatch.finishTransport s)
      { w with feed := [], lost := w.feed ++ w.lost } := { h.located with feed := .nil }
  refine ⟨_, h.relocate hl' rfl (fun i => ?_) (fun hc' => ⟨hc', ?_⟩)⟩
  · simp only [Whereabouts.count_all, List.count_append, List.count_nil]
    omega
  · have hfeed := h.located.feed
    rw [hc hc', List.forall₂_nil_right_iff] at hfeed
    simp [hfeed]

/-- A delivery ends without a result. -/
theorem removeDelivery {place : Nat} (h : Tracked j s w) (hp : place < s.deliveries.length)
    (hc : s.cancelled = true) : ∃ w, Tracked j (removeDelivery s place) w := by
  obtain ⟨before, i, after, hw, -, herase, -⟩ :=
    h.located.exists_delivery (List.getElem?_eq_getElem hp)
  have hl' : Located j (Dispatch.removeDelivery s place)
      { w with deliveries := before ++ after, lost := i :: w.lost } :=
    { h.located with deliveries := herase }
  refine ⟨_, h.relocate hl' rfl (fun i => ?_) (fun hc' => ?_)⟩
  · simp only [Whereabouts.count_all, hw, List.count_append, List.count_cons]
    omega
  · have : s.cancelled = false := hc'
    simp [hc] at this

/-- The reconciler ends; before a cancellation it has nothing then, and neither has its channel. -/
theorem finishReconciling (h : Tracked j s w)
    (hc : s.cancelled = false →
      s.raw.queue = [] ∧ s.reconciler.held ++ s.reconciler.pending = []) :
    ∃ w, Tracked j (finishReconciling s) w := by
  have hl' : Located j (Dispatch.finishReconciling s)
      { w with raw := [], reconciler := [], lost := w.raw ++ w.reconciler ++ w.lost } :=
    { h.located with raw := .nil, reconciler := .nil }
  refine ⟨_, h.relocate hl' rfl (fun i => ?_) (fun hc' => ⟨hc', ?_⟩)⟩
  · simp only [Whereabouts.count_all, List.count_append, List.count_nil]
    omega
  · have hraw := h.located.raw
    have hreconciler := h.located.reconciler
    rw [(hc hc').1, List.forall₂_nil_right_iff] at hraw
    rw [(hc hc').2, List.forall₂_nil_right_iff] at hreconciler
    simp [hraw, hreconciler]

theorem drop (h : Tracked j s w) :
    ∃ w, Tracked j { s with cancelled := true, report := s.report.close } w := by
  have hl' : Located j { s with cancelled := true, report := s.report.close }
      { w with report := [], lost := w.report ++ w.lost } := { h.located with report := .nil }
  refine ⟨_, h.relocate hl' rfl (fun i => ?_) (by simp)⟩
  simp only [Whereabouts.count_all, List.count_append, List.count_nil]
  omega

/-! ## Moves and runs -/

/-- An endpoint changes place at most, and is given up at most after a cancellation. -/
theorem move (hT : j.transport = .fanOut send limit) (ho : Orderly j s)
    (h : Tracked j s w) (hm : Move j label s l s' l') : ∃ w, Tracked j s' w := by
  have hl := h.located
  cases hm with
  | exhaust hf hu => exact h.finishFeeding (fun _ => by rw [hf]; rfl)
  | take hf hu => exact ⟨_, h.take hf hu⟩
  | withdraw hf hw =>
    refine h.finishFeeding (fun hc => ?_)
    have := ho.feed_receiving_of_offering hf hc
    simp_all
  | offer hf hc hr hq => exact h.offer hf
  | acquire | interrupt | leave | wind =>
    exact ⟨w, h.relocate { hl with } rfl (fun _ => rfl) (fun hc => ⟨hc, rfl⟩)⟩
  | accept hT' ht hc hq => exact h.accept hq
  | conclude hT' ht hd =>
    exact h.finishTransport (fun hc => (ho.read hc (by rw [ht]; rfl)).2)
  | start hT' hd hs => exact ⟨w, h.stage hd (.calling _) (by simp) id⟩
  | @answer _ _ _ _ _ number d hT' hd hs =>
    refine ⟨w, h.stage hd _ (fun r hr => ?_) (fun hc => (Bool.or_eq_false_iff.mp hc).1)⟩
    cases hr
    exact ⟨number, (j.answer_of_fanOut hT' number d.endpoint).symm⟩
  | discard hT' hd hs hw =>
    -- Before a cancellation the raw channel outlives the deliveries.
    refine h.removeDelivery (List.getElem?_eq_some_iff.mp hd).1 ?_
    by_contra hc
    rw [Bool.not_eq_true] at hc
    have := ho.raw_receiving hc (ho.transport_ne_finished hd)
    simp_all
  | emit hT' hd hs hc hr hq => exact h.emit hd hs
  | abort ht hp => exact h.removeDelivery hp (ho.aborting ht)
  | stop hr hc => exact h.finishReconciling (by simp [hc])
  | collect hr hc hq => exact h.collect hr hq
  | drain hr hc hq => exact h.finishReconciling (fun _ => ⟨hq, by rw [hr]; rfl⟩)
  | reconcile hr => exact ⟨w, h.reconcile hr l⟩
  | forsake hr hw =>
    refine h.finishReconciling (fun hc => ?_)
    have := ho.report_receiving hc
    simp_all
  | report hr hc hr' hq => exact h.report hr
  | measure hr =>
    have hreconciler := hl.reconciler
    rw [hr] at hreconciler
    have hl' : Located j { s with reconciler := .finished } w :=
      { hl with reconciler := hreconciler }
    exact ⟨w, h.relocate hl' rfl (fun _ => rfl) (fun hc => ⟨hc, rfl⟩)⟩
  | consume hq => exact h.consume hq
  | cancel hc => exact ⟨w, h.relocate { hl with } rfl (fun _ => rfl) (by simp)⟩
  | drop hr => exact h.drop
  | heed hT' | fetch hT' | miss hT' | crash hT' | call hT' | lose hT' | send hT' | finish hT' =>
    rw [hT] at hT'
    cases hT'

theorem start (hj : j.transport.Routed) : Tracked j j.start {} := by
  have hf := feedStart_of_routed hj ⟨capacity, [], true⟩
  have hpulled : j.start.pulled j = 0 := Nat.sub_self _
  refine ⟨?_, ?_, ?_, fun _ => rfl⟩
  · constructor <;> simp [Job.start, hf, Feeder.held, Reconciler.held, Reconciler.pending]
  · rw [hpulled]
    rfl
  · rw [hpulled]
    exact .refl _

/-- Whatever has happened in a fan-out, its endpoints can be told where they are. -/
theorem exists_of_run {labels : List Label} (hj : j.transport.Routed)
    (hT : j.transport = .fanOut send limit) (hrun : Run j (j.start, l) labels (s, l')) :
    ∃ w, Tracked j s w := by
  have h := hrun.keeps (P := fun s _ => Orderly j s ∧ ∃ w, Tracked j s w)
    (fun hm ⟨ho, _, hw⟩ => ⟨ho.move hj hm, hw.move hT ho hm⟩) ⟨.start hj, {}, .start hj⟩
  exact h.2

end Tracked

end PushDelivery.Dispatch
