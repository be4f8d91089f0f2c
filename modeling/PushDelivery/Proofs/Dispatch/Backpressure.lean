import PushDelivery.Proofs.Dispatch.Whereabouts

/-!
# Bounded concurrency

A fan-out holds a permit while it waits for an endpoint and hands it to the delivery of that
endpoint, which keeps it until its result is on the raw channel. So permits bound the deliveries,
and each channel bounds what stands on it. With the whereabouts of the endpoints this bounds how far
the feeder can be ahead of the consumer.
-/

namespace PushDelivery

def Channel.Within {α : Type} (c : Channel α) : Prop := c.queue.length ≤ c.capacity

namespace Channel.Within

variable {α : Type} {c : Channel α}

theorem push {x : α} (h : c.queue.length < c.capacity) : (c.push x).Within := by
  rw [Within, Channel.push, List.length_append]
  exact h

theorem pop (h : c.Within) : c.pop.Within := by
  have hlength : c.pop.queue.length ≤ c.queue.length := by
    simp [Channel.pop]
  exact Nat.le_trans hlength h

theorem close : c.close.Within := Nat.zero_le _

end Channel.Within

namespace Dispatch

/-- The permit of a fan-out that waits for an endpoint. -/
def TransportTask.permits : TransportTask → Nat
  | .receiving => 1
  | _ => 0

def State.permits (s : State) : Nat := s.deliveries.length + s.transport.permits

/-- With one permit there is at most one delivery. -/
theorem deliveries_eq_of_permits_le {s : State} {place : Nat} {d : Delivery} (h : s.permits ≤ 1)
    (hd : s.deliveries[place]? = some d) : s.deliveries = [d] ∧ place = 0 := by
  rw [State.permits] at h
  obtain ⟨hplace, hget⟩ := List.getElem?_eq_some_iff.mp hd
  obtain ⟨x, hx⟩ := List.length_eq_one_iff.mp (show s.deliveries.length = 1 by omega)
  have hzero : place = 0 := by omega
  subst hzero
  simp only [hx, List.getElem_cons_zero] at hget
  exact ⟨hget ▸ hx, rfl⟩

def State.calls (s : State) : List Delivery := s.deliveries.filter (·.stage matches .calling _)

/-- No more permits are out than there are, and no channel is over its capacity. -/
structure Bounded (limit : Nat) (s : State) : Prop where
  permits : s.permits ≤ limit
  feed : s.feed.Within
  raw : s.raw.Within
  report : s.report.Within

variable {σ : Type} [SubscriptionStore σ] {j : Job} {label : Label} {labels : List Label}
  {s s' : State} {l l' : Ledger σ} {send : Nat → Sender} {limit : Nat}

namespace Bounded

theorem setTransport {t : TransportTask} (h : Bounded limit s)
    (ht : t.permits ≤ s.transport.permits) : Bounded limit { s with transport := t } :=
  { h with permits := Nat.le_trans (Nat.add_le_add_left ht _) h.permits }

theorem removeDelivery {place : Nat} (h : Bounded limit s) :
    Bounded limit (removeDelivery s place) :=
  { h with
    permits := by
      have hlength := List.length_eraseIdx_le s.deliveries place
      exact Nat.le_trans (Nat.add_le_add_right hlength _) h.permits }

theorem stageDelivery {place : Nat} {stage : Stage} (h : Bounded limit s) :
    Bounded limit (stageDelivery s place stage) :=
  { h with
    permits := by
      have := h.permits
      rwa [State.permits, ← List.length_modify (fun d => { d with stage }) s.deliveries place]
        at this }

theorem move (hT : j.transport = .fanOut send limit) (h : Bounded limit s)
    (hm : Move j label s l s' l') : Bounded limit s' := by
  cases hm with
  | exhaust | take | withdraw | reconcile | measure | cancel => exact { h with }
  | offer hf hc hr hq => exact { h with feed := .push hq }
  | acquire hT' ht hc hd =>
    rw [hT] at hT'
    cases hT'
    exact { h with permits := hd }
  | interrupt hT' ht hc => exact h.setTransport (Nat.zero_le _)
  | @accept _ _ _ _ e rest hT' ht hc hq =>
    have hpermits : s.deliveries.length + 1 ≤ limit := by
      simpa [State.permits, TransportTask.permits, ht] using h.permits
    refine { h with permits := ?_, feed := h.feed.pop }
    simpa [State.permits, TransportTask.permits, acceptEndpoint] using hpermits
  | leave | wind => exact h.setTransport (Nat.zero_le _)
  | conclude hT' ht hd =>
    exact { h.setTransport (t := .finished) (Nat.zero_le _) with feed := .close }
  | start hT' hd hs => exact { h.stageDelivery with }
  | answer hT' hd hs => exact { h.stageDelivery with }
  | discard | abort => exact h.removeDelivery
  | @emit _ _ _ _ place _ _ hT' hd hs hc hr hq =>
    have h₁ : Bounded limit (Dispatch.removeDelivery s place) := h.removeDelivery
    exact { h₁ with raw := .push hq }
  | stop | drain | forsake => exact { h with raw := .close }
  | collect => exact { h with raw := h.raw.pop }
  | report hr hc hr' hq => exact { h with report := .push hq }
  | consume => exact { h with report := h.report.pop }
  | drop => exact { h with report := .close }
  | heed hT' | fetch hT' | miss hT' | crash hT' | call hT' | lose hT' | send hT' | finish hT' =>
    rw [hT] at hT'
    cases hT'

theorem start (hj : j.transport.Routed) (limit : Nat) : Bounded limit j.start := by
  have hf := feedStart_of_routed hj ⟨capacity, [], true⟩
  rcases transportStart_of_routed hj with ht | ht <;> constructor <;>
    simp [Job.start, hf, ht, State.permits, TransportTask.permits, Channel.Within]

theorem of_run (hj : j.transport.Routed) (hT : j.transport = .fanOut send limit)
    (hrun : Run j (j.start, l) labels (s, l')) : Bounded limit s :=
  hrun.keeps (P := fun s _ => Bounded limit s) (fun hm h => h.move hT hm) (.start hj limit)

theorem calls_le (h : Bounded limit s) : s.calls.length ≤ limit := by
  have hcalls : s.calls.length ≤ s.deliveries.length := List.length_filter_le ..
  have := h.permits
  rw [State.permits] at this
  omega

end Bounded

/-- What was read and has not been emitted is in a delivery. -/
theorem Passage.accepted_le (h : Passage j s) (hb : Bounded limit s)
    (hT : j.transport = .fanOut send limit) :
    s.history.accepted.length ≤ s.history.emitted.length + limit := by
  have hcalled := (h.called send limit hT).length_eq
  have hanswered := (h.answered send limit hT).length_eq
  have hdeliveries := length_pending_add_length_uncalled j s
  have hpermits := hb.permits
  simp only [List.length_append, List.length_map, List.length_zipIdx] at hcalled hanswered
  rw [State.permits] at hpermits
  omega

/-- The feeder is ahead of the consumer by what the deliveries, the three channels, the reconciler
and the feeder itself can hold. -/
theorem Tracked.pulled_le {w : Whereabouts} (h : Tracked j s w) (ho : Orderly j s)
    (hb : Bounded limit s) (hc : s.cancelled = false) :
    s.pulled j ≤ s.history.taken.length + (limit + 5) := by
  have hl := h.located
  have hfeeder : w.feeder.length ≤ 1 := by
    rw [hl.feeder.length_eq]
    cases s.feeder <;> simp [Feeder.held]
  have hreconciler : w.reconciler.length ≤ 1 := by
    rw [hl.reconciler.length_eq]
    cases s.reconciler <;> simp [Reconciler.held, Reconciler.pending]
  have hdeliveries : w.deliveries.length ≤ limit := by
    have := hb.permits
    rw [State.permits] at this
    rw [hl.deliveries.length_eq]
    omega
  have hfeed : w.feed.length ≤ capacity := by
    rw [hl.feed.length_eq, ← ho.feed_capacity]
    exact hb.feed
  have hraw : w.raw.length ≤ capacity := by
    rw [hl.raw.length_eq, ← ho.raw_capacity]
    exact hb.raw
  have hreport : w.report.length ≤ capacity := by
    rw [hl.report.length_eq, ← ho.report_capacity]
    exact hb.report
  have hconsumer := hl.consumer.length_eq
  have hall := h.all.length_eq
  simp only [Whereabouts.all, Whereabouts.places, h.kept hc, List.append_nil, List.length_append,
    List.length_range] at hall
  rw [capacity] at hfeed hraw hreport
  omega

/-- Wherever a fan-out with `m` permits has come to, cancelled or not, at most `m` calls of the
sender run and each endpoint that the feeder took is in one place at most. Before a cancellation it
is in one place, at most `m` endpoints are inside the transport, and the feeder is ahead of the
consumer by `m + 5` at most. -/
theorem bounded_concurrency {send : Nat → Sender} {limit : UInt64}
    (hj : j.transport = .ofCalls send limit) (hlimit : limit.toNat ≤ Transport.maxPermits)
    (hrun : Run j (j.start, l) labels (s, l')) :
    s.calls.length ≤ max limit.toNat 1 ∧
    (s.cancelled = false →
      s.history.accepted.length ≤ s.history.emitted.length + max limit.toNat 1 ∧
      s.pulled j ≤ s.history.taken.length + (max limit.toNat 1 + 5)) ∧
    j.endpoints.drop (s.pulled j) = s.unfed ∧
    ∃ w, Located j s w ∧ w.places.Nodup ∧ (∀ i ∈ w.places, i < s.pulled j) ∧
      (s.cancelled = false → ∀ i < s.pulled j, i ∈ w.places) := by
  have hrouted : j.transport.Routed := hj ▸ .ofCalls send hlimit
  rw [Transport.ofCalls, Nat.max_comm] at hj
  have ho := Orderly.of_run hrouted hrun
  have hb := Bounded.of_run hrouted hj hrun
  obtain ⟨w, hw⟩ := Tracked.exists_of_run hrouted hj hrun
  have hnodup : w.all.Nodup := hw.all.nodup_iff.mpr List.nodup_range
  have hmem : ∀ i, i ∈ w.all ↔ i < s.pulled j := fun i => by
    rw [hw.all.mem_iff, List.mem_range]
  refine ⟨hb.calls_le, fun hc => ⟨?_, hw.pulled_le ho hb hc⟩, hw.unfed, w, hw.located, ?_, ?_, ?_⟩
  · exact (Passage.of_run hrouted hrun hc).accepted_le hb hj
  · exact (List.nodup_append.mp hnodup).1
  · exact fun i hi => (hmem i).mp (List.mem_append_left _ hi)
  · intro hc i hi
    have := (hmem i).mpr hi
    rwa [Whereabouts.all, hw.kept hc, List.append_nil] at this

/-- With one permit and a consumer that does not read, the feeder comes to be six ahead. -/
theorem bounded_concurrency_of_idle_consumer :
    let endpoints : List Endpoint :=
      ["a", "b", "c", "d", "e", "f", "g"].map fun key => ⟨1, "gcm", key, none, ∅⟩
    let j : Job :=
      ⟨⟨1, 1, "main", "gcm", ∅⟩, {}, endpoints, .ofLimit .idle 1, fun _ _ => false, ⟨0⟩⟩
    ∃ labels s l, Run j (j.start, (⟨{}, [], none⟩ : Ledger MemoryStore)) labels (s, l) ∧
      s.pulled j = 6 ∧ s.history.taken = [] ∧
      s.pulled j ≤ s.history.taken.length + (max (1 : UInt64).toNat 1 + 5) := by
  intro endpoints j
  let delivered : List Label :=
    [.feeder, .feeder, .transport, .transport, .delivery 0, .delivery 0, .delivery 0]
  let collected : List Label := delivered ++ [.reconciler, .reconciler]
  let labels : List Label := collected ++ [.reconciler] ++ collected ++ delivered ++
    delivered.dropLast ++ [.feeder, .feeder] ++ [.feeder]
  have hfold : (labels.foldlM (fun c label => step j label c.1 c.2)
      (j.start, (⟨{}, [], none⟩ : Ledger MemoryStore))).map
        (fun c => (c.1.pulled j, c.1.history.taken, c.1.cancelled)) = some (6, [], false) := by
    decide +kernel
  obtain ⟨⟨s, l⟩, hrun, hs⟩ := exists_run_of_foldlM hfold
  obtain ⟨hpulled, htaken, hc⟩ : s.pulled j = 6 ∧ s.history.taken = [] ∧ s.cancelled = false := by
    simpa using hs
  exact ⟨labels, s, l, hrun, hpulled, htaken,
    ((bounded_concurrency rfl (by decide) hrun).2.1 hc).2⟩

end Dispatch

end PushDelivery
