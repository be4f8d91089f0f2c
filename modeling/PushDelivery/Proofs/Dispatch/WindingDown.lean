import PushDelivery.Proofs.Dispatch.Completion

/-!
# Every dispatch winds down

Whatever has happened in a dispatch so far, and whether its provider type is served by a fan-out or
by nothing, it can be brought to its end and cannot be kept from it. As long as the consumer reads,
some move is enabled until all tasks have finished and the stream has ended. After a cancellation,
or the loss of the consumer, the tasks do it alone. Each move takes some of `State.work`, so an end
is reached after a bounded number of moves, whichever are made.
-/

namespace PushDelivery.Dispatch

variable {σ : Type} [SubscriptionStore σ] {j : Job} {label : Label} {s s' : State}
  {l l' : Ledger σ}

/-- No move of a kind is enabled. -/
def Halted (kind : Label → Bool) (j : Job) (s : State) (l : Ledger σ) : Prop :=
  ∀ label, kind label = true → step j label s l = none

/-- The moves of a kind bring a dispatch to where it is done, whichever of them are made. -/
structure Winds (kind : Label → Bool) (done : State → Prop) (j : Job) (s : State) (l : Ledger σ) :
    Prop where
  /-- There is a move until all is done. -/
  progress : ¬ done s → ∃ label, kind label = true ∧ step j label s l ≠ none
  /-- No run is longer than there is work for. -/
  bounded : ∀ labels c, Run j (s, l) labels c → labels.length ≤ s.work
  /-- A run that these moves cannot continue has come to where all is done. -/
  halted : ∀ labels c, Run j (s, l) labels c → Halted kind j c.1 c.2 → done c.1
  /-- These moves come there. -/
  reached : ∃ labels c, Run j (s, l) labels c ∧ (∀ label ∈ labels, kind label = true) ∧ done c.1

/-- Moves of a kind can be made until none is enabled. -/
theorem exists_run_halted (hj : j.transport.Routed) (kind : Label → Bool) (s : State)
    (l : Ledger σ) :
    ∃ labels c, Run j (s, l) labels c ∧ (∀ label ∈ labels, kind label = true) ∧
      Halted kind j c.1 c.2 := by
  induction hn : s.work using Nat.strongRecOn generalizing s l with
  | ind n ih =>
    by_cases hh : Halted kind j s l
    · exact ⟨[], (s, l), .nil _, by simp, hh⟩
    · simp only [Halted, not_forall] at hh
      obtain ⟨label, hkind, hstep⟩ := hh
      obtain ⟨⟨s₁, l₁⟩, hs⟩ := Option.ne_none_iff_exists'.mp hstep
      have hlt := (step_eq_some_iff.mp hs).work_lt hj
      obtain ⟨labels, c, hrun, hlabels, hc⟩ := ih s₁.work (hn ▸ hlt) s₁ l₁ rfl
      exact ⟨label :: labels, c, .cons hs hrun, by simpa [hkind] using hlabels, hc⟩

/-- It is enough that all is done wherever no move of the kind is enabled. -/
theorem Winds.of_halted (hj : j.transport.Routed) {kind : Label → Bool} {done : State → Prop}
    (h : ∀ labels c, Run j (s, l) labels c → Halted kind j c.1 c.2 → done c.1) :
    Winds kind done j s l where
  progress hdone := by
    by_contra hnone
    refine hdone (h [] (s, l) (.nil _) fun label hkind => ?_)
    by_contra hstep
    exact hnone ⟨label, hkind, hstep⟩
  bounded labels c hrun := by
    have := hrun.length_add_work_le hj
    dsimp only at this
    omega
  halted := h
  reached := by
    obtain ⟨labels, c, hrun, hlabels, hc⟩ := exists_run_halted hj kind s l
    exact ⟨labels, c, hrun, hlabels, h labels c hrun hc⟩

theorem Run.append {c c' c'' : State × Ledger σ} {labels labels' : List Label}
    (hrun : Run j c labels c') (hrun' : Run j c' labels' c'') :
    Run j c (labels ++ labels') c'' := by
  induction hrun with
  | nil c => exact hrun'
  | cons hs _ ih => exact .cons hs (ih hrun')

theorem Run.cancelled {c c' : State × Ledger σ} {labels : List Label} (hrun : Run j c labels c')
    (hc : c.1.cancelled = true) : c'.1.cancelled = true := by
  refine hrun.keeps (P := fun s _ => s.cancelled = true) (fun hm h => ?_) hc
  by_contra hn
  rw [Bool.not_eq_true] at hn
  rw [hm.cancelled_eq_false hn] at h
  cases h

/-- From every state that a dispatch can come to, by any moves, a reading consumer brings it to its
end, and after a cancellation the tasks do so by themselves. Every move takes some of the work. -/
theorem winds_down {labels : List Label} {registry : Registry Transport}
    (hregistry : registry.FansOut) (hj : j.transport = registry.route j.provider.providerType)
    (hrun : Run j (j.start, l) labels (s, l')) :
    (∀ label t m, step j label s l' = some (t, m) → t.work < s.work) ∧
    Winds Label.isOrdinary (fun t => t.finished = true ∧ t.ended = true) j s l' ∧
    (s.cancelled = true →
      Winds Label.isTask (fun t => t.finished = true ∧ t.reconciler.hasLeft = true) j s l') := by
  have hrouted : j.transport.Routed := hj ▸ hregistry.routed _
  refine ⟨fun label t m hs => (step_eq_some_iff.mp hs).work_lt hrouted, ?_, fun hc => ?_⟩
  · refine .of_halted hrouted fun labels' c hrun' hhalted => ?_
    have ho := Orderly.of_run hrouted (hrun.append hrun')
    have hrest : AtRest j c.1 c.2 := hhalted
    exact ⟨hrest.finished ho hrouted, hrest.ended ho hrouted⟩
  · refine .of_halted hrouted fun labels' c hrun' hhalted => ?_
    have ho := Orderly.of_run hrouted (hrun.append hrun')
    have hstuck : Stuck j c.1 c.2 := hhalted
    have hfinished := hstuck.finished ho (.inl (hrun'.cancelled hc)) hrouted
    refine ⟨hfinished, ?_⟩
    rw [(finished_iff.mp hfinished).2.2.2]
    rfl

/-- The consumer drops the stream while a sender's call is running and the feeder waits. -/
theorem winds_down_after_drop :
    let a : Endpoint := ⟨1, "gcm", "a", none, ∅⟩
    let b : Endpoint := ⟨1, "gcm", "b", none, ∅⟩
    let c : Endpoint := ⟨1, "gcm", "c", none, ∅⟩
    let j : Job :=
      ⟨⟨1, 1, "main", "gcm", ∅⟩, {}, [a, b, c], .ofLimit .idle 0, fun _ _ => false, ⟨0⟩⟩
    ∃ s l, Run j (j.start, (⟨{}, [], none⟩ : Ledger MemoryStore))
        [.feeder, .feeder, .transport, .transport, .delivery 0, .feeder, .feeder, .feeder, .drop]
        (s, l) ∧
      s.feeder = .offering c ∧ s.deliveries = [⟨a, .calling 0⟩] ∧ s.report.receiving = false ∧
      Winds Label.isTask (fun t => t.finished = true ∧ t.reconciler.hasLeft = true) j s l := by
  intro a b c j
  let registry : Registry Transport := Registry.withTransport {} "gcm" (.ofLimit .idle 0)
  have hregistry : registry.FansOut := by
    intro providerType transport ht
    simp only [registry, Registry.withTransport, Registry.register, Registry.get?,
      Std.ExtTreeMap.getElem?_insert] at ht
    split at ht
    next => exact ⟨_, 0, (Option.some.inj ht).symm, by decide⟩
    next => cases ht
  have hj : j.transport = registry.route j.provider.providerType := by
    simp [registry, j, Registry.route, Registry.get?, Registry.withTransport, Registry.register]
  have hrun : ∃ s l, Run j (j.start, (⟨{}, [], none⟩ : Ledger MemoryStore))
      [.feeder, .feeder, .transport, .transport, .delivery 0, .feeder, .feeder, .feeder, .drop]
      (s, l) ∧ s.feeder = .offering c ∧ s.deliveries = [⟨a, .calling 0⟩] ∧
        s.report.receiving = false ∧ s.cancelled = true :=
    ⟨_, _, .cons rfl (.cons rfl (.cons rfl (.cons rfl (.cons rfl (.cons rfl (.cons rfl (.cons rfl
      (.cons rfl (.nil _))))))))), rfl, rfl, rfl, rfl⟩
  obtain ⟨s, l, hrun, hf, hd, hr, hc⟩ := hrun
  exact ⟨s, l, hrun, hf, hd, hr, (winds_down hregistry hj hrun).2.2 hc⟩

end PushDelivery.Dispatch
