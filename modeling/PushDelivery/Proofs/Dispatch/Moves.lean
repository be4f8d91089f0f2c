import PushDelivery.Dispatch.Step

/-!
# The moves of a dispatch, one by one

`Move` lists what the tasks of a dispatch can do, one rule for each branch of a task's loop, with
everything that the branch asks for and everything that it changes. `step_eq_some_iff` says that the
rules are exactly the enabled steps. All later case distinctions are over rules and not over the
code of the tasks, so a task that changes has its rules changed and nothing else taken apart.

The store enters one rule only, `reconcile`. The metrics enter that rule and `measure`.
-/

namespace PushDelivery.Dispatch

/-- What a task can do: its label, and the state and the ledger before and after. -/
inductive Move {σ : Type} [SubscriptionStore σ] (j : Job) :
    Label → State → Ledger σ → State → Ledger σ → Prop
  /-- The feeder has offered everything. -/
  | exhaust {s : State} {l : Ledger σ} : s.feeder = .idle → s.unfed = [] →
      Move j .feeder s l { s with feeder := .finished } l
  | take {s : State} {l : Ledger σ} {e : Endpoint} {rest : List Endpoint} :
      s.feeder = .idle → s.unfed = e :: rest →
      Move j .feeder s l { s with feeder := .offering e, unfed := rest } l
  /-- The feeder gives up the endpoint that it has. -/
  | withdraw {s : State} {l : Ledger σ} {e : Endpoint} :
      s.feeder = .offering e → (s.cancelled = true ∨ s.feed.receiving = false) →
      Move j .feeder s l { s with feeder := .finished } l
  | offer {s : State} {l : Ledger σ} {e : Endpoint} :
      s.feeder = .offering e → s.cancelled = false → s.feed.receiving = true →
      s.feed.queue.length < s.feed.capacity →
      Move j .feeder s l { s with feeder := .idle, feed := s.feed.push e } l
  | acquire {s : State} {l : Ledger σ} {send : Nat → Sender} {limit : Nat} :
      j.transport = .fanOut send limit → s.transport = .acquiring → s.cancelled = false →
      s.deliveries.length < limit →
      Move j .transport s l { s with transport := .receiving } l
  /-- A fan-out leaves its loop because the dispatch was cancelled. -/
  | interrupt {s : State} {l : Ledger σ} {send : Nat → Sender} {limit : Nat} :
      j.transport = .fanOut send limit →
      (s.transport = .acquiring ∨ s.transport = .receiving) → s.cancelled = true →
      Move j .transport s l { s with transport := .leaving } l
  | accept {s : State} {l : Ledger σ} {send : Nat → Sender} {limit : Nat} {e : Endpoint}
      {rest : List Endpoint} :
      j.transport = .fanOut send limit → s.transport = .receiving → s.cancelled = false →
      s.feed.queue = e :: rest →
      Move j .transport s l
        { acceptEndpoint s e with
          transport := .acquiring, deliveries := s.deliveries ++ [{ endpoint := e }] } l
  /-- A fan-out leaves its loop because the feed has ended. -/
  | leave {s : State} {l : Ledger σ} {send : Nat → Sender} {limit : Nat} :
      j.transport = .fanOut send limit → s.transport = .receiving → s.cancelled = false →
      s.feed.queue = [] → s.feeder = .finished →
      Move j .transport s l { s with transport := .leaving } l
  | wind {s : State} {l : Ledger σ} {send : Nat → Sender} {limit : Nat} :
      j.transport = .fanOut send limit → s.transport = .leaving →
      Move j .transport s l { s with transport := .winding s.cancelled } l
  | conclude {s : State} {l : Ledger σ} {send : Nat → Sender} {limit : Nat} {aborting : Bool} :
      j.transport = .fanOut send limit → s.transport = .winding aborting → s.deliveries = [] →
      Move j .transport s l (finishTransport s) l
  /-- A sequential transport takes a cancellation for the end of the feed. -/
  | heed {s : State} {l : Ledger σ} {next : Provider → Notification → List Observation → Action}
      {seen : List Observation} :
      j.transport = .sequential next → s.transport = .acting seen →
      next j.provider j.notification seen = .receive true → s.cancelled = true →
      Move j .transport s l { s with transport := .acting (.received none :: seen) } l
  | fetch {s : State} {l : Ledger σ} {next : Provider → Notification → List Observation → Action}
      {seen : List Observation} {heedful : Bool} {e : Endpoint} {rest : List Endpoint} :
      j.transport = .sequential next → s.transport = .acting seen →
      next j.provider j.notification seen = .receive heedful →
      (heedful && s.cancelled) = false → s.feed.queue = e :: rest →
      Move j .transport s l
        { acceptEndpoint s e with transport := .acting (.received (some e) :: seen) } l
  /-- A sequential transport sees the end of the feed. -/
  | miss {s : State} {l : Ledger σ} {next : Provider → Notification → List Observation → Action}
      {seen : List Observation} {heedful : Bool} :
      j.transport = .sequential next → s.transport = .acting seen →
      next j.provider j.notification seen = .receive heedful →
      (heedful && s.cancelled) = false → s.feed.queue = [] → s.feeder = .finished →
      Move j .transport s l { s with transport := .acting (.received none :: seen) } l
  | crash {s : State} {l : Ledger σ} {next : Provider → Notification → List Observation → Action}
      {seen : List Observation} {e : Endpoint} {outcome : SendOutcome} :
      j.transport = .sequential next → s.transport = .acting seen →
      next j.provider j.notification seen = .call e outcome → outcome.verdict = .crashed →
      Move j .transport s l
        (finishTransport { s with history.called := s.history.called ++ [e] }) l
  | call {s : State} {l : Ledger σ} {next : Provider → Notification → List Observation → Action}
      {seen : List Observation} {e : Endpoint} {outcome : SendOutcome} :
      j.transport = .sequential next → s.transport = .acting seen →
      next j.provider j.notification seen = .call e outcome → outcome.verdict ≠ .crashed →
      Move j .transport s l
        { s with
          transport := .acting (.called outcome :: seen)
          history.called := s.history.called ++ [e] } l
  /-- A sequential transport finds that its results have no reader. -/
  | lose {s : State} {l : Ledger σ} {next : Provider → Notification → List Observation → Action}
      {seen : List Observation} {r : DeliveryResult} :
      j.transport = .sequential next → s.transport = .acting seen →
      next j.provider j.notification seen = .send r → s.raw.receiving = false →
      Move j .transport s l { s with transport := .acting (.sent false :: seen) } l
  | send {s : State} {l : Ledger σ} {next : Provider → Notification → List Observation → Action}
      {seen : List Observation} {r : DeliveryResult} :
      j.transport = .sequential next → s.transport = .acting seen →
      next j.provider j.notification seen = .send r → s.raw.receiving = true →
      s.raw.queue.length < s.raw.capacity →
      Move j .transport s l (emit { s with transport := .acting (.sent true :: seen) } r) l
  | finish {s : State} {l : Ledger σ}
      {next : Provider → Notification → List Observation → Action} {seen : List Observation} :
      j.transport = .sequential next → s.transport = .acting seen →
      next j.provider j.notification seen = .finish →
      Move j .transport s l (finishTransport s) l
  /-- A delivery calls the sender. -/
  | start {s : State} {l : Ledger σ} {sender : Nat → Sender} {limit place : Nat} {d : Delivery} :
      j.transport = .fanOut sender limit → s.deliveries[place]? = some d → d.stage = .queued →
      Move j (.delivery place) s l
        (stageDelivery { s with history.called := s.history.called ++ [d.endpoint] }
          place (.calling s.history.called.length)) l
  /-- A sender's call comes back. -/
  | answer {s : State} {l : Ledger σ} {sender : Nat → Sender} {limit place number : Nat}
      {d : Delivery} :
      j.transport = .fanOut sender limit → s.deliveries[place]? = some d →
      d.stage = .calling number →
      Move j (.delivery place) s l
        (stageDelivery { s with cancelled := s.cancelled || j.cancels number d.endpoint } place
          (.reporting ((sender number j.provider j.notification d.endpoint).result j.provider
            d.endpoint))) l
  /-- A delivery drops its result. -/
  | discard {s : State} {l : Ledger σ} {sender : Nat → Sender} {limit place : Nat} {d : Delivery}
      {r : DeliveryResult} :
      j.transport = .fanOut sender limit → s.deliveries[place]? = some d →
      d.stage = .reporting r → (s.cancelled = true ∨ s.raw.receiving = false) →
      Move j (.delivery place) s l (removeDelivery s place) l
  | emit {s : State} {l : Ledger σ} {sender : Nat → Sender} {limit place : Nat} {d : Delivery}
      {r : DeliveryResult} :
      j.transport = .fanOut sender limit → s.deliveries[place]? = some d →
      d.stage = .reporting r → s.cancelled = false → s.raw.receiving = true →
      s.raw.queue.length < s.raw.capacity →
      Move j (.delivery place) s l (Dispatch.emit (removeDelivery s place) r) l
  | abort {s : State} {l : Ledger σ} {place : Nat} :
      s.transport = .winding true → place < s.deliveries.length →
      Move j (.abort place) s l (removeDelivery s place) l
  /-- The reconciler ends because the dispatch was cancelled. -/
  | stop {s : State} {l : Ledger σ} : s.reconciler = .receiving → s.cancelled = true →
      Move j .reconciler s l (finishReconciling s) l
  | collect {s : State} {l : Ledger σ} {r : DeliveryResult} {rest : List DeliveryResult} :
      s.reconciler = .receiving → s.cancelled = false → s.raw.queue = r :: rest →
      Move j .reconciler s l { s with reconciler := .holding r, raw := s.raw.pop } l
  /-- The reconciler ends because no result can come any more. -/
  | drain {s : State} {l : Ledger σ} : s.reconciler = .receiving → s.cancelled = false →
      s.raw.queue = [] → s.transport = .finished → s.deliveries = [] →
      Move j .reconciler s l (finishReconciling s) l
  | reconcile {s : State} {l : Ledger σ} {r : DeliveryResult} : s.reconciler = .holding r →
      Move j .reconciler s l
        { s with
          reconciler := .reporting (l.reconcile r).1
          history.reconciled := s.history.reconciled ++ [r] }
        ((l.reconcile r).2.observe (·.observeResult (l.reconcile r).1))
  /-- The reconciler ends without a report of the result that it has. -/
  | forsake {s : State} {l : Ledger σ} {r : DeliveryResult} : s.reconciler = .reporting r →
      (s.cancelled = true ∨ s.report.receiving = false) →
      Move j .reconciler s l (finishReconciling s) l
  | report {s : State} {l : Ledger σ} {r : DeliveryResult} : s.reconciler = .reporting r →
      s.cancelled = false → s.report.receiving = true →
      s.report.queue.length < s.report.capacity →
      Move j .reconciler s l
        { s with
          reconciler := .receiving
          report := s.report.push r
          history.reported := s.history.reported ++ [r] } l
  | measure {s : State} {l : Ledger σ} : s.reconciler = .measuring →
      Move j .reconciler s l { s with reconciler := .finished }
        (l.observe (·.observeDuration j.provider.providerType j.elapsed))
  | consume {s : State} {l : Ledger σ} {r : DeliveryResult} {rest : List DeliveryResult} :
      s.report.queue = r :: rest →
      Move j .consume s l
        { s with report := s.report.pop, history.taken := s.history.taken ++ [r] } l
  | cancel {s : State} {l : Ledger σ} : s.cancelled = false →
      Move j .cancel s l { s with cancelled := true } l
  | drop {s : State} {l : Ledger σ} : s.report.receiving = true →
      Move j .drop s l { s with cancelled := true, report := s.report.close } l

variable {σ : Type} [SubscriptionStore σ] {j : Job} {label : Label} {s s' : State}
  {l l' : Ledger σ}

@[simp] theorem feedEnded_iff : s.feedEnded = true ↔ s.feed.queue = [] ∧ s.feeder = .finished := by
  simp [State.feedEnded]

@[simp] theorem rawEnded_iff :
    s.rawEnded = true ↔ s.raw.queue = [] ∧ s.transport = .finished ∧ s.deliveries = [] := by
  simp [State.rawEnded, and_assoc]

@[simp] theorem ended_iff : s.ended = true ↔
    s.report.queue = [] ∧ (s.reconciler = .measuring ∨ s.reconciler = .finished) := by
  simp [State.ended]

@[simp] theorem finished_iff : s.finished = true ↔ s.feeder = .finished ∧
    s.transport = .finished ∧ s.deliveries = [] ∧ s.reconciler = .finished := by
  simp [State.finished, and_assoc]

@[simp] theorem hasRoom_iff {α : Type} {c : Channel α} :
    c.hasRoom = true ↔ c.queue.length < c.capacity := by
  simp [Channel.hasRoom]

theorem Move.step_eq_some (h : Move j label s l s' l') : step j label s l = some (s', l') := by
  cases h
  case interrupt hj ht hc =>
    rcases ht with ht | ht <;> simp [step, transportStep, hj, ht, hc]
  all_goals
    simp_all [step, feederStep, transportStep, actionStep, deliveryStep, abortStep, reconcilerStep,
      consumeStep, acceptEndpoint, Channel.hasRoom, State.feedEnded, State.rawEnded]

/-- A cancellation is never taken back. -/
theorem Move.cancelled_eq_false (hm : Move j label s l s' l') (hc : s'.cancelled = false) :
    s.cancelled = false := by
  cases hm <;> simp_all [acceptEndpoint, finishTransport, Dispatch.emit, stageDelivery,
    removeDelivery, finishReconciling]

theorem Move.of_feederStep (h : feederStep s = some s') : Move j .feeder s l s' l := by
  unfold feederStep at h
  split at h
  next hf =>
    split at h <;> cases h
    next hu => exact .exhaust hf hu
    next hu => exact .take hf hu
  next e hf =>
    split at h
    next hw =>
      cases h
      exact .withdraw hf (by simpa using hw)
    next hw =>
      split at h <;> cases h
      next hr =>
        simp only [Bool.or_eq_true, Bool.not_eq_true', not_or, Bool.not_eq_true,
          Bool.not_eq_false] at hw
        exact .offer hf hw.1 hw.2 (hasRoom_iff.mp hr)
  next => cases h

theorem Move.of_actionStep {next : Provider → Notification → List Observation → Action}
    {seen : List Observation} (hj : j.transport = .sequential next)
    (ht : s.transport = .acting seen)
    (h : actionStep s seen (next j.provider j.notification seen) = some s') :
    Move j .transport s l s' l := by
  cases ha : next j.provider j.notification seen with
  | receive heedful =>
    simp only [ha, actionStep] at h
    split at h
    next hc =>
      cases h
      rw [Bool.and_eq_true] at hc
      exact .heed hj ht (by rw [ha, hc.1]) hc.2
    next hc =>
      rw [Bool.not_eq_true] at hc
      split at h
      next hq =>
        cases h
        exact .fetch hj ht ha hc hq
      next hq =>
        split at h <;> cases h
        next he => exact .miss hj ht ha hc hq (feedEnded_iff.mp he).2
  | call e outcome =>
    simp only [ha, actionStep] at h
    split at h <;> cases h
    next hv => exact .crash hj ht ha hv
    next hv => exact .call hj ht ha hv
  | send r =>
    simp only [ha, actionStep] at h
    split at h
    next hr =>
      cases h
      exact .lose hj ht ha (by simpa using hr)
    next hr =>
      split at h <;> cases h
      next hq => exact .send hj ht ha (by simpa using hr) (hasRoom_iff.mp hq)
  | finish =>
    simp only [ha, actionStep] at h
    cases h
    exact .finish hj ht ha

theorem Move.of_transportStep (h : transportStep j s = some s') : Move j .transport s l s' l := by
  unfold transportStep at h
  split at h
  next ht hj =>
    split at h
    next hc =>
      cases h
      exact .interrupt hj (.inl ht) hc
    next hc =>
      split at h <;> cases h
      next hd => exact .acquire hj ht (by simpa using hc) hd
  next ht hj =>
    split at h
    next hc =>
      cases h
      exact .interrupt hj (.inr ht) hc
    next hc =>
      rw [Bool.not_eq_true] at hc
      split at h
      next hq =>
        cases h
        exact .accept hj ht hc hq
      next hq =>
        split at h <;> cases h
        next he => exact .leave hj ht hc hq (feedEnded_iff.mp he).2
  next ht hj =>
    cases h
    exact .wind hj ht
  next ht hj =>
    split at h <;> cases h
    next hd => exact .conclude hj ht (List.isEmpty_iff.mp hd)
  next ht hj => exact .of_actionStep hj ht h
  next => cases h

theorem Move.of_deliveryStep {place : Nat} (h : deliveryStep j s place = some s') :
    Move j (.delivery place) s l s' l := by
  unfold deliveryStep at h
  split at h
  next d sender limit hd hj =>
    split at h
    next hs =>
      cases h
      exact .start hj hd hs
    next hs =>
      cases h
      exact .answer hj hd hs
    next r hs =>
      split at h
      next hw =>
        cases h
        exact .discard hj hd hs (by simpa using hw)
      next hw =>
        split at h <;> cases h
        next hq =>
          simp only [Bool.or_eq_true, Bool.not_eq_true', not_or, Bool.not_eq_true,
            Bool.not_eq_false] at hw
          exact .emit hj hd hs hw.1 hw.2 (hasRoom_iff.mp hq)
  next => cases h

theorem Move.of_reconcilerStep (h : reconcilerStep j s l = some (s', l')) :
    Move j .reconciler s l s' l' := by
  unfold reconcilerStep at h
  split at h
  next hr =>
    split at h
    next hc =>
      cases h
      exact .stop hr hc
    next hc =>
      rw [Bool.not_eq_true] at hc
      split at h
      next hq =>
        cases h
        exact .collect hr hc hq
      next hq =>
        split at h <;> cases h
        next he => exact .drain hr hc hq (rawEnded_iff.mp he).2.1 (rawEnded_iff.mp he).2.2
  next hr =>
    cases h
    exact .reconcile hr
  next hr =>
    split at h
    next hw =>
      cases h
      exact .forsake hr (by simpa using hw)
    next hw =>
      split at h <;> cases h
      next hq =>
        simp only [Bool.or_eq_true, Bool.not_eq_true', not_or, Bool.not_eq_true,
          Bool.not_eq_false] at hw
        exact .report hr hw.1 hw.2 (hasRoom_iff.mp hq)
  next hr =>
    cases h
    exact .measure hr
  next => cases h

/-- The rules are exactly the enabled steps. -/
theorem step_eq_some_iff : step j label s l = some (s', l') ↔ Move j label s l s' l' := by
  refine ⟨fun h => ?_, Move.step_eq_some⟩
  cases label with
  | feeder =>
    obtain ⟨u, hu, hs⟩ := Option.map_eq_some_iff.mp h
    cases hs
    exact .of_feederStep hu
  | transport =>
    obtain ⟨u, hu, hs⟩ := Option.map_eq_some_iff.mp h
    cases hs
    exact .of_transportStep hu
  | delivery place =>
    obtain ⟨u, hu, hs⟩ := Option.map_eq_some_iff.mp h
    cases hs
    exact .of_deliveryStep hu
  | abort place =>
    obtain ⟨u, hu, hs⟩ := Option.map_eq_some_iff.mp h
    cases hs
    unfold abortStep at hu
    split at hu <;> cases hu
    next ha => exact .abort ha.1 ha.2
  | reconciler => exact .of_reconcilerStep h
  | consume =>
    obtain ⟨u, hu, hs⟩ := Option.map_eq_some_iff.mp h
    cases hs
    unfold consumeStep at hu
    split at hu <;> cases hu
    next hq => exact .consume hq
  | cancel =>
    simp only [step] at h
    split at h <;> cases h
    next hc => exact .cancel (by simpa using hc)
  | drop =>
    simp only [step] at h
    split at h <;> cases h
    next hr => exact .drop hr

/-- What every move keeps, a run keeps. -/
theorem Run.keeps {P : State → Ledger σ → Prop} {c c' : State × Ledger σ} {labels : List Label}
    (hrun : Run j c labels c')
    (hP : ∀ {label s l s' l'}, Move j label s l s' l' → P s l → P s' l') (h : P c.1 c.2) :
    P c'.1 c'.2 := by
  induction hrun with
  | nil c => exact h
  | cons hs _ ih => exact ih (hP (step_eq_some_iff.mp hs) h)

/-- A run is computed from its labels. -/
theorem run_iff_foldlM {c c' : State × Ledger σ} {labels : List Label} :
    Run j c labels c' ↔
      labels.foldlM (fun c label => step j label c.1 c.2) c = some c' := by
  induction labels generalizing c with
  | nil =>
    rw [List.foldlM_nil]
    refine ⟨fun h => ?_, fun h => ?_⟩
    · cases h
      rfl
    · cases h
      exact .nil _
  | cons label labels ih =>
    rw [List.foldlM_cons]
    refine ⟨fun h => ?_, fun h => ?_⟩
    · cases h with
      | cons hs hrun => exact Option.bind_eq_some_iff.mpr ⟨_, hs, ih.mp hrun⟩
    · obtain ⟨c₁, hs, hrun⟩ := Option.bind_eq_some_iff.mp h
      exact .cons hs (ih.mpr hrun)

/-- What is computed of the end of a run holds of some end of such a run. -/
theorem exists_run_of_foldlM {β : Type} {f : State × Ledger σ → β} {b : β}
    {c : State × Ledger σ} {labels : List Label}
    (h : (labels.foldlM (fun c label => step j label c.1 c.2) c).map f = some b) :
    ∃ c', Run j c labels c' ∧ f c' = b := by
  obtain ⟨c', hfold, hf⟩ := Option.map_eq_some_iff.mp h
  exact ⟨c', run_iff_foldlM.mpr hfold, hf⟩

/-- A place of a list, with what replacing and removing do there. -/
theorem exists_eq_append_of_getElem? {α : Type} {xs : List α} {place : Nat} {x : α}
    (h : xs[place]? = some x) :
    ∃ before after, xs = before ++ x :: after ∧
      (∀ f, xs.modify place f = before ++ f x :: after) ∧ xs.eraseIdx place = before ++ after := by
  obtain ⟨hp, rfl⟩ := List.getElem?_eq_some_iff.mp h
  refine ⟨xs.take place, xs.drop (place + 1), ?_, ?_, List.eraseIdx_eq_take_drop_succ ..⟩
  · simp
  · exact fun f => List.modify_eq_take_cons_drop hp

end PushDelivery.Dispatch
