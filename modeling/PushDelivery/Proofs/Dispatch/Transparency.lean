import PushDelivery.Proofs.Dispatch.Completion
import PushDelivery.Proofs.Dispatch.ExactlyOnce
import PushDelivery.Proofs.Dispatch.Interruption
import PushDelivery.Proofs.Dispatch.WindingDown

/-!
# A dispatch is transparent to its transport

A transport need not keep to one result for each endpoint: it may leave endpoints unread, make
results up, send them in any order and return when it likes. The dispatch around it does not mind.
It hands over the caller's endpoints in their order and takes the results to the consumer in theirs,
each reconciled, and it ends when the transport has returned, even if the feeder is still waiting
with an endpoint that nobody reads.

A sequential transport decides by what it has seen. `conduct` computes, without a dispatch, what it
reads and emits until it returns; in a dispatch it does just that, however the other tasks take
turns with it. The order in which a transport with several tasks reads, sends and returns is that of
some sequential transport.
-/

namespace PushDelivery.Dispatch

/-- What a sequential transport reads and emits that finds some endpoints and then the end of the
feed, and has all its results taken, if it returns after at most so many moves. -/
def conduct (next : List Observation → Action) :
    Nat → List Observation → List Endpoint → Option (List Endpoint × List DeliveryResult)
  | 0, _, _ => none
  | n + 1, seen, unread =>
    match next seen with
    | .receive _ =>
      match unread with
      | e :: rest =>
        (conduct next n (.received (some e) :: seen) rest).map fun c => (e :: c.1, c.2)
      | [] => conduct next n (.received none :: seen) []
    | .call _ outcome =>
      if outcome.verdict = .crashed then some ([], [])
      else conduct next n (.called outcome :: seen) unread
    | .send r => (conduct next n (.sent true :: seen) unread).map fun c => (c.1, r :: c.2)
    | .finish => some ([], [])

def State.unread (s : State) : List Endpoint := s.feed.queue ++ s.feeder.held ++ s.unfed

/-- The transport reads the caller's endpoints from the first on. -/
structure Feeding (j : Job) (s : State) : Prop where
  accepted : s.history.accepted <+: j.endpoints
  unread : s.transport ≠ .finished → s.history.accepted ++ s.unread = j.endpoints
  exhausted : s.transport ≠ .finished → s.feeder = .finished → s.unfed = []

variable {σ : Type} [SubscriptionStore σ] {j : Job} {label : Label} {s s' : State}
  {l₀ l l' : Ledger σ}

namespace Feeding

theorem setTransport (h : Feeding j s) (hs : s.transport ≠ .finished) (t : TransportTask) :
    Feeding j { s with transport := t } :=
  { h with
    unread := fun _ => h.unread hs
    exhausted := fun _ => h.exhausted hs }

theorem finishTransport (h : Feeding j s) : Feeding j (finishTransport s) :=
  { h with
    unread := by simp [Dispatch.finishTransport]
    exhausted := by simp [Dispatch.finishTransport] }

theorem acceptEndpoint {e : Endpoint} {rest : List Endpoint} (h : Feeding j s)
    (hs : s.transport ≠ .finished) (hq : s.feed.queue = e :: rest) (t : TransportTask) :
    Feeding j { acceptEndpoint s e with transport := t } := by
  have hunread := h.unread hs
  have hread : s.history.accepted ++ [e] ++ (rest ++ s.feeder.held ++ s.unfed) = j.endpoints := by
    simpa [State.unread, hq] using hunread
  constructor
  case accepted => exact ⟨_, hread⟩
  case unread =>
    intro _
    simpa [State.unread, Dispatch.acceptEndpoint, Channel.pop, hq] using hread
  case exhausted => exact fun _ => h.exhausted hs

theorem move (h : Feeding j s) (hw : Wired j s) (hc : s.cancelled = false)
    (hm : Move j label s l s' l') : Feeding j s' := by
  cases hm with
  | exhaust hf hu =>
    exact { h with
      unread := by simpa [State.unread, hf, Feeder.held] using h.unread
      exhausted := fun _ _ => hu }
  | take hf hu =>
    exact { h with
      unread := by simpa [State.unread, hf, hu, Feeder.held] using h.unread
      exhausted := by simp }
  | withdraw hf hgone =>
    -- Before a cancellation an endpoint is given up only if the transport has gone.
    have ht : s.transport = .finished := by
      apply hw.feed_closed.mp
      simpa [hc] using hgone
    exact { h with
      unread := fun hs => (hs ht).elim
      exhausted := fun hs => (hs ht).elim }
  | offer hf =>
    exact { h with
      unread := by simpa [State.unread, hf, Feeder.held, Channel.push] using h.unread
      exhausted := by simp }
  | acquire hT ht | leave hT ht | wind hT ht | heed hT ht | miss hT ht | lose hT ht =>
    exact h.setTransport (by simp [ht]) _
  | interrupt hT ht => exact h.setTransport (by rcases ht with ht | ht <;> simp [ht]) _
  | accept hT ht _ hq => exact { h.acceptEndpoint (by simp [ht]) hq .acquiring with }
  | @fetch _ _ _ seen _ e _ hT ht _ _ hq => exact { h.acceptEndpoint (by simp [ht]) hq _ with }
  | conclude | finish => exact h.finishTransport
  | crash => exact { h.finishTransport with }
  | @call _ _ _ seen _ outcome hT ht =>
    exact { h.setTransport (by simp [ht]) (.acting (.called outcome :: seen)) with }
  | @send _ _ _ seen _ hT ht =>
    exact { h.setTransport (by simp [ht]) (.acting (.sent true :: seen)) with }
  | start | answer | discard | emit | abort | stop | collect | drain | reconcile | forsake | report
  | measure | consume | cancel | drop => exact { h with }

theorem start (j : Job) : Feeding j j.start := by
  constructor
  case accepted => exact List.nil_prefix
  case unread =>
    intro ht
    have hf : j.feedStart ⟨capacity, [], true⟩ = ⟨capacity, [], true⟩ := if_neg ht
    simp [State.unread, Job.start, hf, Feeder.held]
  case exhausted => simp [Job.start]

end Feeding

/-- What is kept in a dispatch that nobody cancels, whatever its transport does. -/
structure Undisturbed (l₀ : Ledger σ) (j : Job) (s : State) (l : Ledger σ) : Prop where
  cancelled : s.cancelled = false
  wired : Wired j s
  feeding : Feeding j s
  reporting : Reporting (fun _ _ => True) s
  processed : Processed l₀ [] j s l

namespace Undisturbed

theorem start (l : Ledger σ) (j : Job) : Undisturbed l j j.start l :=
  ⟨rfl, .start j, .start j, .start _ j, .start (s := j.start) l j rfl rfl⟩

theorem move (h : Undisturbed l₀ j s l) (hcancels : ∀ number e, j.cancels number e = false)
    (hl : label.isOrdinary = true) (hm : Move j label s l s' l') : Undisturbed l₀ j s' l' := by
  have hc : s'.cancelled = false := (hm.cancelled_eq hcancels hl).trans h.cancelled
  constructor
  case cancelled => exact hc
  case wired => exact h.wired.move hm
  case feeding => exact h.feeding.move h.wired h.cancelled hm
  case reporting => exact h.reporting.move hm (fun _ => trivial) hc
  case processed => exact h.processed.move hm

theorem of_run {c c' : State × Ledger σ} {labels : List Label} (h : Undisturbed l₀ j c.1 c.2)
    (hcancels : ∀ number e, j.cancels number e = false) (hrun : Run j c labels c')
    (hlabels : ∀ label ∈ labels, label.isOrdinary = true) : Undisturbed l₀ j c'.1 c'.2 := by
  induction hrun with
  | nil c => exact h
  | cons hs _ ih =>
    rw [List.forall_mem_cons] at hlabels
    exact ih (h.move hcancels hlabels.1 (step_eq_some_iff.mp hs)) hlabels.2

theorem taken_prefix (h : Undisturbed l₀ j s l) :
    s.history.taken <+: l₀.reports s.history.emitted := by
  have htaken : s.history.taken <+: s.history.reported := ⟨s.report.queue, h.reporting.report⟩
  have hreconciled := l₀.reports_prefix h.processed.reconciled_prefix
  exact (htaken.trans h.processed.reported_prefix).trans hreconciled

/-- When the stream has ended, all that the transport has emitted has come out. -/
theorem settled (h : Undisturbed l₀ j s l) (he : s.ended = true) :
    s.transport = .finished ∧ s.history.taken = l₀.reports s.history.emitted ∧
      l = s.measured j (l₀.afterResults s.history.emitted) := by
  obtain ⟨hq, hleft⟩ := hasLeft_of_ended he
  have hreceiving := h.wired.report_receiving h.cancelled
  obtain ⟨hall, hreports⟩ := h.processed.complete hleft h.cancelled hreceiving
  rw [List.nil_append] at hall
  have htaken := h.reporting.report
  rw [hq, List.append_nil] at htaken
  constructor
  · exact (h.wired.drained h.cancelled hleft).1
  constructor
  · rw [htaken, hreports, hall]
  · rw [← hall]
    exact h.processed.ledger

end Undisturbed

/-- What a sequential transport is still going to read and emit, in at most so many moves. -/
inductive Ahead (j : Job) (next : Provider → Notification → List Observation → Action) (n : Nat)
    (reads : List Endpoint) (emits : List DeliveryResult) (s : State) : Prop
  | acting {seen : List Observation} : s.transport = .acting seen →
      conduct (next j.provider j.notification) n seen s.unread = some (reads, emits) →
      Ahead j next n reads emits s
  | finished : s.transport = .finished → reads = [] → emits = [] → Ahead j next n reads emits s

namespace Ahead

variable {next : Provider → Notification → List Observation → Action} {n : Nat}
  {reads : List Endpoint} {emits : List DeliveryResult}

theorem exists_conduct {seen : List Observation} (h : Ahead j next n reads emits s)
    (ht : s.transport = .acting seen) :
    ∃ m, n = m + 1 ∧
      conduct (next j.provider j.notification) (m + 1) seen s.unread = some (reads, emits) := by
  cases h with
  | acting ht' hconduct =>
    rw [ht] at ht'
    cases ht'
    cases n with
    | zero => cases hconduct
    | succ m => exact ⟨m, rfl, hconduct⟩
  | finished ht' =>
    rw [ht] at ht'
    cases ht'

theorem of_eq (h : Ahead j next n reads emits s) (ht : s'.transport = s.transport)
    (hu : s.transport ≠ .finished → s'.unread = s.unread) : Ahead j next n reads emits s' := by
  cases h with
  | acting ht' hconduct =>
    rw [← hu (by simp [ht'])] at hconduct
    exact .acting (ht.trans ht') hconduct
  | finished ht' hreads hemits => exact .finished (ht.trans ht') hreads hemits

/-- The transport's own move is the next of its conduct, and the others leave it as it is. -/
theorem move (h : Ahead j next n reads emits s) (hT : j.transport = .sequential next)
    (hc : s.cancelled = false) (hwired : Wired j s) (hfeeding : Feeding j s)
    (hm : Move j label s l s' l') :
    ∃ m reads' emits', Ahead j next m reads' emits' s' ∧ m + [label].count .transport = n ∧
      s'.history.accepted ++ reads' = s.history.accepted ++ reads ∧
      s'.history.emitted ++ emits' = s.history.emitted ++ emits := by
  cases hm with
  | exhaust hf hunfed =>
    refine ⟨n, reads, emits, h.of_eq rfl fun _ => ?_, rfl, rfl, rfl⟩
    simp [State.unread, hf, Feeder.held]
  | take hf hunfed =>
    refine ⟨n, reads, emits, h.of_eq rfl fun _ => ?_, rfl, rfl, rfl⟩
    simp [State.unread, hf, hunfed, Feeder.held]
  | withdraw hf hgone =>
    refine ⟨n, reads, emits, h.of_eq rfl fun hs => ?_, rfl, rfl, rfl⟩
    have ht := hwired.feed_closed.mp (by simpa [hc] using hgone)
    exact (hs ht).elim
  | offer hf =>
    refine ⟨n, reads, emits, h.of_eq rfl fun _ => ?_, rfl, rfl, rfl⟩
    simp [State.unread, hf, Feeder.held, Channel.push]
  | acquire hT' | interrupt hT' | accept hT' | leave hT' | wind hT' | conclude hT' | start hT'
  | answer hT' | discard hT' | emit hT' =>
    rw [hT] at hT'
    cases hT'
  | heed _ _ _ hi => simp [hc] at hi
  | @fetch _ _ _ seen _ e rest hT' ht ha _ hq =>
    rw [hT] at hT'
    cases hT'
    obtain ⟨m, rfl, hconduct⟩ := h.exists_conduct ht
    have hunread : s.unread = e :: (rest ++ s.feeder.held ++ s.unfed) := by
      simp [State.unread, hq]
    simp only [conduct, ha, hunread] at hconduct
    obtain ⟨⟨reads', emits'⟩, hrest, hread⟩ := Option.map_eq_some_iff.mp hconduct
    cases hread
    refine ⟨m, reads', emits', .acting rfl ?_, rfl, by simp [acceptEndpoint], rfl⟩
    simpa [State.unread, acceptEndpoint, Channel.pop, hq] using hrest
  | miss hT' ht ha _ hq hf =>
    rw [hT] at hT'
    cases hT'
    obtain ⟨m, rfl, hconduct⟩ := h.exists_conduct ht
    have hunfed := hfeeding.exhausted (by simp [ht]) hf
    have hunread : s.unread = [] := by simp [State.unread, hq, hf, hunfed, Feeder.held]
    simp only [conduct, ha, hunread] at hconduct
    refine ⟨m, reads, emits, .acting rfl ?_, rfl, rfl, rfl⟩
    rw [← hunread] at hconduct
    exact hconduct
  | crash hT' ht ha hv =>
    rw [hT] at hT'
    cases hT'
    obtain ⟨m, rfl, hconduct⟩ := h.exists_conduct ht
    simp only [conduct, ha, if_pos hv] at hconduct
    cases hconduct
    exact ⟨m, [], [], .finished rfl rfl rfl, rfl, rfl, rfl⟩
  | finish hT' ht ha =>
    rw [hT] at hT'
    cases hT'
    obtain ⟨m, rfl, hconduct⟩ := h.exists_conduct ht
    simp only [conduct, ha] at hconduct
    cases hconduct
    exact ⟨m, [], [], .finished rfl rfl rfl, rfl, rfl, rfl⟩
  | call hT' ht ha hv =>
    rw [hT] at hT'
    cases hT'
    obtain ⟨m, rfl, hconduct⟩ := h.exists_conduct ht
    simp only [conduct, ha, if_neg hv] at hconduct
    exact ⟨m, reads, emits, .acting rfl hconduct, rfl, rfl, rfl⟩
  | lose _ ht _ hr =>
    -- The reconciler outlives the transport, so no result is lost.
    have := hwired.raw_receiving hc (by simp [ht])
    simp [hr] at this
  | send hT' ht ha =>
    rw [hT] at hT'
    cases hT'
    obtain ⟨m, rfl, hconduct⟩ := h.exists_conduct ht
    simp only [conduct, ha] at hconduct
    obtain ⟨⟨reads', emits'⟩, hrest, hsent⟩ := Option.map_eq_some_iff.mp hconduct
    cases hsent
    exact ⟨m, reads', emits', .acting rfl hrest, rfl, rfl, by simp [Dispatch.emit]⟩
  | abort | stop | collect | drain | reconcile | forsake | report | measure | consume | cancel
  | drop => exact ⟨n, reads, emits, h.of_eq rfl fun _ => rfl, rfl, rfl, rfl⟩

theorem of_run {c c' : State × Ledger σ} {labels : List Label} (hrun : Run j c labels c')
    (h : Ahead j next n reads emits c.1) (hT : j.transport = .sequential next)
    (hu : Undisturbed l₀ j c.1 c.2) (hcancels : ∀ number e, j.cancels number e = false)
    (hlabels : ∀ label ∈ labels, label.isOrdinary = true) :
    ∃ m reads' emits', Ahead j next m reads' emits' c'.1 ∧
      m + labels.count .transport = n ∧
      c'.1.history.accepted ++ reads' = c.1.history.accepted ++ reads ∧
      c'.1.history.emitted ++ emits' = c.1.history.emitted ++ emits := by
  induction hrun generalizing n reads emits with
  | nil c => exact ⟨n, reads, emits, h, rfl, rfl, rfl⟩
  | @cons s s₁ l l₁ c' label labels hs _ ih =>
    rw [List.forall_mem_cons] at hlabels
    have hm := step_eq_some_iff.mp hs
    obtain ⟨m₁, reads₁, emits₁, h₁, hn₁, haccepted₁, hemitted₁⟩ :=
      h.move hT hu.cancelled hu.wired hu.feeding hm
    obtain ⟨m, reads', emits', h', hn, haccepted, hemitted⟩ :=
      ih h₁ (hu.move hcancels hlabels.1 hm) hlabels.2
    refine ⟨m, reads', emits', h', ?_, haccepted.trans haccepted₁, hemitted.trans hemitted₁⟩
    have hcount : (label :: labels).count .transport =
        [label].count .transport + labels.count .transport :=
      @List.count_append _ _ _ [label] labels
    omega

theorem start (hT : j.transport = .sequential next)
    (h : conduct (next j.provider j.notification) n [] j.endpoints = some (reads, emits)) :
    Ahead j next n reads emits j.start := by
  have ht : j.transportStart = .acting [] := by rw [Job.transportStart, hT]
  have hf : j.feedStart ⟨capacity, [], true⟩ = ⟨capacity, [], true⟩ :=
    if_neg (by simp [ht])
  have hunread : j.start.unread = j.endpoints := by
    simp [State.unread, Job.start, hf, Feeder.held]
  rw [← hunread] at h
  exact .acting ht h

theorem eq_nil_of_finished (h : Ahead j next n reads emits s) (ht : s.transport = .finished) :
    reads = [] ∧ emits = [] := by
  cases h with
  | acting ht' =>
    rw [ht] at ht'
    cases ht'
  | finished _ hreads hemits => exact ⟨hreads, hemits⟩

end Ahead

/-- A transport that returns leaves a dispatch no more than so many moves. -/
theorem length_le_of_conduct {next : Provider → Notification → List Observation → Action} {n : Nat}
    {reads : List Endpoint} {emits : List DeliveryResult} {labels : List Label}
    {c : State × Ledger σ} (hT : j.transport = .sequential next)
    (hconduct : conduct (next j.provider j.notification) n [] j.endpoints = some (reads, emits))
    (hcancels : ∀ number e, j.cancels number e = false) (hrun : Run j (j.start, l) labels c)
    (hlabels : ∀ label ∈ labels, label.isOrdinary = true) :
    labels.length ≤ 11 * j.endpoints.length + 7 * n + 9 := by
  obtain ⟨m, -, -, -, hn, -⟩ :=
    (Ahead.start hT hconduct).of_run hrun hT (.start l j) hcancels hlabels
  have hlength := hrun.length_add_work_le_count
  have hwork := work_start_le j
  dsimp only at hlength
  omega

/-- If the moves of a dispatch cannot go on for ever, they bring it to rest. -/
theorem exists_run_atRest {n : Nat} (h : ∀ labels c, Run j (s, l) labels c →
      (∀ label ∈ labels, label.isOrdinary = true) → labels.length ≤ n) :
    ∃ labels c, Run j (s, l) labels c ∧ (∀ label ∈ labels, label.isOrdinary = true) ∧
      AtRest j c.1 c.2 := by
  induction n generalizing s l with
  | zero =>
    refine ⟨[], (s, l), .nil _, by simp, fun label hl => ?_⟩
    by_contra hstep
    obtain ⟨c, hs⟩ := Option.ne_none_iff_exists'.mp hstep
    have := h [label] c (.cons hs (.nil c)) (by simpa using hl)
    simp at this
  | succ n ih =>
    by_cases hrest : AtRest j s l
    · exact ⟨[], (s, l), .nil _, by simp, hrest⟩
    · simp only [AtRest, not_forall] at hrest
      obtain ⟨label, hl, hstep⟩ := hrest
      obtain ⟨c, hs⟩ := Option.ne_none_iff_exists'.mp hstep
      have hfewer : ∀ labels c', Run j (c.1, c.2) labels c' →
          (∀ label ∈ labels, label.isOrdinary = true) → labels.length ≤ n := by
        intro labels c' hrun hlabels
        have := h (label :: labels) c' (.cons hs hrun) (by simpa [hl] using hlabels)
        simpa using this
      obtain ⟨labels, c', hrun, hlabels, hc'⟩ := ih hfewer
      exact ⟨label :: labels, c', .cons hs hrun, by simpa [hl] using hlabels, hc'⟩

/-- A dispatch that nobody cancels hands over the caller's endpoints in their order and takes the
transport's results to the consumer in theirs, each reconciled with the store as it is by then. It
comes to rest with all tasks finished and one duration measured. A transport that returns brings it
there, with what that transport reads and emits. -/
theorem transparent {labels : List Label} (hj : j.transport.Live)
    (hcancels : ∀ number e, j.cancels number e = false) (hrun : Run j (j.start, l) labels (s, l'))
    (hlabels : ∀ label ∈ labels, label.isOrdinary = true) :
    s.history.accepted <+: j.endpoints ∧
    s.history.taken <+: l.reports s.history.emitted ∧
    (AtRest j s l' → s.ended = true ∧ s.finished = true) ∧
    (s.ended = true → s.history.taken = l.reports s.history.emitted ∧
      l' = s.measured j (l.afterResults s.history.emitted) ∧
      l'.updates = l.updates ++ s.history.emitted.filterMap (·.request?)) ∧
    (s.finished = true → ∀ providerType,
      l'.metrics.map (·.dispatchCount providerType) =
        l.metrics.map fun m => m.dispatchCount providerType +
          if Metrics.Family.digest [j.provider.providerType] = Metrics.Family.digest [providerType]
          then 1 else 0) ∧
    (∀ next n reads emits, j.transport = .sequential next →
      conduct (next j.provider j.notification) n [] j.endpoints = some (reads, emits) →
      labels.length ≤ 11 * j.endpoints.length + 7 * n + 9 ∧
      (s.ended = true → s.history.accepted = reads ∧ s.history.emitted = emits) ∧
      ∃ labels' c, Run j (s, l') labels' c ∧ (∀ label ∈ labels', label.isOrdinary = true) ∧
        AtRest j c.1 c.2) := by
  have hstart := Undisturbed.start l j
  have hu : Undisturbed l j s l' := hstart.of_run hcancels hrun hlabels
  refine ⟨hu.feeding.accepted, hu.taken_prefix, fun hrest => ?_, fun hended => ?_,
    fun hfinished providerType => ?_, fun next n reads emits hT hconduct => ?_⟩
  · exact ⟨hrest.ended_of_live hu.wired hj, hrest.finished_of_live hu.wired hj⟩
  · obtain ⟨-, htaken, hledger⟩ := hu.settled hended
    refine ⟨htaken, hledger, ?_⟩
    rw [← l.updates_afterResults, hledger, State.measured]
    split <;> rfl
  · rw [hu.processed.ledger, State.measured, if_pos (finished_iff.mp hfinished).2.2.2]
    exact l.dispatchCount_observeDuration ..
  refine ⟨length_le_of_conduct hT hconduct hcancels hrun hlabels, fun hended => ?_, ?_⟩
  · obtain ⟨m, reads', emits', hahead, -, haccepted, hemitted⟩ :=
      (Ahead.start hT hconduct).of_run hrun hT hstart hcancels hlabels
    obtain ⟨rfl, rfl⟩ := hahead.eq_nil_of_finished (hu.settled hended).1
    rw [List.append_nil] at haccepted hemitted
    exact ⟨haccepted, hemitted⟩
  · refine exists_run_atRest (n := 11 * j.endpoints.length + 7 * n + 9)
      fun labels' c hrun' hlabels' => ?_
    have hall := length_le_of_conduct hT hconduct hcancels (hrun.append hrun')
      (List.forall_mem_append.mpr ⟨hlabels, hlabels'⟩)
    rw [List.length_append] at hall
    omega

/-- A transport that reads one of three endpoints and emits two results: a stale key, and a success
for an endpoint that it was never given. -/
theorem transparent_of_early_return :
    let p : Provider := ⟨1, 1, "main", "gcm", ∅⟩
    let a : Endpoint := (⟨1, "gcm", "a", none, ∅⟩ : Endpoint).withSubscriptionId 7
    let b : Endpoint := ⟨1, "gcm", "b", none, ∅⟩
    let c : Endpoint := ⟨1, "gcm", "c", none, ∅⟩
    let stale : DeliveryResult :=
      ⟨p, a.setReplacementKey "k", none, some (.endpointKeyStale "old")⟩
    let success : DeliveryResult := ⟨p, ⟨1, "gcm", "d", none, ∅⟩, some "m", none⟩
    let next : Provider → Notification → List Observation → Action := fun _ _ seen =>
      match seen.length with
      | 0 => .receive true
      | 1 => .send stale
      | 2 => .send success
      | _ => .finish
    let j : Job := ⟨p, {}, [a, b, c], .sequential next, fun _ _ => false, ⟨0⟩⟩
    let l : Ledger MemoryStore := ⟨MemoryStore.insert {} 7 "a", [], some {}⟩
    ∃ labels s l', Run j (j.start, l) labels (s, l') ∧ s.ended = true ∧ s.finished = true ∧
      s.history.accepted = [a] ∧ s.history.taken = [stale, success] ∧ l'.updates = [(7, "k")] ∧
      l'.metrics.map (·.dispatchCount "gcm") = some 1 := by
  intro p a b c stale success next j l
  let labels : List Label :=
    [.feeder, .feeder, .transport, .feeder, .feeder, .feeder, .transport, .reconciler, .reconciler,
      .reconciler, .consume, .transport, .reconciler, .reconciler, .reconciler, .consume,
      .transport, .feeder, .reconciler, .reconciler]
  have hfold : (labels.foldlM (fun c label => step j label c.1 c.2) (j.start, l)).map
      (fun c => c.1.ended && c.1.finished) = some true := by
    decide +kernel
  obtain ⟨⟨s, l'⟩, hrun, hs⟩ := exists_run_of_foldlM hfold
  rw [Bool.and_eq_true] at hs
  have hlive : j.transport.Live := by
    intro send ht
    cases ht
  have h := transparent hlive (fun _ _ => rfl) hrun (by decide)
  obtain ⟨-, -, -, hended, hfinished, hreturns⟩ := h
  obtain ⟨htaken, -, hupdates⟩ := hended hs.1
  obtain ⟨-, hconducted, -⟩ := hreturns next 4 [a] [stale, success] rfl rfl
  obtain ⟨haccepted, hemitted⟩ := hconducted hs.1
  rw [hemitted] at htaken hupdates
  refine ⟨labels, s, l', hrun, hs.1, hs.2, haccepted, htaken.trans ?_, hupdates.trans ?_,
    (hfinished hs.2 "gcm").trans ?_⟩
  · decide +kernel
  · decide +kernel
  · decide +kernel

end PushDelivery.Dispatch
