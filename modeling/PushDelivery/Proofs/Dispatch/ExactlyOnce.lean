import PushDelivery.Proofs.Dispatch.Completion
import PushDelivery.Proofs.Dispatch.Passage
import PushDelivery.Proofs.Dispatch.Reporting
import PushDelivery.Proofs.Reconciliation

/-!
# Exactly one result for each endpoint

`Sound` joins what is known of a dispatch: how it closes down and, as long as nobody cancels, where
its endpoints and its results are. When the consumer's stream has ended every station behind it is
empty, and the accounts say that each endpoint has come out as one result.

Other dispatches may share the ledger. They enter through `Ledger.Answers` only, which every move
keeps, whichever dispatch makes it.
-/

namespace PushDelivery.Dispatch

/-- What the endpoints were answered: by the call for each, in the order of the calls, or by their
rejection. -/
def State.answers (j : Job) (s : State) : List (Endpoint × DeliveryResult) :=
  match j.transport with
  | .fanOut .. => s.history.called.zipIdx.map fun x => (x.1, j.answer x.2 x.1)
  | .sequential _ => s.history.accepted.map fun e => (e, Transport.rejection j.provider e)

/-- What is known of a dispatch whose results are answered as `R` says. -/
structure Sound (R : DeliveryResult → DeliveryResult → Prop) (j : Job) (s : State) : Prop where
  orderly : Orderly j s
  passage : s.cancelled = false → Passage j s
  reporting : s.cancelled = false → Reporting R s

/-- What a dispatch has done when its stream has ended. -/
structure Settled (R : DeliveryResult → DeliveryResult → Prop) (j : Job) (s : State) : Prop where
  accepted : s.history.accepted = j.endpoints
  answered : ((s.answers j).map Prod.fst).Perm j.endpoints
  reconciled : s.history.reconciled.Perm ((s.answers j).map Prod.snd)
  taken : List.Forall₂ R s.history.reconciled s.history.taken
  reported : s.history.taken = s.history.reported
  called : ∀ send limit, j.transport = .fanOut send limit → s.history.called.Perm j.endpoints

variable {σ : Type} [SubscriptionStore σ] {R : DeliveryResult → DeliveryResult → Prop} {j : Job}
  {label : Label} {labels : List Label} {s s' : State} {l l' : Ledger σ}

theorem State.answers_of_fanOut {send : Nat → Sender} {limit : Nat}
    (hT : j.transport = .fanOut send limit) :
    s.answers j = s.history.called.zipIdx.map fun x => (x.1, j.answer x.2 x.1) := by
  rw [answers, hT]

theorem State.map_fst_answers {send : Nat → Sender} {limit : Nat}
    (hT : j.transport = .fanOut send limit) : (s.answers j).map Prod.fst = s.history.called := by
  rw [answers_of_fanOut hT, List.map_map]
  exact List.zipIdx_map_fst 0 s.history.called

theorem State.getElem?_answers {send : Nat → Sender} {limit : Nat}
    (hT : j.transport = .fanOut send limit) (number : Nat) :
    (s.answers j)[number]? = s.history.called[number]?.map fun e => (e, j.answer number e) := by
  rw [answers_of_fanOut hT, List.getElem?_map, List.getElem?_zipIdx, Option.map_map]
  simp only [Function.comp_def, Nat.zero_add]

/-- Each answer is the one of some call. -/
theorem State.gives_of_mem_answers {x : Endpoint × DeliveryResult} (h : x ∈ s.answers j) :
    j.Gives x.1 x.2 := by
  unfold answers at h
  split at h
  next =>
    obtain ⟨⟨e, number⟩, -, rfl⟩ := List.mem_map.mp h
    exact ⟨number, rfl⟩
  next hT =>
    obtain ⟨e, -, rfl⟩ := List.mem_map.mp h
    exact ⟨0, (j.answer_of_sequential hT 0 e).symm⟩

/-- A fan-out without deliveries has called its sender for all that it has read. -/
theorem Passage.called_perm {send : Nat → Sender} {limit : Nat} (h : Passage j s)
    (hT : j.transport = .fanOut send limit) (hd : s.deliveries = []) :
    s.history.called.Perm s.history.accepted := by
  simpa [State.uncalled, hd] using h.called send limit hT

/-- A transport that has finished has answered all that it has read. -/
theorem Passage.answers_perm (h : Passage j s) (ht : s.transport = .finished)
    (hd : s.deliveries = []) :
    ((s.answers j).map Prod.fst).Perm s.history.accepted ∧
      s.history.emitted.Perm ((s.answers j).map Prod.snd) := by
  unfold State.answers
  split
  next hT =>
    have hemitted := h.answered _ _ hT
    rw [State.pending, hd, List.flatMap_nil, List.append_nil] at hemitted
    rw [← State.answers_of_fanOut hT, State.map_fst_answers hT]
    refine ⟨h.called_perm hT hd, hemitted.trans (.of_eq ?_)⟩
    rw [State.answers_of_fanOut hT, List.map_map]
    rfl
  next hT =>
    have hheld : TransportTask.finished.held = [] := rfl
    have hemitted := h.rejected _ hT
    rw [ht, hheld, List.map_nil, List.append_nil] at hemitted
    simp [hemitted, Function.comp_def]

theorem eq_map_of_forall₂ {α β : Type} {f : α → β} {as : List α} {bs : List β}
    (h : List.Forall₂ (fun a b => b = f a) as bs) : bs = as.map f := by
  rw [← List.forall₂_eq_eq_eq, List.forall₂_map_right_iff]
  exact h.flip

/-- If calls make no difference, each endpoint comes out as the result that it has by itself. -/
theorem Settled.reconciled_perm (h : Settled R j s) (hj : j.Stateless) :
    s.history.reconciled.Perm (j.endpoints.map j.outcome) := by
  refine h.reconciled.trans (.trans (.of_eq ?_) (h.answered.map j.outcome))
  rw [List.map_map]
  refine List.map_congr_left fun x hx => ?_
  obtain ⟨number, hx⟩ := State.gives_of_mem_answers hx
  exact hx.trans (hj number x.1)

theorem Move.exists_store (hm : Move j label s l s' l') :
    ∃ updates, l'.store = afterUpdates l.store updates := by
  cases hm with
  | reconcile hr => exact ⟨_, l.store_reconcile _⟩
  | _ => exact ⟨[], rfl⟩

theorem Move.answers (hm : Move j label s l s' l') (h : l.Answers R) : l'.Answers R := by
  obtain ⟨updates, hl⟩ := hm.exists_store
  exact h.of_store hl

/-- Ordinary moves cancel nothing if the sender does not. -/
theorem Move.cancelled_eq (hm : Move j label s l s' l')
    (hj : ∀ number e, j.cancels number e = false) (hl : label.isOrdinary = true) :
    s'.cancelled = s.cancelled := by
  cases hm with
  | answer => simp [stageDelivery, hj]
  | cancel | drop => cases hl
  | _ => rfl

namespace Sound

theorem start (R : DeliveryResult → DeliveryResult → Prop) (hj : j.transport.Routed) :
    Sound R j j.start :=
  ⟨.start hj, fun _ => .start hj, fun _ => .start R j⟩

theorem move (h : Sound R j s) (hj : j.transport.Routed) (hl : l.Answers R)
    (hm : Move j label s l s' l') : Sound R j s' where
  orderly := h.orderly.move hj hm
  passage hc := (h.passage (hm.cancelled_eq_false hc)).move hj h.orderly hm hc
  reporting hc := (h.reporting (hm.cancelled_eq_false hc)).move hm hl.reconcile hc

/-- A stream that nobody cancelled ends when everything has come out. -/
theorem settled (h : Sound R j s) (hc : s.cancelled = false) (he : s.ended = true) :
    Settled R j s := by
  obtain ⟨-, hleft⟩ := hasLeft_of_ended he
  obtain ⟨ht, -⟩ := h.orderly.drained hc hleft
  obtain ⟨hf, hfeed⟩ := h.orderly.read hc (by rw [ht]; rfl)
  have hd := h.orderly.delivered ht
  have hu := h.orderly.offered hc hf
  have hp := h.passage hc
  have hrep := h.reporting hc
  obtain ⟨hreconciled, hanswered⟩ := hrep.of_ended h.orderly.toWired hc he
  have haccepted : s.history.accepted = j.endpoints := by
    simpa [hf, hfeed, hu, Feeder.held] using hp.endpoints
  obtain ⟨hanswers, hemitted⟩ := hp.answers_perm ht hd
  refine ⟨haccepted, haccepted ▸ hanswers, hreconciled ▸ hemitted, hanswered ▸ hrep.answers, ?_,
    fun send limit hT => haccepted ▸ hp.called_perm hT hd⟩
  rw [← hanswered, (Reconciler.eq_nil_of_hasLeft hleft).2, List.append_nil]

end Sound

/-- A run of ordinary moves keeps all of it. -/
theorem Run.sound (hj : j.transport.Routed) (hcancels : ∀ number e, j.cancels number e = false)
    {c c' : State × Ledger σ} (hrun : Run j c labels c')
    (hlabels : ∀ label ∈ labels, label.isOrdinary = true) (h : Sound R j c.1)
    (hl : c.2.Answers R) :
    Sound R j c'.1 ∧ c'.2.Answers R ∧ c'.1.cancelled = c.1.cancelled := by
  induction hrun with
  | nil c => exact ⟨h, hl, rfl⟩
  | cons hs _ ih =>
    rw [List.forall_mem_cons] at hlabels
    have hm := step_eq_some_iff.mp hs
    obtain ⟨hsound, hanswers, hc⟩ := ih hlabels.2 (h.move hj hl hm) (hm.answers hl)
    exact ⟨hsound, hanswers, hc.trans (hm.cancelled_eq hcancels hlabels.1)⟩

theorem routed_of_eq_ofCalls {send : Nat → Sender} {limit : UInt64}
    (hj : j.transport = .ofCalls send limit) (hlimit : limit.toNat ≤ Transport.maxPermits) :
    j.transport.Routed := by
  rw [hj]
  exact .ofCalls send hlimit

/-- A fan-out that nobody cancels, its moves in any order. There are at most eleven moves for each
endpoint and nine more. It comes to rest only when all is finished and read. When its stream has
ended, it has called the sender once for each endpoint, and the consumer has read one result for
each call. That is the reconciled result of what the call left behind: a success or a failure of the
endpoint as the sender has written it, or a failure of the endpoint as it was, if the sender
crashed. -/
theorem exactly_one_result {send : Nat → Sender} {limit : UInt64}
    (hj : j.transport = .ofCalls send limit) (hlimit : limit.toNat ≤ Transport.maxPermits)
    (hcancels : ∀ number e, j.cancels number e = false) (hstore : Steady l.store)
    (hrun : Run j (j.start, l) labels (s, l'))
    (hlabels : ∀ label ∈ labels, label.isOrdinary = true) :
    labels.length ≤ 11 * j.endpoints.length + 9 ∧
    (AtRest j s l' → s.ended = true ∧ s.finished = true) ∧
    (s.ended = true →
      s.history.taken.length = j.endpoints.length ∧
      s.history.accepted = j.endpoints ∧ s.history.called.Perm j.endpoints ∧
      ∃ log : List (Endpoint × DeliveryResult), log.map Prod.fst = s.history.called ∧
        s.history.taken.Perm (log.map fun x => (l.reconcile x.2).1) ∧
        ∀ number e r o, log[number]? = some (e, r) →
          o = send number j.provider j.notification e →
          (∀ messageId, o.verdict = .accepted messageId →
            r = ⟨j.provider, o.endpoint, messageId, none⟩) ∧
          (∀ error, o.verdict = .refused error →
            r = ⟨j.provider, o.endpoint, none, some error⟩) ∧
          (o.verdict = .crashed →
            r = ⟨j.provider, e, none, some (.other "endpoint sender panicked")⟩)) := by
  have hrouted := routed_of_eq_ofCalls hj hlimit
  obtain ⟨hsound, -, hc⟩ := hrun.sound hrouted hcancels hlabels
    (.start (fun r r' => r' = (l.reconcile r).1) hrouted) (l.answers_of_steady hstore)
  refine ⟨?_, fun hrest => ?_, fun hended => ?_⟩
  · have hlength := hrun.length_add_work_le hrouted
    have hwork := work_start_le j
    dsimp only at hlength
    omega
  · exact ⟨hrest.ended hsound.orderly hrouted, hrest.finished hsound.orderly hrouted⟩
  · have h := hsound.settled hc hended
    have hcalled := h.called send _ hj
    have hperm : s.history.taken.Perm ((s.answers j).map fun x => (l.reconcile x.2).1) := by
      rw [eq_map_of_forall₂ h.taken]
      refine (h.reconciled.map _).trans (.of_eq ?_)
      exact List.map_map
    have hfst := State.map_fst_answers (s := s) hj
    have hlength : s.history.taken.length = j.endpoints.length := by
      have := congrArg List.length hfst
      rw [hperm.length_eq, List.length_map, ← hcalled.length_eq, ← this, List.length_map]
    refine ⟨hlength, h.accepted, hcalled, s.answers j, hfst, hperm, ?_⟩
    rintro number e r o hlog rfl
    have hr : r = (send number j.provider j.notification e).result j.provider e := by
      rw [State.getElem?_answers hj] at hlog
      obtain ⟨e', -, hanswer⟩ := Option.map_eq_some_iff.mp hlog
      cases hanswer
      exact j.answer_of_fanOut hj number _
    rw [hr, SendOutcome.result]
    refine ⟨fun messageId hv => ?_, fun error hv => ?_, fun hv => ?_⟩ <;> rw [hv]

/-- One endpoint is accepted, one is refused after the sender has written to it, the sender crashes
for one after it has written to it, and only one may be in flight. -/
theorem exactly_one_result_of_three :
    let p : Provider := ⟨1, 1, "main", "gcm", ∅⟩
    let a : Endpoint := ⟨1, "gcm", "a", none, ∅⟩
    let b : Endpoint := ⟨1, "gcm", "b", none, ∅⟩
    let c : Endpoint := ⟨1, "gcm", "c", none, ∅⟩
    let send : Sender := fun _ _ e =>
      if e.deviceKey = "a" then ⟨e, .accepted (some "m")⟩
      else if e.deviceKey = "b" then ⟨e.setReplacementKey "x", .refused (.transient "later")⟩
      else ⟨e.setReplacementKey "y", .crashed⟩
    let j : Job := ⟨p, {}, [a, b, c], .ofLimit send 0, fun _ _ => false, ⟨0⟩⟩
    ∃ labels s l', Run j (j.start, (⟨{}, [], none⟩ : Ledger MemoryStore)) labels (s, l') ∧
      s.history.taken.Perm
        [⟨p, a, some "m", none⟩, ⟨p, b.setReplacementKey "x", none, some (.transient "later")⟩,
          ⟨p, c, none, some (.other "endpoint sender panicked")⟩] := by
  intro p a b c send j
  have hlimit : (0 : UInt64).toNat ≤ Transport.maxPermits := by decide
  have hrouted : j.transport.Routed := routed_of_eq_ofCalls rfl hlimit
  obtain ⟨labels, s, l', -, hrun, hlabels, hrest⟩ :=
    exists_run_complete hrouted (⟨{}, [], none⟩ : Ledger MemoryStore)
  have h := exactly_one_result rfl hlimit (fun _ _ => rfl) (MemoryStore.steady {}) hrun hlabels
  obtain ⟨-, -, hcalled, log, hfst, hperm, hlog⟩ := h.2.2 (h.2.1 hrest).1
  -- What an endpoint is answered follows from its device key.
  let answer (e : Endpoint) : DeliveryResult :=
    if e.deviceKey = "a" then ⟨p, e, some "m", none⟩
    else if e.deviceKey = "b" then
      ⟨p, e.setReplacementKey "x", none, some (.transient "later")⟩
    else ⟨p, e, none, some (.other "endpoint sender panicked")⟩
  have hanswer : ∀ x ∈ log, x.2 = answer x.1 := by
    rintro ⟨e, r⟩ hx
    obtain ⟨number, hnumber⟩ := List.mem_iff_getElem?.mp hx
    obtain ⟨haccepted, hrefused, hcrashed⟩ := hlog number e r (send p {} e) hnumber rfl
    by_cases ha : e.deviceKey = "a"
    · simpa [send, answer, ha] using haccepted (some "m") (by simp [send, ha])
    · by_cases hb : e.deviceKey = "b"
      · simpa [send, answer, ha, hb] using hrefused (.transient "later") (by simp [send, hb])
      · simpa [send, answer, ha, hb] using hcrashed (by simp [send, ha, hb])
  refine ⟨labels, s, l', hrun, hperm.trans (.trans (.of_eq ?_) (hcalled.map
    fun e => ((⟨{}, [], none⟩ : Ledger MemoryStore).reconcile (answer e)).1))⟩
  rw [← hfst, List.map_map]
  exact List.map_congr_left fun x hx => by rw [hanswer x hx]; rfl

end PushDelivery.Dispatch
