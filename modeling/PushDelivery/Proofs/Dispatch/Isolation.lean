import PushDelivery.Proofs.Dispatch.Emissions

/-!
# One endpoint does not affect another

Two runs of a fan-out over the same endpoints, with senders that may do different things for one
device key: write, accept, refuse, or crash after having written. Both come to rest, in whatever
order their moves are made and however many calls they make at a time. Then they have emitted the
same results for all other endpoints, and for each endpoint of that key one result. A crash leaves
no trace in the endpoint that is reported.
-/

namespace PushDelivery.Dispatch

/-- Every endpoint has been answered once, and as the sender's call for it ended. -/
structure Answered (j : Job) (send : Sender) (log : List Emission) (s : State) : Prop where
  emitted : s.history.emitted = log.map Prod.snd
  endpoints : (log.map Prod.fst).Perm j.endpoints
  accepted : ∀ x ∈ log, ∀ messageId,
    (send j.provider j.notification x.1).verdict = .accepted messageId →
    x.2 = ⟨j.provider, (send j.provider j.notification x.1).endpoint, messageId, none⟩
  refused : ∀ x ∈ log, ∀ error, (send j.provider j.notification x.1).verdict = .refused error →
    x.2 = ⟨j.provider, (send j.provider j.notification x.1).endpoint, none, some error⟩
  crashed : ∀ x ∈ log, (send j.provider j.notification x.1).verdict = .crashed →
    x.2 = ⟨j.provider, x.1, none, some (.other "endpoint sender panicked")⟩

variable {j j' : Job} {s s' : State} {log log' : List Emission} {send send' : Sender}
  {limit limit' : Nat} {key : String}

theorem stateless_of_fanOut (hT : j.transport = .fanOut (fun _ => send) limit) : j.Stateless :=
  .of_transport (hT ▸ .fanOut send limit)

theorem outcome_of_fanOut (hT : j.transport = .fanOut (fun _ => send) limit) (e : Endpoint) :
    j.outcome e = (send j.provider j.notification e).result j.provider e :=
  j.answer_of_fanOut hT 0 e

theorem Completes.answered (hT : j.transport = .fanOut (fun _ => send) limit) (hlimit : 0 < limit)
    (h : Completes j log s) : Answered j send log s := by
  obtain ⟨s₀, hready, hturns⟩ := h.turns
  have ha := Accounted.of_turns hT hready hturns
  have houtcome : ∀ x ∈ log,
      x.2 = (send j.provider j.notification x.1).result j.provider x.1 := by
    intro x hx
    rw [ha.faithful (stateless_of_fanOut hT) x hx, outcome_of_fanOut hT]
  refine ⟨ha.emitted, (h.fedOf_perm hT hlimit).2, fun x hx messageId hv => ?_,
    fun x hx error hv => ?_, fun x hx hv => ?_⟩ <;>
    rw [houtcome x hx, SendOutcome.result, hv]

/-- The results of some endpoints are those that these endpoints have by themselves. -/
theorem Completes.filter_perm (hT : j.transport = .fanOut (fun _ => send) limit)
    (hlimit : 0 < limit) (h : Completes j log s) (p : Endpoint → Bool) :
    (log.filter fun x => p x.1).Perm
      ((j.endpoints.filter p).map fun e => (e, j.outcome e)) := by
  refine ((h.perm hT hlimit (stateless_of_fanOut hT)).filter _).trans (.of_eq ?_)
  rw [List.filter_map]
  rfl

/-- There are as many results for a device key as endpoints. -/
theorem Completes.length_filter (hT : j.transport = .fanOut (fun _ => send) limit)
    (hlimit : 0 < limit)
    (h : Completes j log s) (key : String) :
    (log.filter (·.1.deviceKey = key)).length =
      (j.endpoints.filter (·.deviceKey = key)).length := by
  rw [(h.filter_perm hT hlimit fun e => e.deviceKey = key).length_eq, List.length_map]

/-- Two fan-outs whose senders differ for one device key only. Each answers all its endpoints, as
many for that key as there are, and for all others they have emitted the same results. -/
theorem isolates {p : Provider} {n : Notification} {endpoints : List Endpoint}
    {limit limit' : UInt64} {cancels cancels' : Nat → Endpoint → Bool} {elapsed elapsed' : Binary64}
    (hagree : ∀ e, e.deviceKey ≠ key → send p n e = send' p n e) :
    let j : Job := ⟨p, n, endpoints, .ofLimit send limit, cancels, elapsed⟩
    let j' : Job := ⟨p, n, endpoints, .ofLimit send' limit', cancels', elapsed'⟩
    Completes j log s → Completes j' log' s' →
    Answered j send log s ∧ Answered j' send' log' s' ∧
    (log.filter (·.1.deviceKey ≠ key)).Perm (log'.filter (·.1.deviceKey ≠ key)) ∧
    (log.filter (·.1.deviceKey = key)).length = (endpoints.filter (·.deviceKey = key)).length ∧
    (log'.filter (·.1.deviceKey = key)).length = (endpoints.filter (·.deviceKey = key)).length := by
  intro j j' h h'
  have hT : j.transport = .fanOut (fun _ => send) (max 1 limit.toNat) := rfl
  have hT' : j'.transport = .fanOut (fun _ => send') (max 1 limit'.toNat) := rfl
  have hpos : 0 < max 1 limit.toNat := by omega
  have hpos' : 0 < max 1 limit'.toNat := by omega
  have hothers : (endpoints.filter (·.deviceKey ≠ key)).map (fun e => (e, j.outcome e)) =
      (endpoints.filter (·.deviceKey ≠ key)).map fun e => (e, j'.outcome e) := by
    refine List.map_congr_left fun e he => ?_
    have hsame := hagree e (of_decide_eq_true (List.mem_filter.mp he).2)
    rw [outcome_of_fanOut hT, outcome_of_fanOut hT']
    exact congrArg (fun o : SendOutcome => (e, o.result p e)) hsame
  refine ⟨h.answered hT hpos, h'.answered hT' hpos', ?_, h.length_filter hT hpos key,
    h'.length_filter hT' hpos' key⟩
  have hperm := h.filter_perm hT hpos fun e => e.deviceKey ≠ key
  have hperm' := h'.filter_perm hT' hpos' fun e => e.deviceKey ≠ key
  exact hperm.trans (hothers ▸ hperm'.symm)

/-- For the second of three endpoints the sender refuses in one run, and crashes in the other after
it has written a new key. -/
theorem isolates_crash :
    let p : Provider := ⟨1, 1, "main", "gcm", ∅⟩
    let a : Endpoint := ⟨1, "gcm", "a", none, ∅⟩
    let b : Endpoint := ⟨1, "gcm", "b", none, ∅⟩
    let refusing : Sender := fun _ _ e =>
      if e.deviceKey = "b" then ⟨e, .refused (.transient "later")⟩ else ⟨e, .accepted none⟩
    let crashing : Sender := fun _ _ e =>
      if e.deviceKey = "b" then ⟨e.setReplacementKey "c", .crashed⟩ else ⟨e, .accepted none⟩
    let j : Job := ⟨p, {}, [a, b, a], .ofLimit refusing 2, fun _ _ => false, ⟨0⟩⟩
    let j' : Job := ⟨p, {}, [a, b, a], .ofLimit crashing 1, fun _ _ => false, ⟨0⟩⟩
    ∃ log s log' s', Completes j log s ∧ Completes j' log' s' ∧
      (log.filter (·.1.deviceKey ≠ "b")).Perm (log'.filter (·.1.deviceKey ≠ "b")) ∧
      (log'.filter (·.1.deviceKey = "b")).length = 1 ∧
      ∀ x ∈ log', x.1 = b → x.2 = ⟨p, b, none, some (.other "endpoint sender panicked")⟩ := by
  intro p a b refusing crashing j j'
  have hj : j.transport.Routed := .ofCalls _ (by decide)
  have hj' : j'.transport.Routed := .ofCalls _ (by decide)
  obtain ⟨log, s, h⟩ := (Ready.start hj rfl).exists_completes hj rfl fun _ _ => rfl
  obtain ⟨log', s', h'⟩ := (Ready.start hj' rfl).exists_completes hj' rfl fun _ _ => rfl
  have hagree : ∀ e, e.deviceKey ≠ "b" → refusing p {} e = crashing p {} e := by
    intro e he
    simp only [refusing, crashing, if_neg he]
  obtain ⟨-, hanswered, hperm, -, hcount⟩ := isolates hagree h h'
  refine ⟨log, s, log', s', h, h', hperm, hcount, fun x hx hb => ?_⟩
  have hcrashed := hanswered.crashed x hx (by rw [hb]; rfl)
  rw [hcrashed, hb]

end PushDelivery.Dispatch
