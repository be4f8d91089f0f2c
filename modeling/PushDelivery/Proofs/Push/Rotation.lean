import PushDelivery.Proofs.Dispatch.Calls
import PushDelivery.Proofs.Push.Schedules

/-!
# Each stale key is replaced by its own new key

A sender that finds a device key stale may set a new one on the endpoint. The new key comes back to
the store through the endpoint's data, which also names the subscription, past grouping, concurrent
deliveries and crashes. Over entries held in memory, and over senders that change nothing else of an
endpoint, what is asked of the store is exactly what each call by itself gives cause for.

A `Sending` joins a call with the subscription that it was for. Subscriptions may have the same id,
or be equal; each is sent to at most once. The sender may do something else at each of its calls, so
a sending goes with the number of its call in the dispatch.
-/

namespace PushDelivery

open Dispatch

/-- The sender changes an endpoint only by setting new keys on it. -/
def Sender.RotatesBy (send : Sender) (keys : Provider → Notification → Endpoint → List String) :
    Prop :=
  ∀ p n e, (send p n e).endpoint = e.withKeys (keys p n e)

/-- Each registered transport is a fan-out, of any limit, to what a sender does for its type, at
each of its calls. -/
def Registry.SendsBy (registry : Registry Transport) (send : Nat → Sender) : Prop :=
  ∀ providerType transport, registry.get? providerType = some transport →
    ∃ send' limit, transport = .ofCalls send' limit ∧
      ∀ number p n e, p.providerType = providerType → send' number p n e = send number p n e

theorem Registry.SendsBy.route {registry : Registry Transport} {send : Nat → Sender}
    (h : registry.SendsBy send) (providerType : String) :
    registry.route providerType = .rejecting ∨
      ∃ send' limit, registry.route providerType = .ofCalls send' limit ∧
        ∀ number p n e, p.providerType = providerType → send' number p n e = send number p n e := by
  unfold Registry.route
  cases ht : registry.get? providerType with
  | none => exact .inl rfl
  | some transport => exact .inr (h providerType transport ht)

/-- A subscription that a sender is called for. -/
structure Sending where
  provider : Provider
  notification : Notification
  subscription : Subscription

namespace Sending

variable (x : Sending) (send : Sender) (keys : Provider → Notification → Endpoint → List String)

/-- What the sender is called with. -/
def call : Provider × Notification × Endpoint :=
  (x.provider, x.notification, x.subscription.toEndpoint)

def outcome : SendOutcome := send x.provider x.notification x.subscription.toEndpoint

/-- The last key that the sender sets, unless that is empty. -/
def newKey? : Option String :=
  (keys x.provider x.notification x.subscription.toEndpoint).getLast?.filter (· ≠ "")

/-- The update that is due for the subscription. -/
def rotation? : Option (Int64 × String) :=
  match (x.outcome send).verdict with
  | .refused (.endpointKeyStale _) => (x.newKey? keys).map (x.subscription.id, ·)
  | _ => none

/-- The result before it is reconciled. -/
def raw : DeliveryResult := (x.outcome send).result x.provider x.subscription.toEndpoint

/-- What is due to be reported, over some entries. -/
def report (store : MemoryStore) : DeliveryResult :=
  match (x.outcome send).verdict with
  | .refused (.endpointKeyStale _) =>
    if x.newKey? keys = none then
      { x.raw send with error := some (.storeFailure (.missingDeviceKey x.subscription.id)) }
    else if x.subscription.id ∈ store.entries then x.raw send
    else { x.raw send with
      error := some (.storeFailure (.subscriptionNotFound x.subscription.id)) }
  | _ => x.raw send

variable {x send keys} {detail : String}

theorem error_raw_eq_iff : (x.raw send).error = some (.endpointKeyStale detail) ↔
    (x.outcome send).verdict = .refused (.endpointKeyStale detail) := by
  unfold raw SendOutcome.result
  cases (x.outcome send).verdict <;> simp

theorem requestedUpdate_raw (hsend : send.RotatesBy keys)
    (h : (x.outcome send).verdict = .refused (.endpointKeyStale detail)) :
    (x.raw send).destination.requestedUpdate = match x.newKey? keys with
      | none => .error (.missingDeviceKey x.subscription.id)
      | some key => .ok (x.subscription.id, key) := by
  have hdestination : (x.raw send).destination =
      x.subscription.toEndpoint.withKeys
        (keys x.provider x.notification x.subscription.toEndpoint) := by
    rw [raw, SendOutcome.result, h]
    exact hsend ..
  rw [hdestination, Subscription.requestedUpdate_withKeys]
  rfl

/-- A result asks for the update that is due. -/
theorem request?_raw (hsend : send.RotatesBy keys) :
    (x.raw send).request? = x.rotation? send keys := by
  rcases (x.raw send).stale_cases with ⟨detail, he⟩ | he
  · have h := error_raw_eq_iff.mp he
    rw [Ledger.request?_of_eq he, requestedUpdate_raw hsend h, rotation?, h]
    cases x.newKey? keys <;> rfl
  · rw [Ledger.request?_of_ne he, rotation?]
    split
    next hv => exact (he _ (error_raw_eq_iff.mpr hv)).elim
    next => rfl

theorem reconcile_raw (hsend : send.RotatesBy keys) (l : Ledger MemoryStore) :
    (l.reconcile (x.raw send)).1 = x.report send keys l.store := by
  rcases (x.raw send).stale_cases with ⟨detail, he⟩ | he
  · have h := error_raw_eq_iff.mp he
    have hu := requestedUpdate_raw hsend h
    rw [report, h]
    cases hkey : x.newKey? keys with
    | none =>
      rw [hkey] at hu
      rw [Ledger.reconcile_of_error he hu]
      rfl
    | some key =>
      rw [hkey] at hu
      have hreply : (updateKey l.store x.subscription.id key).1 =
          if x.subscription.id ∈ l.store.entries then .ok ()
          else .error (.subscriptionNotFound x.subscription.id) :=
        MemoryStore.update_fst ..
      rw [Ledger.reconcile_of_ok he hu, hreply]
      by_cases hid : x.subscription.id ∈ l.store.entries
      · simp [hid, Ledger.settle]
      · simp [hid, Ledger.settle]
  · rw [Ledger.reconcile_of_ne he, report]
    split
    next hv => exact (he _ (error_raw_eq_iff.mpr hv)).elim
    next => rfl

/-- Calls for the endpoints of some subscriptions are calls for different ones of them. -/
theorem exists_map_call_eq {calls : List (Nat × Provider × Notification × Endpoint)}
    {sent : List Subscription}
    (h : (calls.map (·.2.2.2)).Subperm (sent.map Subscription.toEndpoint)) :
    ∃ sendings : List (Nat × Sending), sendings.map (fun x => (x.1, x.2.call)) = calls ∧
      (sendings.map (·.2.subscription)).Subperm sent := by
  induction calls generalizing sent with
  | nil => exact ⟨[], rfl, List.nil_subperm⟩
  | cons x calls ih =>
    -- The first call takes one subscription of its endpoint, and the others are left for the rest.
    obtain ⟨s, hs, he⟩ := List.mem_map.mp (h.subset List.mem_cons_self)
    have hsent := List.perm_cons_erase hs
    have hrest : (calls.map (·.2.2.2)).Subperm ((sent.erase s).map Subscription.toEndpoint) := by
      have := h.trans (hsent.map Subscription.toEndpoint).subperm
      rw [List.map_cons, List.map_cons, he] at this
      exact (List.subperm_cons _).mp this
    obtain ⟨sendings, hcalls, hsubscriptions⟩ := ih hrest
    refine ⟨(x.1, ⟨x.2.1, x.2.2.1, s⟩) :: sendings, ?_, ?_⟩
    · rw [List.map_cons, hcalls, call, he]
    · exact ((List.subperm_cons s).mpr hsubscriptions).trans hsent.symm.subperm

end Sending

namespace Push

theorem subperm_flatMap {α β : Type} {f g : α → List β} {as : List α}
    (h : ∀ a ∈ as, (f a).Subperm (g a)) : (as.flatMap f).Subperm (as.flatMap g) := by
  induction as with
  | nil => exact List.nil_subperm
  | cons a as ih =>
    rw [List.forall_mem_cons] at h
    exact h.1.append (ih h.2)

section Completed

variable {σ : Type} [SubscriptionStore σ] {R : DeliveryResult → DeliveryResult → Prop}
  {notificationId : String} {service : Service} {subscriptions : List Subscription}
  {request : PushRequest} {registry : Registry Transport} {send : Nat → Sender} {l : Ledger σ}
  {c : Completed σ}

namespace Completed

/-- The calls of all senders, with their numbers in the dispatches. -/
def calls (c : Completed σ) : List (Nat × Provider × Notification × Endpoint) :=
  c.dispatches.flatMap fun d => d.2.history.called.zipIdx.map fun x =>
    (x.2, d.1.provider, d.1.notification, x.1)

/-- The raw results that no call left behind. -/
def rejections (c : Completed σ) : List DeliveryResult :=
  c.dispatches.flatMap fun d => d.2.rejections d.1

def reconciled (c : Completed σ) : List DeliveryResult :=
  c.dispatches.flatMap (·.2.history.reconciled)

end Completed

namespace Completes

theorem served (hregistry : registry.SendsBy send) (hl : l.Answers R)
    (h : Completes notificationId service subscriptions request registry.route l c) :
    ∀ d ∈ c.dispatches, Served R d.1 d.2 := by
  obtain ⟨plan, -, -, hreaches⟩ := h.reachable.follows
  have hstart : ∀ j ∈ plan.jobs registry.route,
      (∀ number e, j.cancels number e = false) ∧ j.start.cancelled = false ∧
        Attended R j j.start := by
    intro j hj
    obtain ⟨hroute, hcancels⟩ := exists_of_mem_jobs hj
    refine ⟨hcancels, rfl, .start R ?_⟩
    rw [hroute]
    rcases hregistry.route j.provider.providerType with hr | ⟨send', limit, hr, -⟩
    · exact .inl hr
    · exact .inr ⟨send', limit, hr⟩
  have hall : c.ledger.Answers R ∧ ∀ d ∈ c.dispatches,
      (∀ number e, d.1.cancels number e = false) ∧ d.2.cancelled = false ∧ Attended R d.1 d.2 := by
    refine hreaches.keeps (Q := fun l => l.Answers R)
      (P := fun j s => (∀ number e, j.cancels number e = false) ∧ s.cancelled = false ∧
        Attended R j s) ?_ ?_
    · -- Other dispatches only change the ledger, which goes on answering as `R` says.
      intro j label s l s' l' hordinary hm hl hs
      obtain ⟨hcancels, hc, hattended⟩ := hs
      have hc' := (hm.cancelled_eq hcancels hordinary).trans hc
      exact ⟨⟨hcancels, hc', hattended.move hl hm hc'⟩, hm.answers hl⟩
    · simpa only [Running.start, List.forall_mem_map] using And.intro hl hstart
  intro d hd
  obtain ⟨-, hc, hattended⟩ := hall.2 d hd
  exact hattended.served hc (h.ended d hd)

/-- The raw results of a completed push: one for each call, and the rejections. -/
theorem reconciled_perm (hregistry : registry.SendsBy send)
    (h : Completes notificationId service subscriptions request registry.route l c) :
    c.reconciled.Perm
      (c.calls.map (fun x => (send x.1 x.2.1 x.2.2.1 x.2.2.2).result x.2.1 x.2.2.2) ++
        c.rejections) := by
  have hserved := h.served hregistry l.answers_agrees
  rw [Completed.calls, List.map_flatMap]
  refine .trans (.flatMap_left _ fun d hd => ?_) (List.flatMap_append_perm ..).symm
  have hroute := h.transport_eq d hd
  have hs := hserved d hd
  refine hs.reconciled.trans (.of_eq ?_)
  rw [List.map_map]
  congr 1
  -- A dispatch with a call is a fan-out, and its sender does what `send` does.
  by_cases hnone : d.2.history.called = []
  · simp [hnone]
  · obtain ⟨send₁, limit₁, hj⟩ := hs.calls hnone
    rcases hregistry.route d.1.provider.providerType with hr | ⟨send₂, limit₂, hr, hsame⟩
    · rw [hroute, hr] at hj
      cases hj
    · refine List.map_congr_left fun x _ => ?_
      rw [d.1.answer_of_fanOut (hroute.trans hr)]
      exact congrArg (·.result d.1.provider x.1) (hsame _ _ _ _ rfl)

theorem error_of_mem_rejections (hregistry : registry.SendsBy send)
    (h : Completes notificationId service subscriptions request registry.route l c) :
    ∀ r ∈ c.rejections, r.error = some (.unsupportedProviderType r.provider.providerType) := by
  intro r hr
  obtain ⟨d, hd, hr⟩ := List.mem_flatMap.mp hr
  obtain ⟨e, rfl⟩ := (h.served hregistry l.answers_agrees d hd).rejections r hr
  rfl

/-- The sender is called for different subscriptions. -/
theorem exists_sendings (hregistry : registry.SendsBy send)
    (h : Completes notificationId service subscriptions request registry.route l c) :
    ∃ sendings : List (Nat × Sending), sendings.map (fun x => (x.1, x.2.call)) = c.calls ∧
      (sendings.map (·.2.subscription)).Subperm subscriptions := by
  have hserved := h.served hregistry l.answers_agrees
  obtain ⟨plan, hmake, -, hjobs⟩ := h.reachable.exists_plan
  obtain ⟨skipped, sent, hsplits⟩ := PushPlan.exists_splits_of_make hmake
  have hsent : sent.Subperm subscriptions :=
    (List.sublist_append_right skipped sent).subperm.trans hsplits.perm.subperm
  have hcalled : (c.calls.map (·.2.2.2)).Subperm plan.endpoints := by
    rw [← flatMap_endpoints_jobs plan registry.route, ← hjobs, List.flatMap_map, Completed.calls,
      List.map_flatMap]
    refine subperm_flatMap fun d hd => ?_
    rw [List.map_map]
    refine .trans (List.Perm.subperm (.of_eq ?_)) (hserved d hd).called
    exact List.zipIdx_map_fst 0 d.2.history.called
  obtain ⟨sendings, hcalls, hsubscriptions⟩ :=
    Sending.exists_map_call_eq (hcalled.trans hsplits.endpoints.subperm)
  exact ⟨sendings, hcalls, hsubscriptions.trans hsent⟩

/-- Over a steady store the updates are those that the raw results ask for. -/
theorem exists_updates {route : String → Transport} (hl : Steady l.store)
    (h : Completes notificationId service subscriptions request route l c) :
    ∃ updates, c.ledger.updates = l.updates ++ updates ∧
      c.ledger.store = afterUpdates l.store updates ∧
      updates.Perm (c.reconciled.filterMap DeliveryResult.request?) := by
  obtain ⟨plan, -, -, hreaches⟩ := h.reachable.follows
  obtain ⟨es, hledger, hes⟩ := hreaches.record hl
  dsimp only at hledger
  refine ⟨es.filterMap Entry.update?, ?_, ?_, (hes.filterMap _).trans (.of_eq ?_)⟩
  · rw [hledger, Ledger.updates_record]
  · rw [hledger, Ledger.store_record]
  · simp only [Running.journal, Completed.reconciled, List.filterMap_flatMap,
      State.filterMap_update?_journal]

/-- Over a steady store each raw result is answered as at the start. -/
theorem taken_eq (hregistry : registry.SendsBy send) (hl : Steady l.store)
    (h : Completes notificationId service subscriptions request registry.route l c) :
    c.dispatches.flatMap (·.2.history.taken) = c.reconciled.map fun r => (l.reconcile r).1 := by
  rw [Completed.reconciled, List.map_flatMap]
  exact List.flatMap_congr fun d hd =>
    eq_map_of_forall₂ (h.served hregistry (l.answers_of_steady hl) d hd).taken

end Completes

end Completed

section Entries

variable {notificationId : String} {service : Service} {subscriptions : List Subscription}
  {request : PushRequest} {registry : Registry Transport} {send : Nat → Sender}
  {keys : Nat → Provider → Notification → Endpoint → List String} {l : Ledger MemoryStore}
  {c : Completed MemoryStore}

/-- A completed push over entries held in memory. It has called the sender for some of the
subscriptions, each at most once, and for all of a dispatch whose transport could start. The updates
are those that are due for these calls by themselves, and so are the results. The entries keep their
ids, and a key is replaced by one of those that were asked for. -/
theorem rotates_own_keys (hsend : ∀ number, (send number).RotatesBy (keys number))
    (hregistry : registry.SendsBy send)
    (h : Completes notificationId service subscriptions request registry.route l c) :
    ∃ (sendings : List (Nat × Sending)) (updates : List (Int64 × String)),
      sendings.map (fun x => (x.1, x.2.call)) = c.calls ∧
      (sendings.map (·.2.subscription)).Subperm subscriptions ∧
      (∀ d ∈ c.dispatches, ∀ send' limit, d.1.transport = .ofCalls send' limit →
        limit.toNat ≤ Transport.maxPermits → d.2.history.called.Perm d.1.endpoints) ∧
      c.ledger.updates = l.updates ++ updates ∧
      updates.Perm (sendings.filterMap fun x => x.2.rotation? (send x.1) (keys x.1)) ∧
      c.report.delivered.Perm
        ((sendings.map (fun x => x.2.report (send x.1) (keys x.1) l.store) ++
          c.rejections).filter (!·.isError)) ∧
      c.report.failures.Perm
        ((sendings.map (fun x => x.2.report (send x.1) (keys x.1) l.store) ++
          c.rejections).filter (·.isError)) ∧
      (∀ r ∈ c.rejections, r.error = some (.unsupportedProviderType r.provider.providerType)) ∧
      (∀ id, id ∈ c.ledger.store.entries ↔ id ∈ l.store.entries) ∧
      (∀ id, id ∉ updates.map Prod.fst →
        c.ledger.store.deviceKey? id = l.store.deviceKey? id) ∧
      (∀ id ∈ updates.map Prod.fst, id ∈ l.store.entries →
        ∃ key, (id, key) ∈ updates ∧ c.ledger.store.deviceKey? id = some key) := by
  have hl := MemoryStore.steady l.store
  obtain ⟨sendings, hcalls, hsubscriptions⟩ := h.exists_sendings hregistry
  obtain ⟨updates, hupdates, hstore, hasked⟩ := h.exists_updates hl
  have hrejections := h.error_of_mem_rejections hregistry
  have hraw : c.reconciled.Perm (sendings.map (fun x => x.2.raw (send x.1)) ++ c.rejections) := by
    have := h.reconciled_perm hregistry
    rwa [← hcalls, List.map_map] at this
  have hresults : (c.dispatches.flatMap (·.2.history.taken)).Perm
      (sendings.map (fun x => x.2.report (send x.1) (keys x.1) l.store) ++ c.rejections) := by
    have hpassed : ∀ r ∈ c.rejections, (l.reconcile r).1 = r := by
      intro r hr
      rw [Ledger.reconcile_of_ne (by simp [hrejections r hr])]
    rw [h.taken_eq hregistry hl]
    refine (hraw.map _).trans (.of_eq ?_)
    rw [List.map_append, List.map_map, List.map_congr_left hpassed, List.map_id']
    simp only [Function.comp_def, Sending.reconcile_raw (hsend _)]
  refine ⟨sendings, updates, hcalls, hsubscriptions, ?_, hupdates, ?_, ?_, ?_, hrejections, ?_, ?_,
    ?_⟩
  · exact fun d hd => (h.served hregistry l.answers_agrees d hd).complete
  · have hnone : c.rejections.filterMap DeliveryResult.request? = [] := by
      refine List.filterMap_eq_nil_iff.mpr fun r hr => ?_
      rw [Ledger.request?_of_ne (by simp [hrejections r hr])]
    refine (hasked.trans (hraw.filterMap _)).trans (.of_eq ?_)
    rw [List.filterMap_append, hnone, List.append_nil, List.filterMap_map]
    simp only [Function.comp_def, Sending.request?_raw (hsend _)]
  · rw [h.report]
    exact hresults.filter _
  · rw [h.report]
    exact hresults.filter _
  · rw [hstore]
    exact MemoryStore.mem_afterUpdates _ _
  · rw [hstore]
    exact fun id hid => MemoryStore.getElem?_afterUpdates_of_notMem _ hid
  · rw [hstore]
    exact fun id => MemoryStore.exists_getElem?_afterUpdates _

/-- Three stale keys: one is replaced, one is of a subscription that the store does not have, and
for one the last new key is empty. The first call and the later ones set different keys. -/
theorem rotates_own_keys_of_three :
    let keys : Nat → Provider → Notification → Endpoint → List String := fun number _ _ e =>
      if e.deviceKey = "o" then ["x", ""]
      else ["x", e.deviceKey ++ if number = 0 then "'" else "''"]
    let send : Nat → Sender := fun number p n e =>
      ⟨e.withKeys (keys number p n e), .refused (.endpointKeyStale "old")⟩
    let registry : Registry Transport := Registry.withTransport {} "apns" (.ofCalls send 2)
    let subscriptions : List Subscription :=
      [⟨7, "u", 1, "apns", "m", none, true⟩, ⟨8, "u", 1, "apns", "n", none, true⟩,
        ⟨9, "u", 1, "apns", "o", none, true⟩]
    let l : Ledger MemoryStore := ⟨(MemoryStore.insert {} 7 "m").insert 6 "a", [], none⟩
    ∃ c, run "id" ⟨1, "shop", [⟨1, 1, "a", "apns", ∅⟩]⟩ subscriptions
        ⟨"shop", "u", Std.ExtTreeMap.empty.insert "apns" (.object [("t", .string "v")])⟩
        registry.route l = .ok c ∧
      c.ledger.updates = [(7, "m'"), (8, "n''")] ∧
      c.ledger.store.deviceKey? 7 = some "m'" ∧ c.ledger.store.deviceKey? 6 = some "a" ∧
      ∃ sendings : List (Nat × Sending),
        (sendings.map (·.2.subscription)).Subperm subscriptions ∧
        (sendings.filterMap fun x => x.2.rotation? (send x.1) (keys x.1)).Perm
          [(7, "m'"), (8, "n''")] ∧
        c.report.failures.Perm
          ((sendings.map (fun x => x.2.report (send x.1) (keys x.1) l.store) ++
            c.rejections).filter (·.isError)) := by
  intro keys send registry subscriptions l
  have hget : ∀ providerType transport, registry.get? providerType = some transport →
      transport = .ofCalls send 2 := by
    intro providerType transport ht
    simp only [registry, Registry.withTransport, Registry.register, Registry.get?,
      Std.ExtTreeMap.getElem?_insert] at ht
    split at ht
    next => exact (Option.some.inj ht).symm
    next => cases ht
  have hregistry : registry.SendsBy send :=
    fun _ _ ht => ⟨send, 2, hget _ _ ht, fun _ _ _ _ _ => rfl⟩
  have hfans : registry.FansOut := fun _ _ ht => ⟨send, 2, hget _ _ ht, by decide⟩
  have hrun : (run "id" ⟨1, "shop", [⟨1, 1, "a", "apns", ∅⟩]⟩ subscriptions
      ⟨"shop", "u", Std.ExtTreeMap.empty.insert "apns" (.object [("t", .string "v")])⟩
      registry.route l).toOption.map (·.ledger.updates) = some [(7, "m'"), (8, "n''")] := by
    decide +kernel
  obtain ⟨c, hc, hupdates⟩ := exists_of_map_toOption hrun
  obtain ⟨sendings, updates, -, hsubscriptions, -, hasked, hdue, -, hfailures, -, -, hkept,
    hreplaced⟩ := rotates_own_keys (fun _ _ _ _ => rfl) hregistry (completes_of_run hfans.routed hc)
  obtain rfl : updates = [(7, "m'"), (8, "n''")] := hasked.symm.trans hupdates
  obtain ⟨key, hkey, hstore⟩ := hreplaced 7 (by decide) (by decide +kernel)
  refine ⟨c, hc, hupdates, ?_, (hkept 6 (by decide)).trans (by decide +kernel), sendings,
    hsubscriptions, hdue.symm, hfailures⟩
  have hkey' : key = "m'" := by simpa using hkey
  rw [hstore, hkey']

end Entries

end Push

end PushDelivery
