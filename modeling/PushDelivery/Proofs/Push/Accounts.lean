import PushDelivery.Proofs.Endpoint
import PushDelivery.Proofs.Push.Course
import PushDelivery.Proofs.Push.Planning
import PushDelivery.Transport

/-!
# No subscription is lost or counted twice

Each subscription of a push ends in one place: among the skipped ones, or as the endpoint of one
group, of one dispatch and of one result of the report. It is followed by its id, which an endpoint
carries as text; senders may change everything else of an endpoint, and may answer each call in its
own way. Nothing is assumed of the providers, so two of them may share an id and a group.
-/

namespace PushDelivery

open Dispatch

/-- The subscription that an endpoint stands for. -/
def Endpoint.subscription? (e : Endpoint) : Option Int64 := e.subscriptionId?.bind Numeral.readInt64

theorem Subscription.subscription?_toEndpoint (s : Subscription) :
    s.toEndpoint.subscription? = some s.id := by
  rw [Endpoint.subscription?, s.subscriptionId?_toEndpoint]
  exact Numeral.readInt64_signedDecimal s.id

namespace PushPlan

variable {service : Service} {request : PushRequest} {plan plan' : PushPlan} {s : Subscription}
  {subscriptions done : List Subscription}

/-- The endpoints of all groups. -/
def endpoints (plan : PushPlan) : List Endpoint := plan.groups.values.flatMap (·.endpoints)

theorem endpoints_setGroup_perm {g : PushGroup} (h : plan.groups[g.provider.id]? = none) :
    (plan.setGroup g).endpoints.Perm (g.endpoints ++ plan.endpoints) :=
  flatMap_setGroup_perm PushGroup.endpoints h

theorem endpoints_join_perm {id : Int64} {g : PushGroup} (e : Endpoint)
    (h : plan.groups[id]? = some g) : (plan.join id g e).endpoints.Perm (e :: plan.endpoints) :=
  flatMap_join_perm PushGroup.endpoints h rfl

/-- Where the subscriptions are that have been planned. -/
def Accounts (done : List Subscription) (plan : PushPlan) : Prop :=
  (plan.skipped.map (fun k => some k.subscriptionId) ++
    plan.endpoints.map Endpoint.subscription?).Perm (done.map fun s => some s.id)

/-- The subscriptions that have been planned are those that were skipped and those of the
endpoints. -/
structure Splits (done : List Subscription) (plan : PushPlan) (skipped sent : List Subscription) :
    Prop where
  perm : (skipped ++ sent).Perm done
  skipped : plan.skipped.map SkippedSubscription.subscriptionId = skipped.map Subscription.id
  endpoints : plan.endpoints.Perm (sent.map Subscription.toEndpoint)

namespace Splits

variable {skipped sent : List Subscription}

theorem skip (h : Splits done plan skipped sent) (reason : SkipReason) :
    Splits (done ++ [s]) (plan.skip s.id reason) (skipped ++ [s]) sent where
  perm := by
    rw [List.append_assoc]
    exact (List.perm_middle.trans (h.perm.cons s)).trans (List.perm_append_singleton ..).symm
  skipped := by simp [PushPlan.skip, h.skipped]
  endpoints := h.endpoints

theorem endpoint (h : Splits done plan skipped sent) (hskipped : plan'.skipped = plan.skipped)
    (hendpoints : plan'.endpoints.Perm (s.toEndpoint :: plan.endpoints)) :
    Splits (done ++ [s]) plan' skipped (s :: sent) where
  perm := (List.perm_middle.trans (h.perm.cons s)).trans (List.perm_append_singleton ..).symm
  skipped := by rw [hskipped, h.skipped]
  endpoints := hendpoints.trans (h.endpoints.cons _)

/-- One more subscription is planned and put in one place. -/
theorem of_add (h : Splits done plan skipped sent) (hadd : add service request plan s = .ok plan') :
    ∃ skipped' sent', Splits (done ++ [s]) plan' skipped' sent' := by
  cases adds_of_add_eq hadd with
  | disabled | unresolved | emptyContent => exact ⟨_, _, h.skip _⟩
  | join _ _ hg => exact ⟨_, _, h.endpoint rfl (endpoints_join_perm _ hg)⟩
  | send _ _ hg => exact ⟨_, _, h.endpoint rfl (endpoints_setGroup_perm hg)⟩

theorem accounts (h : Splits done plan skipped sent) : Accounts done plan := by
  have hskipped : plan.skipped.map (fun k => some k.subscriptionId) =
      skipped.map fun s => some s.id := by
    have := congrArg (List.map some) h.skipped
    rwa [List.map_map, List.map_map] at this
  have hendpoints : (plan.endpoints.map Endpoint.subscription?).Perm
      (sent.map fun s => some s.id) := by
    have := h.endpoints.map Endpoint.subscription?
    simpa only [List.map_map, Function.comp_def, Subscription.subscription?_toEndpoint] using this
  rw [Accounts, hskipped]
  refine (hendpoints.append_left _).trans ?_
  rw [← List.map_append]
  exact h.perm.map _

end Splits

theorem exists_splits_of_make (h : make service subscriptions request = .ok plan) :
    ∃ skipped sent, Splits subscriptions plan skipped sent :=
  make_induction (P := fun done plan => ∃ skipped sent, Splits done plan skipped sent)
    ⟨[], [], .refl _, rfl, .refl _⟩ (fun _ _ _ _ ⟨_, _, h⟩ hadd => h.of_add hadd) h

theorem accounts_of_make (h : make service subscriptions request = .ok plan) :
    Accounts subscriptions plan := by
  obtain ⟨skipped, sent, hsplits⟩ := exists_splits_of_make h
  exact hsplits.accounts

end PushPlan

namespace Dispatch

variable {β : Type} {R : DeliveryResult → DeliveryResult → Prop} {j : Job} {s : State}
  {f g : DeliveryResult → β}

/-- What a raw result fixes comes out of a dispatch as it was answered. -/
theorem Settled.map_taken_perm (h : Settled R j s) (hf : ∀ r r', R r r' → f r' = g r) :
    (s.history.taken.map f).Perm ((s.answers j).map fun x => g x.2) := by
  have htaken : s.history.taken.map f = s.history.reconciled.map g := by
    rw [← List.forall₂_eq_eq_eq, List.forall₂_map_left_iff, List.forall₂_map_right_iff]
    exact (h.taken.imp hf).flip
  rw [htaken]
  simpa [Function.comp_def] using h.reconciled.map g

/-- A dispatch has no failure if none of its endpoints is answered by one. -/
theorem Settled.forall_taken_error_eq_none_iff (h : Settled DeliveryResult.Agrees j s) :
    (∀ r ∈ s.history.taken, r.error = none) ↔ ∀ x ∈ s.answers j, x.2.error = none := by
  have hperm := h.map_taken_perm (f := DeliveryResult.isError) fun _ _ ha => ha.isError
  have hmem : (∀ b ∈ s.history.taken.map DeliveryResult.isError, b = false) ↔
      ∀ b ∈ (s.answers j).map fun x => x.2.isError, b = false := by
    simp only [hperm.mem_iff]
  simpa only [List.forall_mem_map, DeliveryResult.isError, Option.isSome_eq_false_iff,
    Option.isNone_iff_eq_none] using hmem

end Dispatch

namespace PushReport

variable {notificationId : String} {skipped : List SkippedSubscription}
  {results : List DeliveryResult}

theorem delivered_append_failures_perm :
    ((ofResults notificationId skipped results).delivered ++
      (ofResults notificationId skipped results).failures).Perm results :=
  List.perm_append_comm.trans (List.filter_append_perm DeliveryResult.isError results)

theorem error_eq_none_of_mem_delivered :
    ∀ r ∈ (ofResults notificationId skipped results).delivered, r.error = none := by
  simp [ofResults, DeliveryResult.isError]

theorem error_ne_none_of_mem_failures :
    ∀ r ∈ (ofResults notificationId skipped results).failures, r.error ≠ none := by
  simp [ofResults, DeliveryResult.isError, Option.isSome_iff_ne_none]

/-- Each failure has its message, in the same place. -/
theorem forall₂_errorMessages (report : PushReport) (h : ∀ r ∈ report.failures, r.error ≠ none) :
    List.Forall₂ (fun r message => ∃ e, r.error = some e ∧ e.message = message)
      report.failures report.errorMessages := by
  unfold errorMessages
  generalize report.failures = failures at h ⊢
  induction failures with
  | nil => exact .nil
  | cons r failures ih =>
    rw [List.forall_mem_cons] at h
    obtain ⟨e, he⟩ := Option.ne_none_iff_exists'.mp h.1
    rw [List.filterMap_cons_some (by rw [he]; rfl)]
    exact .cons ⟨e, he, rfl⟩ (ih h.2)

theorem isSuccess_iff : (ofResults notificationId skipped results).isSuccess = true ↔
    ∀ r ∈ results, r.error = none := by
  simp [isSuccess, ofResults, DeliveryResult.isError]

end PushReport

/-- A fan-out that can start, with a sender that leaves the subscription's id alone at each call. -/
def Transport.KeepsIds (t : Transport) : Prop :=
  ∃ send limit, t = .ofCalls send limit ∧ limit.toNat ≤ maxPermits ∧
    ∀ number p n e, (send number p n e).endpoint.subscriptionId? = e.subscriptionId?

/-- All registered transports are such fan-outs. -/
def Registry.KeepsIds (registry : Registry Transport) : Prop :=
  ∀ providerType transport, registry.get? providerType = some transport → transport.KeepsIds

namespace Registry

variable {registry : Registry Transport} {j : Job}

theorem KeepsIds.route (h : registry.KeepsIds) (providerType : String) :
    (registry.route providerType).Routed ∧
      (registry.route providerType = .rejecting ∨ (registry.route providerType).KeepsIds) := by
  unfold Registry.route
  cases ht : registry.get? providerType with
  | none => exact ⟨.rejecting, .inl rfl⟩
  | some transport =>
    have hkeeps := h providerType transport ht
    obtain ⟨send, limit, rfl, hlimit, -⟩ := hkeeps
    exact ⟨.ofCalls send hlimit, .inr (h providerType _ ht)⟩

/-- The result of an endpoint stands for the same subscription. -/
theorem KeepsIds.subscription?_of_gives (h : registry.KeepsIds) (providerType : String)
    (hj : j.transport = registry.route providerType) {e : Endpoint} {r : DeliveryResult}
    (hr : j.Gives e r) : r.destination.subscription? = e.subscription? := by
  obtain ⟨number, rfl⟩ := hr
  unfold Endpoint.subscription?
  rcases (h.route providerType).2 with hr | ⟨send, limit, hr, -, hkeeps⟩
  · rw [j.answer_of_sequential (hj.trans hr)]
    rfl
  · rw [j.answer_of_fanOut (hj.trans hr), SendOutcome.result]
    cases (send number j.provider j.notification e).verdict with
    | accepted messageId => rw [hkeeps]
    | refused error => rw [hkeeps]
    | crashed => rfl

end Registry

namespace Push

variable {σ : Type} [SubscriptionStore σ] {notificationId : String} {service : Service}
  {subscriptions : List Subscription} {request : PushRequest} {registry : Registry Transport}
  {l : Ledger σ} {c : Completed σ}

theorem flatMap_endpoints_jobs (plan : PushPlan) (route : String → Transport) :
    (plan.jobs route).flatMap Job.endpoints = plan.endpoints := by
  simp [PushPlan.jobs, PushPlan.endpoints, List.flatMap_map]

/-- The results of a completed push stand for the subscriptions of its dispatches. -/
theorem Completes.results_perm (hregistry : registry.KeepsIds)
    (h : Completes notificationId service subscriptions request registry.route l c) :
    ((c.dispatches.flatMap (·.2.history.taken)).map (·.destination.subscription?)).Perm
      (((c.dispatches.map Prod.fst).flatMap Job.endpoints).map Endpoint.subscription?) := by
  have hsettled := h.settled (fun t => (hregistry.route t).1) l.answers_agrees
  rw [List.map_flatMap, List.flatMap_map, List.map_flatMap]
  apply List.Perm.flatMap_left
  intro d hd
  have hroute := h.transport_eq d hd
  have hsame : ∀ r r', DeliveryResult.Agrees r r' →
      r'.destination.subscription? = r.destination.subscription? := fun r r' ha => by
    rw [ha.destination]
  refine ((hsettled d hd).map_taken_perm hsame).trans
    (.trans (.of_eq ?_) ((hsettled d hd).answered.map _))
  rw [List.map_map]
  exact List.map_congr_left fun x hx =>
    hregistry.subscription?_of_gives _ hroute (State.gives_of_mem_answers hx)

theorem Completes.isSuccess_iff {route : String → Transport}
    (h : Completes notificationId service subscriptions request route l c) :
    c.report.isSuccess = true ↔
      ∀ d ∈ c.dispatches, ∀ r ∈ d.2.history.taken, r.error = none := by
  rw [h.report, PushReport.isSuccess_iff]
  simp only [List.mem_flatMap]
  exact ⟨fun hall d hd r hr => hall r ⟨d, hd, hr⟩, fun hall r ⟨d, hd, hr⟩ => hall d hd r hr⟩

/-- Every subscription of a push is accounted for in its report, once, in whatever order the
dispatches and their tasks move. The order in which `run` moves them is one. -/
theorem every_subscription_reported_once (hregistry : registry.KeepsIds) (notificationId : String)
    (l : Ledger σ) :
    (∀ c, run notificationId service subscriptions request registry.route l = .ok c →
      Completes notificationId service subscriptions request registry.route l c) ∧
    ∀ c, Completes notificationId service subscriptions request registry.route l c →
    c.report.delivered.length + c.report.failures.length + c.report.skipped.length =
      subscriptions.length ∧
    (c.report.skipped.map (fun k => some k.subscriptionId) ++
      (c.report.delivered ++ c.report.failures).map (·.destination.subscription?)).Perm
        (subscriptions.map fun s => some s.id) ∧
    (∀ r ∈ c.report.delivered, r.error = none) ∧
    (∀ r ∈ c.report.failures, r.error ≠ none) ∧
    List.Forall₂ (fun r message => ∃ e, r.error = some e ∧ e.message = message)
      c.report.failures c.report.errorMessages ∧
    (c.report.isSuccess = true ↔
      ∀ d ∈ c.dispatches, ∀ r ∈ d.2.history.reported, r.error = none) ∧
    (c.report.isSuccess = true ↔
      ∀ d ∈ c.dispatches, ∀ x ∈ d.2.answers d.1, x.2.error = none) ∧
    (∀ d ∈ c.dispatches, ((d.2.answers d.1).map Prod.fst).Perm d.1.endpoints) := by
  refine ⟨fun c => completes_of_run fun t => (hregistry.route t).1, fun c h => ?_⟩
  have hsettled := h.settled (fun t => (hregistry.route t).1) l.answers_agrees
  obtain ⟨plan, hmake, hskipped, hjobs⟩ := h.reachable.exists_plan
  have hids : (c.report.skipped.map (fun k => some k.subscriptionId) ++
      (c.report.delivered ++ c.report.failures).map (·.destination.subscription?)).Perm
        (subscriptions.map fun s => some s.id) := by
    rw [hskipped]
    refine .trans (.append_left _ ?_) (PushPlan.accounts_of_make hmake)
    rw [← flatMap_endpoints_jobs plan registry.route, ← hjobs]
    refine .trans (.map _ ?_) (h.results_perm hregistry)
    rw [h.report]
    exact PushReport.delivered_append_failures_perm
  have hfailures : ∀ r ∈ c.report.failures, r.error ≠ none := by
    rw [h.report]
    exact PushReport.error_ne_none_of_mem_failures
  refine ⟨?_, hids, ?_, hfailures, c.report.forall₂_errorMessages hfailures, ?_, ?_,
    fun d hd => (hsettled d hd).answered⟩
  · have := hids.length_eq
    simp only [List.length_append, List.length_map] at this
    omega
  · rw [h.report]
    exact PushReport.error_eq_none_of_mem_delivered
  · rw [h.isSuccess_iff]
    refine forall₂_congr fun d hd => ?_
    rw [(hsettled d hd).reported]
  · rw [h.isSuccess_iff]
    exact forall₂_congr fun d hd => (hsettled d hd).forall_taken_error_eq_none_iff

/-- A push to two subscriptions, of which one is disabled and the other's endpoint is refused, as it
is the first that the sender is called for. -/
theorem reported_once_of_two :
    let registry : Registry Transport := Registry.withTransport {} "gcm"
      (.ofCalls (fun number _ _ e =>
        ⟨e, if number = 0 then .refused (.transient "busy") else .accepted none⟩) 4)
    ∃ c, run "id" ⟨1, "shop", [⟨1, 1, "a", "gcm", ∅⟩]⟩
        [⟨7, "u", 1, "gcm", "k", none, false⟩, ⟨8, "u", 1, "gcm", "m", none, true⟩]
        ⟨"shop", "u", Std.ExtTreeMap.empty.insert "gcm" (.object [("t", .string "v")])⟩
        registry.route (⟨{}, [], none⟩ : Ledger MemoryStore) = .ok c ∧
      c.report.delivered.length + c.report.failures.length + c.report.skipped.length = 2 ∧
      (c.report.skipped.map (fun k => some k.subscriptionId) ++
        (c.report.delivered ++ c.report.failures).map (·.destination.subscription?)).Perm
          [some 7, some 8] := by
  intro registry
  have hregistry : registry.KeepsIds := by
    intro providerType transport ht
    simp only [registry, Registry.withTransport, Registry.register, Registry.get?,
      Std.ExtTreeMap.getElem?_insert] at ht
    split at ht
    next => exact ⟨_, 4, (Option.some.inj ht).symm, by decide, fun _ _ _ _ => rfl⟩
    next => cases ht
  cases hrun : run "id" ⟨1, "shop", [⟨1, 1, "a", "gcm", ∅⟩]⟩
      [⟨7, "u", 1, "gcm", "k", none, false⟩, ⟨8, "u", 1, "gcm", "m", none, true⟩]
      ⟨"shop", "u", Std.ExtTreeMap.empty.insert "gcm" (.object [("t", .string "v")])⟩
      registry.route (⟨{}, [], none⟩ : Ledger MemoryStore) with
  | error error =>
    have hok : (PushPlan.make ⟨1, "shop", [⟨1, 1, "a", "gcm", ∅⟩]⟩
        [⟨7, "u", 1, "gcm", "k", none, false⟩, ⟨8, "u", 1, "gcm", "m", none, true⟩]
        ⟨"shop", "u", Std.ExtTreeMap.empty.insert "gcm" (.object [("t", .string "v")])⟩).isOk =
          true := by decide +kernel
    rw [run_eq_error_iff.mp hrun] at hok
    cases hok
  | ok c =>
    have hc := (every_subscription_reported_once hregistry "id" _).1 c hrun
    have h := (every_subscription_reported_once hregistry "id" _).2 c hc
    exact ⟨c, rfl, h.1, h.2.1⟩

end Push

end PushDelivery
