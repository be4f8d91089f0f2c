import PushDelivery.Proofs.Push.Course
import PushDelivery.Proofs.Push.Planning

/-!
# Refused pushes

A push is refused because it has nothing to push to, or because of the content that one of its
subscriptions needs. Which subscription that is does not depend on the groups that the others have
opened, and nothing has been done when a push is refused.
-/

namespace PushDelivery

/-- The complaint about a request's content for a provider type, where it has any that is neither
null nor an object. -/
def PushRequest.objection? (request : PushRequest) (providerType : String) : Option String :=
  match request.content[providerType]? with
  | none | some .null | some (.object _) => none
  | some v => some (contentComplaint providerType v)

/-- The complaint about the content that a subscription needs, if it is enabled and a provider
serves it. -/
def Subscription.objection? (service : Service) (request : PushRequest) (s : Subscription) :
    Option String :=
  if s.enabled then
    match s.toEndpoint.resolve service.providers with
    | .error _ => none
    | .ok p => request.objection? p.providerType
  else none

theorem PushRequest.objection?_ne_none_iff {request : PushRequest} {providerType : String} :
    request.objection? providerType ≠ none ↔
      ∃ v, request.content[providerType]? = some v ∧ v ≠ .null ∧
        ∀ members, v ≠ .object members := by
  unfold objection?
  cases request.content[providerType]? with
  | none => simp
  | some v => cases v <;> simp

theorem Classification.error?_ofProvider (request : PushRequest) (p : Provider) :
    (Classification.ofProvider request p).error? =
      (request.objection? p.providerType).map .invalidContent := by
  unfold ofProvider PushRequest.contentFor PushRequest.objection?
  cases request.content[p.providerType]? with
  | none => rfl
  | some v =>
    cases v with
    | object members =>
      dsimp only
      split <;> rfl
    | _ => rfl

namespace Subscription

variable {service : Service} {request : PushRequest} {s : Subscription}

theorem error?_classify : (s.classify service request).error? =
    (s.objection? service request).map .invalidContent := by
  unfold classify objection?
  cases s.enabled with
  | false => rfl
  | true =>
    cases s.toEndpoint.resolve service.providers with
    | error cause => rfl
    | ok p => exact Classification.error?_ofProvider request p

theorem objection?_ne_none_iff : s.objection? service request ≠ none ↔
    s.enabled = true ∧ ∃ p, s.toEndpoint.resolve service.providers = .ok p ∧
      request.objection? p.providerType ≠ none := by
  unfold objection?
  cases s.enabled with
  | false => simp
  | true => cases s.toEndpoint.resolve service.providers <;> simp

end Subscription

namespace Push

open PushPlan (IdsFixTypes)

variable {σ : Type} [SubscriptionStore σ] {service : Service} {subscriptions : List Subscription}
  {request : PushRequest}

theorem findSome?_error? (error : PushError) :
    subscriptions.findSome? (fun s => (s.classify service request).error?) = some error ↔
      ∃ detail, error = .invalidContent detail ∧
        subscriptions.findSome? (Subscription.objection? service request) = some detail := by
  have h : (fun s : Subscription => (s.classify service request).error?) =
      Option.map .invalidContent ∘ Subscription.objection? service request :=
    funext fun _ => Subscription.error?_classify
  rw [h, ← List.map_findSome?, Option.map_eq_some_iff]
  simp only [eq_comm, and_comm]

/-- The planning of a push fails for one of two reasons. -/
theorem make_eq_error_iff_objection (hids : IdsFixTypes service) {error : PushError} :
    PushPlan.make service subscriptions request = .error error ↔
      subscriptions = [] ∧ error = .noSubscriptions request.subscriber service.name ∨
      ∃ detail, error = .invalidContent detail ∧
        subscriptions.findSome? (Subscription.objection? service request) = some detail := by
  rw [PushPlan.make_eq_error_iff hids, findSome?_error?]

/-- A push is refused exactly when there is nothing to push to or some enabled subscription is
served by a provider for whose type the content is no object; then the first such subscription in
the caller's order gives the message. Nothing has been done when it is refused, whatever the
transports. -/
theorem refused_iff (hids : IdsFixTypes service) (notificationId : String)
    (route : String → Transport) (l : Ledger σ) :
    (∀ error r, Course.Reachable service subscriptions request route l ⟨.refused error, r⟩ →
      r.ledger = l ∧ r.dispatches = []) ∧
    (∀ error, run notificationId service subscriptions request route l = .error error ↔
      ∃ r, Course.Reachable service subscriptions request route l ⟨.refused error, r⟩) ∧
    (∀ subscriber name, run notificationId service subscriptions request route l =
        .error (.noSubscriptions subscriber name) ↔
      subscriptions = [] ∧ subscriber = request.subscriber ∧ name = service.name) ∧
    (∀ detail, run notificationId service subscriptions request route l =
        .error (.invalidContent detail) ↔
      subscriptions.findSome? (Subscription.objection? service request) = some detail) ∧
    ((∃ detail, run notificationId service subscriptions request route l =
        .error (.invalidContent detail)) ↔
      ∃ s ∈ subscriptions, s.enabled = true ∧
        ∃ p v, s.toEndpoint.resolve service.providers = .ok p ∧
          request.content[p.providerType]? = some v ∧ v ≠ .null ∧
          ∀ members, v ≠ .object members) := by
  have hcontent : ∀ detail, run notificationId service subscriptions request route l =
        .error (.invalidContent detail) ↔
      subscriptions.findSome? (Subscription.objection? service request) = some detail := by
    intro detail
    rw [run_eq_error_iff, make_eq_error_iff_objection hids]
    simp
  refine ⟨fun error r h => ?_, fun error => ?_, fun subscriber name => ?_, hcontent, ?_⟩
  · obtain ⟨hr, -⟩ := Course.reachable_refused_iff.mp h
    rw [hr]
    exact ⟨rfl, rfl⟩
  · rw [run_eq_error_iff]
    refine ⟨fun h => ⟨_, Course.reachable_refused_iff.mpr ⟨rfl, h⟩⟩, ?_⟩
    rintro ⟨r, h⟩
    exact (Course.reachable_refused_iff.mp h).2
  · rw [run_eq_error_iff, make_eq_error_iff_objection hids]
    simp
  · simp only [hcontent]
    rw [← Option.isSome_iff_exists, List.findSome?_isSome_iff]
    refine exists_congr fun s => and_congr_right fun _ => ?_
    rw [← Option.ne_none_iff_isSome, Subscription.objection?_ne_none_iff]
    simp only [PushRequest.objection?_ne_none_iff, exists_and_left]

/-- The second of two subscriptions needs content that is a list, and the first one has a group open
by then. -/
theorem refused_after_group :
    run "id" ⟨1, "shop", [⟨1, 1, "a", "gcm", ∅⟩, ⟨2, 1, "b", "apns", ∅⟩]⟩
        [⟨7, "u", 1, "gcm", "k", none, true⟩, ⟨8, "u", 1, "apns", "k", none, true⟩]
        ⟨"shop", "u", (Std.ExtTreeMap.empty.insert "gcm" (.object [("t", .string "v")])).insert
          "apns" (.array [])⟩
        (fun _ => .rejecting) (⟨{}, [], none⟩ : Ledger MemoryStore) =
      .error (.invalidContent (PushRequest.contentComplaint "apns" (.array []))) := by
  refine ((refused_iff ?_ _ _ _).2.2.2.1 _).mpr ?_
  · simp [IdsFixTypes]
  · simp [Subscription.objection?, PushRequest.objection?, Endpoint.resolve,
      Endpoint.admits, Subscription.toEndpoint, Endpoint.withSubscriptionId, Endpoint.put,
      Std.ExtTreeMap.getElem_insert]

end Push

end PushDelivery
