import PushDelivery.Proofs.Notification
import PushDelivery.Proofs.Push.Course
import PushDelivery.Proofs.Push.Planning

/-!
# The content of a push

From the content of a request to the subscriptions that are skipped: which content a provider's type
has, what of it a notification keeps, and that a subscription is skipped for want of content exactly
if nothing of it is kept.
-/

namespace PushDelivery

open Numeral

/-- The request has nothing to send to a provider type: no content, null, or an object without a
string and without an integer. -/
inductive PushRequest.Textless (request : PushRequest) (providerType : String) : Prop
  | absent : request.content[providerType]? = none → Textless request providerType
  | null : request.content[providerType]? = some .null → Textless request providerType
  | object {members : List (String × Json)} :
      request.content[providerType]? = some (.object members) →
      (∀ (name : String) (v : Json),
        (.ofList members : StringMap Json)[name]? = some v → ¬ v.IsTextual) →
      Textless request providerType

/-- The content for a provider type: none if it is absent or null, and the members of an object. -/
structure PushRequest.Selects (request : PushRequest) (providerType : String) : Prop where
  absent : request.content[providerType]? = none → request.contentFor providerType = .ok none
  null : request.content[providerType]? = some .null → request.contentFor providerType = .ok none
  object : ∀ members, request.content[providerType]? = some (.object members) →
    request.contentFor providerType = .ok (some (.ofList members))

/-- What a notification has of the content from which it is made. -/
structure Notification.KeepsTexts (content : StringMap Json) : Prop where
  present : ∀ name, (ofContent content).get? name ≠ none ↔
    ∃ v : Json, content[name]? = some v ∧ v.IsTextual
  text : ∀ name text, (ofContent content).get? name = some text ↔
    ∃ v : Json, content[name]? = some v ∧ v.HasText text

/-- The texts of numbers: those of integers are read back as the integers, doubles have none, and a
number that was written as some text has this text or none. -/
structure Json.KeepsIntegers : Prop where
  integer : ∀ n lower upper, ∃ text, (number (.integer n lower upper)).HasText text ∧
    IsCanonical text.toList n ∧ readInteger text = some n
  real : ∀ x finite, ¬ (number (.real x finite)).IsTextual
  written : ∀ cs n, (readNumberText cs).bind (·.toNumber?) = some n → ∀ text,
    (number n).HasText text ↔ text.toList = cs ∧
      ∃ n : Int, -0x8000000000000000 ≤ n ∧ n < 0x10000000000000000 ∧ IsCanonical cs n

namespace PushRequest

variable {request : PushRequest} {providerType : String}

theorem selects (request : PushRequest) (providerType : String) :
    request.Selects providerType where
  absent h := by simp [contentFor, h]
  null h := by simp [contentFor, h]
  object members h := by simp [contentFor, h]

theorem exists_object_of_contentFor {content : StringMap Json}
    (h : request.contentFor providerType = .ok (some content)) :
    ∃ members, request.content[providerType]? = some (.object members) ∧
      content = .ofList members := by
  unfold contentFor at h
  split at h
  next => cases h
  next => cases h
  next members hmembers =>
    cases h
    exact ⟨members, hmembers, rfl⟩
  next => cases h

theorem contentFor_eq_none_iff : request.contentFor providerType = .ok none ↔
    request.content[providerType]? = none ∨ request.content[providerType]? = some .null := by
  constructor
  · intro h
    unfold contentFor at h
    split at h
    next habsent => exact .inl habsent
    next hnull => exact .inr hnull
    next => cases h
    next => cases h
  · rintro (h | h)
    · exact (request.selects providerType).absent h
    · exact (request.selects providerType).null h

theorem textless_iff : request.Textless providerType ↔
    request.contentFor providerType = .ok none ∨ ∃ content,
      request.contentFor providerType = .ok (some content) ∧
        (Notification.ofContent content).isEmpty = true := by
  constructor
  · intro h
    cases h with
    | absent h => exact .inl (contentFor_eq_none_iff.mpr (.inl h))
    | null h => exact .inl (contentFor_eq_none_iff.mpr (.inr h))
    | object h hmembers =>
      exact .inr ⟨_, (request.selects providerType).object _ h,
        Notification.isEmpty_ofContent.mpr hmembers⟩
  · rintro (h | ⟨content, h, hempty⟩)
    · rcases contentFor_eq_none_iff.mp h with h | h
      · exact .absent h
      · exact .null h
    · obtain ⟨members, hmembers, rfl⟩ := exists_object_of_contentFor h
      exact .object hmembers (Notification.isEmpty_ofContent.mp hempty)

end PushRequest

theorem Notification.keepsTexts (content : StringMap Json) : KeepsTexts content where
  present name := by
    rw [Option.ne_none_iff_exists']
    simp only [get?_ofContent, Json.isTextual_iff]
    tauto
  text _ _ := get?_ofContent

theorem Json.keepsIntegers : KeepsIntegers where
  integer n lower upper := by
    obtain ⟨text, h⟩ := isTextual_iff.mp (.integer n lower upper)
    refine ⟨text, h, ?_, h.readInteger⟩
    cases h with
    | integer h => exact h
  real := nofun
  written _ _ hread _ := hasText_readNumber hread

/-- A provider's subscriptions are skipped for want of content exactly if there is nothing to send
to its type. -/
theorem Classification.ofProvider_skipReason?_iff {request : PushRequest} {p : Provider}
    {providerType : String} :
    (ofProvider request p).skipReason? = some (.emptyContent providerType) ↔
      p.providerType = providerType ∧ request.Textless p.providerType := by
  rw [PushRequest.textless_iff]
  unfold ofProvider
  split
  next h => simp [skipReason?, h]
  next h => simp [skipReason?, h]
  next content h =>
    split
    next hempty => simp [skipReason?, h, hempty]
    next hempty => simp [skipReason?, h, hempty]

namespace Push

/-- The subscriptions that a push skips, and among them those that it skips for want of content: the
ones whose provider is of a type that the request has no text for. -/
structure SkipsTextless (service : Service) (subscriptions : List Subscription)
    (request : PushRequest) (skipped : List SkippedSubscription) : Prop where
  alone : skipped = PushPlan.skippedAlone service request subscriptions
  skips : ∀ s ∈ subscriptions, s.enabled = true → ∀ p,
    s.toEndpoint.resolve service.providers = .ok p →
    ((s.classify service request).skipReason? = some (.emptyContent p.providerType) ↔
      request.Textless p.providerType) ∧
    (⟨s.id, .emptyContent p.providerType⟩ ∈ skipped ↔ request.Textless p.providerType)

variable {service : Service} {subscriptions : List Subscription} {request : PushRequest}
  {providerType : String}

theorem textless_of_classify {s : Subscription}
    (h : (s.classify service request).skipReason? = some (.emptyContent providerType)) :
    request.Textless providerType := by
  unfold Subscription.classify at h
  split at h
  next => cases h
  next =>
    split at h
    next => cases h
    next p _ =>
      obtain ⟨rfl, htextless⟩ := Classification.ofProvider_skipReason?_iff.mp h
      exact htextless

theorem skipsTextless_of_make (hids : PushPlan.IdsFixProviders service) {plan : PushPlan}
    (hmake : PushPlan.make service subscriptions request = .ok plan) :
    SkipsTextless service subscriptions request plan.skipped where
  alone := (PushPlan.represents_of_make hids hmake).skipped
  skips s hs he p hp := by
    have hclass : (s.classify service request).skipReason? = some (.emptyContent p.providerType) ↔
        request.Textless p.providerType := by
      rw [s.classify_of_resolved request he hp, Classification.ofProvider_skipReason?_iff,
        and_iff_right rfl]
    refine ⟨hclass, ?_⟩
    rw [(PushPlan.represents_of_make hids hmake).skipped, PushPlan.skippedAlone, List.mem_filterMap]
    constructor
    · rintro ⟨s', -, h⟩
      obtain ⟨reason, hreason, heq⟩ := Option.map_eq_some_iff.mp h
      obtain ⟨-, rfl⟩ := SkippedSubscription.mk.inj heq
      exact textless_of_classify hreason
    · intro h
      exact ⟨s, hs, by rw [hclass.mpr h, Option.map_some]⟩

/-- Content is selected and converted without loss of any text or integer, a notification is made
again from its own fields, and where ids determine the providers exactly those subscriptions are
skipped for want of content that there is no text for. -/
theorem contents_kept {σ : Type} [SubscriptionStore σ] (service : Service)
    (subscriptions : List Subscription) (request : PushRequest) (route : String → Transport)
    (l : Ledger σ) (notificationId : String) :
    (∀ providerType, request.Selects providerType) ∧
    (∀ content, Notification.KeepsTexts content) ∧
    Json.KeepsIntegers ∧
    (∀ n : Notification, ∃ members, Json.ofTextMap n.data = .object members ∧
      .ofContent (.ofList members) = n) ∧
    (PushPlan.IdsFixProviders service →
      (∀ c, run notificationId service subscriptions request route l = .ok c →
        SkipsTextless service subscriptions request c.report.skipped) ∧
      (∀ skipped r, Course.Reachable service subscriptions request route l
          ⟨.dispatching skipped, r⟩ →
        SkipsTextless service subscriptions request skipped)) := by
  refine ⟨request.selects, Notification.keepsTexts, Json.keepsIntegers,
    Notification.ofContent_ofTextMap, fun hids => ⟨fun c h => ?_, fun skipped r h => ?_⟩⟩
  · obtain ⟨plan, hmake, rfl⟩ := exists_plan_of_run h
    exact skipsTextless_of_make hids hmake
  · obtain ⟨plan, hmake, rfl, -⟩ := h.exists_plan
    exact skipsTextless_of_make hids hmake

/-- The largest integer is kept and the double `1.0` is not. The subscription whose type has nothing
but null is skipped. -/
theorem contents_kept_of_largest :
    let a : Provider := ⟨1, 1, "a", "gcm", ∅⟩
    let b : Provider := ⟨2, 1, "b", "apns", ∅⟩
    let s : Subscription := ⟨8, "u", 1, "gcm", "k", none, true⟩
    let t : Subscription := ⟨9, "u", 1, "apns", "m", none, true⟩
    let largest : Json := .number (.integer 0xFFFFFFFFFFFFFFFF (by decide) (by decide))
    let one : Json := .number (.real ⟨0x3FF0000000000000⟩ (by decide))
    let content : List (String × Json) := [("badge", largest), ("ratio", one)]
    let request : PushRequest := ⟨"shop", "u", (Std.ExtTreeMap.empty.insert "gcm"
      (.object content)).insert "apns" .null⟩
    (Notification.ofContent (.ofList content)).get? "badge" = some "18446744073709551615" ∧
      (Notification.ofContent (.ofList content)).get? "ratio" = none ∧
      ∃ c, run "id" ⟨1, "shop", [a, b]⟩ [s, t] request (fun _ => .rejecting)
          (⟨{}, [], none⟩ : Ledger MemoryStore) = .ok c ∧
        c.report.skipped = [⟨9, .emptyContent "apns"⟩] := by
  intro a b s t largest one content request
  have hids : PushPlan.IdsFixProviders ⟨1, "shop", [a, b]⟩ := by
    simp [PushPlan.IdsFixProviders, a, b]
  obtain ⟨-, hkeeps, hnumbers, -, hpush⟩ := contents_kept ⟨1, "shop", [a, b]⟩ [s, t] request
    (fun _ => .rejecting) (⟨{}, [], none⟩ : Ledger MemoryStore) "id"
  obtain ⟨hpresent, htext⟩ := hkeeps (.ofList content)
  have hlargest : (.ofList content : StringMap Json)["badge"]? = some largest :=
    Std.ExtTreeMap.getElem?_ofList_of_mem (k := "badge") (by decide) (by decide) (by simp [content])
  have hone : (.ofList content : StringMap Json)["ratio"]? = some one :=
    Std.ExtTreeMap.getElem?_ofList_of_mem (k := "ratio") (by decide) (by decide) (by simp [content])
  refine ⟨(htext _ _).mpr ⟨largest, hlargest, .integer (isCanonical_iff.mpr (by decide +kernel))⟩,
    ?_, ?_⟩
  · by_contra hne
    obtain ⟨v, hv, htextual⟩ := (hpresent "ratio").mp hne
    rw [← Option.some.inj (hone.symm.trans hv)] at htextual
    exact hnumbers.real _ _ htextual
  · have hok : (run "id" ⟨1, "shop", [a, b]⟩ [s, t] request (fun _ => .rejecting)
        (⟨{}, [], none⟩ : Ledger MemoryStore)).isOk = true := by decide +kernel
    cases hrun : run "id" ⟨1, "shop", [a, b]⟩ [s, t] request (fun _ => .rejecting)
        (⟨{}, [], none⟩ : Ledger MemoryStore) with
    | error error =>
      rw [hrun] at hok
      cases hok
    | ok c => exact ⟨c, rfl, ((hpush hids).1 c hrun).alone.trans (by decide +kernel)⟩

end Push

end PushDelivery
