import PushDelivery.Push

/-!
# Subscriptions taken one by one

What becomes of a subscription when it is looked at by itself, without the groups that a plan has
open. A plan looks at the content only when it opens a group, so the two agree only as long as a
group and the request say the same of a provider; that is shown where plans are made.
-/

namespace PushDelivery

/-- What becomes of a subscription by itself. -/
inductive Classification where
  | disabled
  | unresolved (cause : ResolveError)
  | invalidContent (error : PushError)
  | emptyContent (providerType : String)
  | send (provider : Provider) (notification : Notification)
  deriving DecidableEq

namespace Classification

/-- What the request's content makes of a subscription that a provider serves. -/
def ofProvider (request : PushRequest) (p : Provider) : Classification :=
  match request.contentFor p.providerType with
  | .error error => .invalidContent error
  | .ok none => .emptyContent p.providerType
  | .ok (some content) =>
    if (Notification.ofContent content).isEmpty then .emptyContent p.providerType
    else .send p (.ofContent content)

def skipReason? : Classification → Option SkipReason
  | .disabled => some .disabled
  | .unresolved cause => some (.unresolved cause)
  | .emptyContent providerType => some (.emptyContent providerType)
  | _ => none

def error? : Classification → Option PushError
  | .invalidContent error => some error
  | _ => none

def provider? : Classification → Option Provider
  | .send p _ => some p
  | _ => none

theorem ofProvider_of_error {request : PushRequest} {p : Provider} {error : PushError}
    (h : PushPlan.notificationFor request p.providerType = .error error) :
    ofProvider request p = .invalidContent error := by
  unfold PushPlan.notificationFor at h
  unfold ofProvider
  cases hc : request.contentFor p.providerType with
  | error error' =>
    rw [hc] at h
    cases h
    rfl
  | ok content =>
    rw [hc] at h
    cases h

theorem ofProvider_of_ok {request : PushRequest} {p : Provider} {n : Notification}
    (h : PushPlan.notificationFor request p.providerType = .ok n) :
    ofProvider request p = if n.isEmpty then .emptyContent p.providerType else .send p n := by
  unfold PushPlan.notificationFor at h
  unfold ofProvider
  cases hc : request.contentFor p.providerType with
  | error error' =>
    rw [hc] at h
    cases h
  | ok content =>
    rw [hc] at h
    cases h
    cases content with
    | none => rfl
    | some content => rfl

/-- Whether the content is refused is a matter of the provider's type. -/
theorem error?_ofProvider_congr {request : PushRequest} {p q : Provider}
    (h : p.providerType = q.providerType) :
    (ofProvider request p).error? = (ofProvider request q).error? := by
  unfold ofProvider
  rw [h]
  cases request.contentFor q.providerType with
  | error error => rfl
  | ok content =>
    cases content with
    | none => rfl
    | some content =>
      dsimp only
      split <;> rfl

end Classification

/-- What becomes of a subscription by itself. -/
def Subscription.classify (service : Service) (request : PushRequest) (s : Subscription) :
    Classification :=
  if !s.enabled then .disabled
  else
    match s.toEndpoint.resolve service.providers with
    | .error cause => .unresolved cause
    | .ok p => .ofProvider request p

namespace Subscription

variable {service : Service} {s : Subscription} (request : PushRequest)

theorem classify_of_disabled (service : Service) (h : s.enabled = false) :
    s.classify service request = .disabled := by
  simp [classify, h]

theorem classify_of_unresolved {cause : ResolveError} (h : s.enabled = true)
    (hr : s.toEndpoint.resolve service.providers = .error cause) :
    s.classify service request = .unresolved cause := by
  simp [classify, h, hr]

theorem classify_of_resolved {p : Provider} (h : s.enabled = true)
    (hr : s.toEndpoint.resolve service.providers = .ok p) :
    s.classify service request = .ofProvider request p := by
  simp [classify, h, hr]

end Subscription

namespace PushPlan

variable {service : Service} {request : PushRequest} {plan : PushPlan} {s : Subscription}

/-- Everything that planning one more subscription can do. -/
inductive Adds (service : Service) (request : PushRequest) (plan : PushPlan) (s : Subscription) :
    Except PushError PushPlan → Prop
  | disabled : s.enabled = false → Adds service request plan s (.ok (plan.skip s.id .disabled))
  | unresolved {cause : ResolveError} : s.enabled = true →
      s.toEndpoint.resolve service.providers = .error cause →
      Adds service request plan s (.ok (plan.skip s.id (.unresolved cause)))
  /-- The group is open already. -/
  | join {p : Provider} {g : PushGroup} : s.enabled = true →
      s.toEndpoint.resolve service.providers = .ok p → plan.groups[p.id]? = some g →
      Adds service request plan s (.ok (plan.join p.id g s.toEndpoint))
  | invalidContent {p : Provider} {error : PushError} : s.enabled = true →
      s.toEndpoint.resolve service.providers = .ok p → plan.groups[p.id]? = none →
      Classification.ofProvider request p = .invalidContent error →
      Adds service request plan s (.error error)
  | emptyContent {p : Provider} : s.enabled = true →
      s.toEndpoint.resolve service.providers = .ok p → plan.groups[p.id]? = none →
      Classification.ofProvider request p = .emptyContent p.providerType →
      Adds service request plan s (.ok (plan.skip s.id (.emptyContent p.providerType)))
  /-- A group is opened. -/
  | send {p : Provider} {n : Notification} : s.enabled = true →
      s.toEndpoint.resolve service.providers = .ok p → plan.groups[p.id]? = none →
      Classification.ofProvider request p = .send p n →
      Adds service request plan s (.ok (plan.setGroup ⟨p, n, [s.toEndpoint]⟩))

theorem adds_of_add_eq {result : Except PushError PushPlan}
    (h : add service request plan s = result) : Adds service request plan s result := by
  subst h
  unfold add
  split
  next he => exact .disabled (by simpa using he)
  next he =>
    have he' : s.enabled = true := by simpa using he
    dsimp only
    split
    next cause hr => exact .unresolved he' hr
    next p hr =>
      split
      next g hg => exact .join he' hr hg
      next hg =>
        split
        next error hn => exact .invalidContent he' hr hg (Classification.ofProvider_of_error hn)
        next n hn =>
          have hp := Classification.ofProvider_of_ok hn
          split
          next hempty =>
            rw [if_pos hempty] at hp
            exact .emptyContent he' hr hg hp
          next hempty =>
            rw [if_neg hempty] at hp
            exact .send he' hr hg hp

end PushPlan

end PushDelivery
