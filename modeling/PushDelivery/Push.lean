import PushDelivery.Dispatch.Step
import PushDelivery.Model
import PushDelivery.Text

/-!
# Pushes

A push looks up a subscriber's endpoints, groups them by provider, dispatches each group and reports
what came of all of them.
-/

/-!
## Planning a push

A push to a subscriber is planned before anything is sent. Each subscription is skipped, with a
reason, or its endpoint joins the group of its provider. The first endpoint of a group brings the
group's notification; later ones join without another look at the content. Content of the wrong
shape ends the planning at once.
-/

namespace PushDelivery

/-- Why a subscription is not pushed to. -/
inductive SkipReason where
  | disabled
  | unresolved (cause : ResolveError)
  | emptyContent (providerType : String)
  deriving DecidableEq

structure SkippedSubscription where
  subscriptionId : Int64
  reason : SkipReason
  deriving DecidableEq

/-- The endpoints that one provider serves, with what is sent to them. -/
structure PushGroup where
  provider : Provider
  notification : Notification
  endpoints : List Endpoint
  deriving DecidableEq

/-- What a push is going to do: which subscriptions it skips, and its groups by provider id. -/
structure PushPlan where
  skipped : List SkippedSubscription := []
  groups : Std.ExtTreeMap Int64 PushGroup := ∅

namespace PushPlan

def skip (plan : PushPlan) (id : Int64) (reason : SkipReason) : PushPlan :=
  { plan with skipped := plan.skipped ++ [⟨id, reason⟩] }

/-- The plan with a group added or replaced. -/
def setGroup (plan : PushPlan) (g : PushGroup) : PushPlan :=
  { plan with groups := plan.groups.insert g.provider.id g }

/-- The plan with an endpoint at the end of a group that it has under an id. -/
def join (plan : PushPlan) (id : Int64) (g : PushGroup) (e : Endpoint) : PushPlan :=
  { plan with groups := plan.groups.insert id { g with endpoints := g.endpoints ++ [e] } }

/-- The notification that a request holds for a provider type; empty if there is no content. -/
def notificationFor (request : PushRequest) (providerType : String) :
    Except PushError Notification :=
  (request.contentFor providerType).map fun content => (content.map .ofContent).getD {}

/-- Plans one more subscription. -/
def add (service : Service) (request : PushRequest) (plan : PushPlan) (s : Subscription) :
    Except PushError PushPlan :=
  if !s.enabled then .ok (plan.skip s.id .disabled)
  else
    let e := s.toEndpoint
    match e.resolve service.providers with
    | .error cause => .ok (plan.skip s.id (.unresolved cause))
    | .ok provider =>
      match plan.groups[provider.id]? with
      | some g => .ok (plan.join provider.id g e)
      | none =>
        match notificationFor request provider.providerType with
        | .error error => .error error
        | .ok notification =>
          if notification.isEmpty then
            .ok (plan.skip s.id (.emptyContent provider.providerType))
          else .ok (plan.setGroup ⟨provider, notification, [e]⟩)

/-- Plans a push; one without any subscription is refused. -/
def make (service : Service) (subscriptions : List Subscription) (request : PushRequest) :
    Except PushError PushPlan :=
  if subscriptions.isEmpty then .error (.noSubscriptions request.subscriber service.name)
  else subscriptions.foldlM (add service request) {}

end PushPlan

end PushDelivery

/-!
## Running the dispatches of a push

The dispatches of a push run side by side and share one ledger. A move of the whole is a move of one
of them.
-/

namespace PushDelivery

/-- The jobs of a plan, in ascending order of their providers' ids. -/
def PushPlan.jobs (plan : PushPlan) (route : String → Transport) : List Job :=
  plan.groups.values.map fun g =>
    { provider := g.provider, notification := g.notification, endpoints := g.endpoints
      transport := route g.provider.providerType }

namespace Push

open Dispatch

/-- Dispatches that run side by side, each with its job, and the ledger that they share. -/
structure Running (σ : Type) where
  ledger : Ledger σ
  dispatches : List (Job × State)

variable {σ : Type}

def Running.start (jobs : List Job) (ledger : Ledger σ) : Running σ :=
  ⟨ledger, jobs.map fun j => (j, j.start)⟩

variable [SubscriptionStore σ]

def Running.step (r : Running σ) (place : Nat) (label : Label) : Option (Running σ) := do
  let (j, s) ← r.dispatches[place]?
  let (s, ledger) ← Dispatch.step j label s r.ledger
  return ⟨ledger, r.dispatches.set place (j, s)⟩

/-- Completes the dispatches one after another, each eagerly, which is one of their
interleavings. -/
def completeInOrder : List Job → Ledger σ → List State × Ledger σ
  | [], l => ([], l)
  | j :: rest, l =>
    let (s, l) := complete j (eager j) j.start l
    let (states, l) := completeInOrder rest l
    (s :: states, l)

end Push

end PushDelivery

/-!
## Notification ids

The id of a notification is made of the time and of sixteen random octets: the seconds in lower-case
hexadecimal, a hyphen, and the octets in the Base64 alphabet for URLs.
-/

namespace PushDelivery

structure NotificationId where
  /-- Seconds since the epoch. -/
  seconds : Int64
  random : Vector UInt8 16
  deriving DecidableEq

namespace NotificationId

/-- The text of an id. A time before the epoch shows the word that holds it. -/
def text (id : NotificationId) : String :=
  Numeral.hexadecimal id.seconds.toUInt64.toNat ++ "-"
    ++ String.ofList (Base64.encode id.random.toList)

/-- The parts before and after the first hyphen. -/
def splitParts (cs : List Char) : List Char × List Char :=
  (cs.takeWhile (· ≠ '-'), (cs.dropWhile (· ≠ '-')).drop 1)

def read (s : String) : Option (Nat × List UInt8) := do
  let (head, tail) := splitParts s.toList
  let seconds ← Numeral.readDigits Numeral.hexDigit? 16 head
  let octets ← Base64.decode tail
  return (seconds, octets)

end NotificationId

end PushDelivery

/-!
## The report of a push

A push ends with a report: the results of all its dispatches, in the order of the providers' ids and
within one dispatch in the order of its stream, parted into deliveries and failures, beside the
subscriptions that were skipped.
-/

namespace PushDelivery

structure PushReport where
  notificationId : String
  delivered : List DeliveryResult := []
  failures : List DeliveryResult := []
  skipped : List SkippedSubscription := []
  deriving DecidableEq

namespace PushReport

/-- The report of some results. -/
def ofResults (notificationId : String) (skipped : List SkippedSubscription)
    (results : List DeliveryResult) : PushReport where
  notificationId
  delivered := results.filter (!·.isError)
  failures := results.filter (·.isError)
  skipped

/-- Whether no endpoint failed; skipped subscriptions are no failures. -/
def isSuccess (r : PushReport) : Bool := r.failures.isEmpty

def errorMessages (r : PushReport) : List String :=
  r.failures.filterMap fun result => result.error.map (·.message)

end PushReport

namespace Push

variable {σ : Type} [SubscriptionStore σ]

/-- What a push leaves behind: its report, the dispatches at their end, and the ledger. -/
structure Completed (σ : Type) where
  report : PushReport
  dispatches : List (Job × Dispatch.State)
  ledger : Ledger σ

/-- Pushes to all subscriptions of a subscriber. A push that fails has started no dispatch. -/
def run (notificationId : String) (service : Service) (subscriptions : List Subscription)
    (request : PushRequest) (route : String → Transport) (ledger : Ledger σ) :
    Except PushError (Completed σ) := do
  let plan ← PushPlan.make service subscriptions request
  let jobs := plan.jobs route
  let (states, ledger) := completeInOrder jobs ledger
  let results := states.flatMap (·.history.taken)
  return {
    report := .ofResults notificationId plan.skipped results
    dispatches := jobs.zip states
    ledger }

end Push

end PushDelivery
