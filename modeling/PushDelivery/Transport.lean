import PushDelivery.Model
import PushDelivery.Text

/-!
# Senders and transports

A sender delivers to one endpoint. A transport delivers to many, most often by calling a sender for
each. A registry assigns a transport to each provider type.
-/

/-!
## Senders

A sender delivers a notification to one endpoint through a provider. It may write to the endpoint's
volatile data, and it ends by accepting, by refusing with an error, or by crashing. A crash undoes
what it wrote.
-/

namespace PushDelivery

/-- How a sender's call ended. -/
inductive Verdict where
  | accepted (messageId : Option String)
  | refused (error : DispatchError)
  | crashed
  deriving DecidableEq

/-- What a sender's call left behind: the endpoint as it was written, and the verdict. -/
structure SendOutcome where
  endpoint : Endpoint
  verdict : Verdict
  deriving DecidableEq

/-- Delivers a notification to an endpoint through a provider. -/
abbrev Sender := Provider → Notification → Endpoint → SendOutcome

/-- The result for an endpoint whose sender call ended in an outcome. -/
def SendOutcome.result (o : SendOutcome) (provider : Provider) (accepted : Endpoint) :
    DeliveryResult :=
  match o.verdict with
  | .accepted messageId => { provider, destination := o.endpoint, messageId }
  | .refused error => { provider, destination := o.endpoint, error := some error }
  | .crashed =>
    { provider, destination := accepted, error := some (.other "endpoint sender panicked") }

/-- The sender that accepts every endpoint and does nothing. -/
def Sender.idle : Sender := fun _ _ e => ⟨e, .accepted none⟩

end PushDelivery

/-!
## Transports

A transport reads endpoints from a feed and puts results on a queue. A fan-out calls one sender for
several endpoints at a time, up to a limit. What the sender does may depend on all that happened
before, so each of its calls, counted from zero, has an answer of its own. A sequential transport
does one thing after another, and decides what to do next from what it has seen; rejecting every
endpoint is one of these.
-/

namespace PushDelivery

inductive Observation where
  /-- The feed gave an endpoint, or came to its end. -/
  | received (endpoint : Option Endpoint)
  /-- A sender's call came back. -/
  | called (outcome : SendOutcome)
  /-- A result was put on the queue, or the queue has lost its reader. -/
  | sent (taken : Bool)
  deriving DecidableEq

inductive Action where
  /-- Waits for the feed; a heedful transport takes a cancellation for the end of the feed. -/
  | receive (heedful : Bool)
  /-- Calls a sender on an endpoint, with a known outcome. -/
  | call (endpoint : Endpoint) (outcome : SendOutcome)
  /-- Waits for room on the queue and puts a result there. -/
  | send (result : DeliveryResult)
  | finish
  deriving DecidableEq

/-- A way to deliver endpoints. -/
inductive Transport where
  /-- Calls a sender for up to `limit` endpoints at a time; `send n` is what it does at its `n`-th
  call. -/
  | fanOut (send : Nat → Sender) (limit : Nat)
  /-- Acts on what it has seen so far, the latest first. -/
  | sequential (next : Provider → Notification → List Observation → Action)

namespace Transport

/-- The most permits that a limiter can hand out; a fan-out with a larger limit fails at once. -/
def maxPermits : Nat := 0x1FFFFFFFFFFFFFFF

/-- The fan-out with a limit; at least one endpoint is always in flight. -/
def ofCalls (send : Nat → Sender) (limit : UInt64) : Transport := .fanOut send (max 1 limit.toNat)

/-- The fan-out with a sender that does the same at each call. -/
def ofLimit (send : Sender) (limit : UInt64) : Transport := ofCalls (fun _ => send) limit

/-- The result of an endpoint whose provider type nothing serves. -/
def rejection (provider : Provider) (e : Endpoint) : DeliveryResult where
  provider
  destination := e
  error := some (.unsupportedProviderType provider.providerType)

/-- The transport that serves no type: it fails every endpoint it is fed. -/
def rejecting : Transport :=
  .sequential fun provider _ seen =>
    match seen with
    | [] | .sent true :: _ => .receive true
    | .received (some e) :: _ => .send (rejection provider e)
    | _ => .finish

end Transport

end PushDelivery

/-!
## Registries

A registry assigns a transport to each provider type that is served. Types match exactly, and the
last registration of a type stands. Endpoints of a type that is not served are rejected.
-/

namespace PushDelivery

/-- What is registered for each provider type. -/
structure Registry (τ : Type u) where
  transports : StringMap τ := ∅

namespace Registry

variable {τ : Type u}

def get? (r : Registry τ) (providerType : String) : Option τ := r.transports[providerType]?

/-- Registers something for a type; also gives what it replaces. -/
def register (r : Registry τ) (providerType : String) (transport : τ) : Option τ × Registry τ :=
  (r.get? providerType, ⟨r.transports.insert providerType transport⟩)

def withTransport (r : Registry τ) (providerType : String) (transport : τ) : Registry τ :=
  (r.register providerType transport).2

def providerTypes (r : Registry τ) : List String := r.transports.keys

/-- The registry that registers the same thing for each of some types. -/
def uniform (providerTypes : List String) (transport : τ) : Registry τ :=
  providerTypes.foldl (fun r providerType => r.withTransport providerType transport) {}

/-- The transport for a type; a type that is not served is rejected. -/
def route (r : Registry Transport) (providerType : String) : Transport :=
  (r.get? providerType).getD .rejecting

end Registry

end PushDelivery
