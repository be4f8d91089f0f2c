import PushDelivery.Json
import PushDelivery.Text
import PushDelivery.Text.Quoted

/-!
# What is delivered, to whom, and what can go wrong

Providers, endpoints and subscriptions, notifications and the requests that they come from, the
errors, and the result of delivering to one endpoint.
-/

/-!
## Providers and services

A provider is one account with a push network: its type names the network, its credentials open it.
A service owns the providers through which its subscribers are reached.
-/

namespace PushDelivery

/-- An account with a push network. -/
structure Provider where
  id : Int64
  serviceId : Int64
  name : String
  providerType : String
  credentials : StringMap String := ∅
  deriving DecidableEq

/-- A service with its providers. -/
structure Service where
  id : Int64
  name : String
  providers : List Provider := []
  deriving DecidableEq

namespace Provider

def withCredential (p : Provider) (name value : String) : Provider :=
  { p with credentials := p.credentials.insert name value }

/-- The names of the credentials that a network asks for, where the network is known. -/
def accessKeyNames? (providerType : String) : Option (List String) :=
  if providerType = "gcm" then some ["projectid", "apikey"]
  else if providerType = "apns" then some ["cert", "key"]
  else none

/-- The credentials that are used: those a known network asks for, a missing one being empty, and
all of them for an unknown network. -/
def accessKeys (p : Provider) : StringMap String :=
  match accessKeyNames? p.providerType with
  | none => p.credentials
  | some names => .ofList (names.map fun name => (name, p.credentials[name]?.getD ""))

end Provider

end PushDelivery

/-!
## Endpoints

An endpoint is one device as a dispatch sees it. Beside its fixed fields it carries volatile data:
the subscription it stands for and, after a rotation, the device's new key. The new key is kept
under the name that the provider type uses for device keys, so senders and readers agree on it.
-/

namespace PushDelivery

/-- The name under which a provider type keeps a device key; empty for a type without one. -/
def deviceKeyName (providerType : String) : String :=
  if providerType = "gcm" then "regid"
  else if providerType = "apns" then "devtoken"
  else ""

/-- The name for a new device key when the provider type has none of its own. -/
def defaultKeyName : String := "regid"

/-- The name under which volatile data keeps the subscription's id. -/
def subscriptionIdName : String := "subscription_id"

/-- A device to deliver to. -/
structure Endpoint where
  serviceId : Int64
  providerType : String
  deviceKey : String
  /-- The provider that the device asks for by name. -/
  providerName : Option String := none
  /-- What the dispatch knows about the device beyond its fixed fields. -/
  volatileData : StringMap String := ∅
  deriving DecidableEq

namespace Endpoint

def put (e : Endpoint) (name value : String) : Endpoint :=
  { e with volatileData := e.volatileData.insert name value }

def remove (e : Endpoint) (name : String) : Endpoint :=
  { e with volatileData := e.volatileData.erase name }

def withProviderName (e : Endpoint) (name : String) : Endpoint :=
  { e with providerName := some name }

def withProviderType (e : Endpoint) (providerType : String) : Endpoint :=
  { e with providerType }

/-- The endpoint, standing for a subscription. -/
def withSubscriptionId (e : Endpoint) (id : Int64) : Endpoint :=
  e.put subscriptionIdName (Numeral.signedDecimal id.toInt)

/-- The text of the subscription's id. -/
def subscriptionId? (e : Endpoint) : Option String := e.volatileData[subscriptionIdName]?

/-- The name under which a new device key is kept. -/
def replacementKeyName (e : Endpoint) : String :=
  if deviceKeyName e.providerType = "" then defaultKeyName else deviceKeyName e.providerType

/-- The endpoint with a new device key. -/
def setReplacementKey (e : Endpoint) (key : String) : Endpoint :=
  e.put e.replacementKeyName key

/-- The new device key: the type's own entry if it is there and not empty, else the default one on
the same condition. -/
def replacementKey? (e : Endpoint) : Option String :=
  [e.replacementKeyName, defaultKeyName].findSome? fun name =>
    e.volatileData[name]?.filter (· ≠ "")

end Endpoint

end PushDelivery

/-!
## Subscriptions

A subscription is the stored record of one device of a subscriber.
-/

namespace PushDelivery

/-- A stored device of a subscriber. -/
structure Subscription where
  id : Int64
  subscriber : String
  serviceId : Int64
  providerType : String
  deviceKey : String
  providerName : Option String := none
  enabled : Bool := true
  deriving DecidableEq

/-- The endpoint of a subscription; it carries the subscription's id so that a rotated device key
can be written back. -/
def Subscription.toEndpoint (s : Subscription) : Endpoint :=
  let e : Endpoint :=
    { serviceId := s.serviceId, providerType := s.providerType, deviceKey := s.deviceKey
      providerName := s.providerName }
  e.withSubscriptionId s.id

end PushDelivery

/-!
## Errors

The causes of failure and their messages. Choosing a provider fails before anything is sent;
a delivery fails for one endpoint and is reported with its result; a store failure arises when a
rotated device key is written back; a push fails as a whole.
-/

namespace PushDelivery

open Numeral Text

inductive ResolveError where
  | providerNotFound (serviceId : Int64) (providerType name : String)
  | noProviderConfigured (serviceId : Int64) (providerType : String)
  | ambiguousProvider (serviceId : Int64) (providerType : String) (count : Nat)
  deriving DecidableEq

def ResolveError.message : ResolveError → String
  | .providerNotFound serviceId providerType name =>
    "push service provider " ++ quoted name ++ " of type " ++ providerType
      ++ " not found for service " ++ signedDecimal serviceId.toInt
  | .noProviderConfigured serviceId providerType =>
    "no " ++ providerType ++ " push service provider configured for service "
      ++ signedDecimal serviceId.toInt
  | .ambiguousProvider serviceId providerType count =>
    decimal count ++ " " ++ providerType ++ " push service providers configured for service "
      ++ signedDecimal serviceId.toInt ++ ", an explicit provider is required"

inductive StoreError where
  | invalidSubscriptionId (text : String)
  | missingDeviceKey (subscriptionId : Int64)
  | subscriptionNotFound (subscriptionId : Int64)
  | backend (detail : String)
  deriving DecidableEq

def StoreError.message : StoreError → String
  | .invalidSubscriptionId text => "invalid subscription id: " ++ quoted text
  | .missingDeviceKey id => "no replacement device key for subscription " ++ signedDecimal id.toInt
  | .subscriptionNotFound id => "subscription " ++ signedDecimal id.toInt ++ " not found"
  | .backend detail => detail

inductive DispatchError where
  | transient (detail : String)
  | providerConfigStale (detail : String)
  | endpointKeyStale (detail : String)
  | unsubscribe (detail : String)
  | storeFailure (cause : StoreError)
  | unsupportedProviderType (providerType : String)
  | other (detail : String)
  deriving DecidableEq

def DispatchError.message : DispatchError → String
  | .transient detail => "transient delivery failure: " ++ detail
  | .providerConfigStale detail => "push service provider configuration is stale: " ++ detail
  | .endpointKeyStale detail => "delivery point key is stale: " ++ detail
  | .unsubscribe detail => "delivery point unsubscribed: " ++ detail
  | .storeFailure cause => cause.message
  | .unsupportedProviderType providerType =>
    "unsupported push service provider type: " ++ providerType
  | .other detail => detail

/-- The word by which a kind of failure is counted. -/
def DispatchError.kind : DispatchError → String
  | .transient _ => "transient"
  | .providerConfigStale _ => "provider_config_stale"
  | .endpointKeyStale _ => "endpoint_key_stale"
  | .unsubscribe _ => "unsubscribe"
  | .storeFailure _ => "store_failure"
  | .unsupportedProviderType _ => "unsupported_provider_type"
  | .other _ => "other"

inductive PushError where
  | noSubscriptions (subscriber service : String)
  | invalidContent (detail : String)
  deriving DecidableEq

def PushError.message : PushError → String
  | .noSubscriptions subscriber service =>
    "no subscriptions for " ++ subscriber ++ " in " ++ service
  | .invalidContent detail => "invalid notification content: " ++ detail

end PushDelivery

/-!
## Choosing a provider

The candidates for an endpoint are the providers of its service and its type. An endpoint that names
a provider gets the first candidate of that name and nothing else; an endpoint that names none gets
the only candidate there is.
-/

namespace PushDelivery

/-- Whether a provider belongs to the service and the type of an endpoint. -/
def Endpoint.admits (e : Endpoint) (p : Provider) : Bool :=
  p.serviceId = e.serviceId && p.providerType = e.providerType

/-- The provider for an endpoint. -/
def Endpoint.resolve (e : Endpoint) (providers : List Provider) : Except ResolveError Provider :=
  let candidates := providers.filter e.admits
  match e.providerName with
  | some name =>
    match candidates.find? (·.name = name) with
    | some p => .ok p
    | none => .error (.providerNotFound e.serviceId e.providerType name)
  | none =>
    match candidates with
    | [p] => .ok p
    | [] => .error (.noProviderConfigured e.serviceId e.providerType)
    | _ :: _ :: _ => .error (.ambiguousProvider e.serviceId e.providerType candidates.length)

end PushDelivery

/-!
## Notifications

A notification is a map of texts. It is made from JSON content by keeping the members that have an
exact text, strings and integers, and leaving out all others.
-/

namespace PushDelivery

/-- What is sent to a device. -/
structure Notification where
  data : StringMap String := ∅
  deriving DecidableEq

namespace Notification

def withField (n : Notification) (name value : String) : Notification :=
  ⟨n.data.insert name value⟩

def get? (n : Notification) (name : String) : Option String := n.data[name]?

def isEmpty (n : Notification) : Bool := n.data.isEmpty

/-- The text that a content member contributes: a string as it is, an integer as its decimal
numeral, anything else nothing. -/
def fieldText? : Json → Option String
  | .string s => some s
  | .number (.integer n _ _) => some (Numeral.signedDecimal n)
  | _ => none

def ofContent (content : StringMap Json) : Notification :=
  ⟨content.filterMap fun _ v => fieldText? v⟩

end Notification

end PushDelivery

/-!
## Push requests

A request carries its content once per provider type. Content for a type is absent, null or an
object; anything else makes the request invalid for that type.
-/

namespace PushDelivery

/-- A request to push to all devices of a subscriber. -/
structure PushRequest where
  service : String
  subscriber : String
  content : StringMap Json := ∅

/-- The complaint about content that is no object. -/
def PushRequest.contentComplaint (providerType : String) (v : Json) : String :=
  "content for " ++ providerType ++ " must be an object, got " ++ v.text

/-- The content for a provider type, if the request has any. -/
def PushRequest.contentFor (r : PushRequest) (providerType : String) :
    Except PushError (Option (StringMap Json)) :=
  match r.content[providerType]? with
  | none => .ok none
  | some .null => .ok none
  | some (.object members) => .ok (some (.ofList members))
  | some v => .error (.invalidContent (contentComplaint providerType v))

end PushDelivery

/-!
## Delivery results

What became of one endpoint: where it was sent, and either nothing wrong or an error.
-/

namespace PushDelivery

/-- The result of delivering to one endpoint. -/
structure DeliveryResult where
  provider : Provider
  destination : Endpoint
  /-- The id that the push network gave to the message. -/
  messageId : Option String := none
  error : Option DispatchError := none
  deriving DecidableEq

namespace DeliveryResult

def isError (r : DeliveryResult) : Bool := r.error.isSome

/-- The word by which the result is counted: the kind of its error, or success. -/
def outcome (r : DeliveryResult) : String :=
  match r.error with
  | none => "success"
  | some e => e.kind

end DeliveryResult

end PushDelivery
