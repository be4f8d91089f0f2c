import PushDelivery.Json.Reader
import PushDelivery.Model

/-!
# Records as documents

A record is a fixed sequence of named fields. A document shows it either as an object, in which
unknown members are passed over unread and no field may stand twice, or as an array of its fields in
their order, of which a tail may be missing.
-/

namespace PushDelivery.Record

/-- The document of each field that is present. -/
abbrev Fields := String → Option Document

/-- The fields of an object; `none` if a name has no value or a field is repeated. -/
def fieldsOfMembers (names : List String) (members : List (Option String × Document)) :
    Option Fields := do
  let named ← members.mapM fun (name, d) => name.map fun name => (name, d)
  let known := named.filter fun (name, _) => names.contains name
  if (known.map (·.1)).Nodup then some fun name => known.lookup name else none

/-- The fields of an array; `none` if there are more items than fields. -/
def fieldsOfItems (names : List String) (items : List Document) : Option Fields :=
  if items.length ≤ names.length then some fun name => (names.zip items).lookup name else none

/-- The fields of a record that a document shows in either form. -/
def fields? (names : List String) : Document → Option Fields
  | .object members => fieldsOfMembers names members
  | .array items => fieldsOfItems names items
  | _ => none

def required {α : Type} (fields : Fields) (name : String) (decode : Document → Option α) :
    Option α :=
  (fields name).bind decode

/-- A field that has a value of its own when it is absent. -/
def defaulted {α : Type} (fields : Fields) (name : String) (default : α)
    (decode : Document → Option α) : Option α :=
  match fields name with
  | none => some default
  | some d => decode d

def text : Document → Option String
  | .string s => s
  | _ => none

/-- A string, or null for none. -/
def optionalText : Document → Option (Option String)
  | .null => some none
  | .string s => s.map some
  | _ => none

def flag : Document → Option Bool
  | .bool b => some b
  | _ => none

def int64 : Document → Option Int64
  | .number (some (.integer n _ _)) => if n < 0x8000000000000000 then some (Int64.ofInt n) else none
  | _ => none

/-- The named parts of an object, each read alike; of several with one name the last stays. -/
def mapOf {α : Type} (decode : Document → Option α) : Document → Option (StringMap α)
  | .object members => do
    let entries ← members.mapM fun (name, d) => do return (← name, ← decode d)
    return .ofList entries
  | _ => none

def textMap : Document → Option (StringMap String) := mapOf text

/-- An object of any values that nest at most `room` deep. -/
def valueMap (room : Nat) : Document → Option (StringMap Json) := mapOf (·.value? Json.read room)

def objectOf (names : List String) (values : List Json) : Json := .object (names.zip values)

end PushDelivery.Record

/-!
## The records of the library

Four types are stored and transmitted: notifications, providers, subscriptions and push requests.
Each has a decoder and two encoders, one for the object with all its fields and one for the array of
its fields in order.
-/

namespace PushDelivery

open Record

namespace Notification

def fieldNames : List String := ["data"]

/-- Reads a notification. -/
def decode (d : Document) : Option Notification := do
  let f ← fields? fieldNames d
  return { data := ← defaulted f "data" ∅ textMap }

def fieldValues (n : Notification) : List Json := [.ofTextMap n.data]

def encode (n : Notification) : Json := objectOf fieldNames n.fieldValues

def encodeArray (n : Notification) : Json := .array n.fieldValues

end Notification

namespace Provider

def fieldNames : List String := ["id", "service_id", "name", "provider_type", "credentials"]

/-- Reads a provider. -/
def decode (d : Document) : Option Provider := do
  let f ← fields? fieldNames d
  return {
    id := ← required f "id" int64
    serviceId := ← required f "service_id" int64
    name := ← required f "name" text
    providerType := ← required f "provider_type" text
    credentials := ← defaulted f "credentials" ∅ textMap }

def fieldValues (p : Provider) : List Json :=
  [.ofInt64 p.id, .ofInt64 p.serviceId, .string p.name, .string p.providerType,
    .ofTextMap p.credentials]

def encode (p : Provider) : Json := objectOf fieldNames p.fieldValues

def encodeArray (p : Provider) : Json := .array p.fieldValues

end Provider

namespace Subscription

def fieldNames : List String :=
  ["id", "alias", "service_id", "provider_type", "device_key", "provider_name", "enabled"]

/-- Reads a subscription. -/
def decode (d : Document) : Option Subscription := do
  let f ← fields? fieldNames d
  return {
    id := ← required f "id" int64
    subscriber := ← required f "alias" text
    serviceId := ← required f "service_id" int64
    providerType := ← required f "provider_type" text
    deviceKey := ← required f "device_key" text
    providerName := ← defaulted f "provider_name" none optionalText
    enabled := ← defaulted f "enabled" true flag }

def fieldValues (s : Subscription) : List Json :=
  [.ofInt64 s.id, .string s.subscriber, .ofInt64 s.serviceId, .string s.providerType,
    .string s.deviceKey, .ofOptionalText s.providerName, .bool s.enabled]

def encode (s : Subscription) : Json := objectOf fieldNames s.fieldValues

def encodeArray (s : Subscription) : Json := .array s.fieldValues

end Subscription

namespace PushRequest

def fieldNames : List String := ["service_alias", "subscription_alias", "content"]

/-- Reads a push request whose content holds values that nest at most `room` deep. -/
def decodeWithin (room : Nat) (d : Document) : Option PushRequest := do
  let f ← fields? fieldNames d
  return {
    service := ← required f "service_alias" text
    subscriber := ← required f "subscription_alias" text
    content := ← defaulted f "content" ∅ (valueMap room) }

/-- Reads a push request that a text shows. Its content stands inside one record, so the values may
nest two levels less than a whole text. -/
def decode (d : Document) : Option PushRequest := decodeWithin (Json.depthLimit - 2) d

/-- Reads a push request that a value shows, which may nest to any depth. -/
def ofJson? (v : Json) : Option PushRequest := decodeWithin v.depth (.ofJson v)

def fieldValues (r : PushRequest) : List Json :=
  [.string r.service, .string r.subscriber, .ofMap r.content]

def encode (r : PushRequest) : Json := objectOf fieldNames r.fieldValues

def encodeArray (r : PushRequest) : Json := .array r.fieldValues

end PushRequest

end PushDelivery
