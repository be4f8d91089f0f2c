import PushDelivery.Proofs.Record.Fields
import PushDelivery.Record

/-!
# The four types of records by their fields

A record is read exactly if each of its fields is, it has the values that were read, and what is
written of it are the values of its fields in order. What is proved of records in general rests on
these facts alone.
-/

namespace PushDelivery.Record

/-- The types of records. -/
inductive Kind where
  | notification
  | provider
  | subscription
  | pushRequest
  deriving DecidableEq

namespace Kind

abbrev Carrier : Kind → Type
  | notification => Notification
  | provider => Provider
  | subscription => Subscription
  | pushRequest => PushRequest

/-- The fields of a type in order, with the values that stand for those that may be absent. -/
def fields : (k : Kind) → List (Field k.Carrier)
  | notification => [⟨"data", .textMap, some ∅, Notification.data⟩]
  | provider => [
      ⟨"id", .integer, none, Provider.id⟩,
      ⟨"service_id", .integer, none, Provider.serviceId⟩,
      ⟨"name", .text, none, Provider.name⟩,
      ⟨"provider_type", .text, none, Provider.providerType⟩,
      ⟨"credentials", .textMap, some ∅, Provider.credentials⟩]
  | subscription => [
      ⟨"id", .integer, none, Subscription.id⟩,
      ⟨"alias", .text, none, Subscription.subscriber⟩,
      ⟨"service_id", .integer, none, Subscription.serviceId⟩,
      ⟨"provider_type", .text, none, Subscription.providerType⟩,
      ⟨"device_key", .text, none, Subscription.deviceKey⟩,
      ⟨"provider_name", .optionalText, some none, Subscription.providerName⟩,
      ⟨"enabled", .flag, some true, Subscription.enabled⟩]
  | pushRequest => [
      ⟨"service_alias", .text, none, PushRequest.service⟩,
      ⟨"subscription_alias", .text, none, PushRequest.subscriber⟩,
      ⟨"content", .valueMap, some ∅, PushRequest.content⟩]

def names (k : Kind) : List String := k.fields.map (·.name)

/-- Reads a record. The values in the content of a push request may nest at most `room` deep. -/
def decode (room : Nat) : (k : Kind) → Document → Option k.Carrier
  | notification => Notification.decode
  | provider => Provider.decode
  | subscription => Subscription.decode
  | pushRequest => PushRequest.decodeWithin room

/-- Reads a record that a JSON value shows, which may nest to any depth. -/
def ofJson? : (k : Kind) → Json → Option k.Carrier
  | notification, v => Notification.decode (.ofJson v)
  | provider, v => Provider.decode (.ofJson v)
  | subscription, v => Subscription.decode (.ofJson v)
  | pushRequest, v => PushRequest.ofJson? v

/-- Reads a record that a text shows. -/
def read : (k : Kind) → String → Option k.Carrier
  | notification, text => (Json.readDocument text).bind Notification.decode
  | provider, text => (Json.readDocument text).bind Provider.decode
  | subscription, text => (Json.readDocument text).bind Subscription.decode
  | pushRequest, text => (Json.readDocument text).bind PushRequest.decode

def encode : (k : Kind) → k.Carrier → Json
  | notification => Notification.encode
  | provider => Provider.encode
  | subscription => Subscription.encode
  | pushRequest => PushRequest.encode

def encodeArray : (k : Kind) → k.Carrier → Json
  | notification => Notification.encodeArray
  | provider => Provider.encodeArray
  | subscription => Subscription.encodeArray
  | pushRequest => PushRequest.encodeArray

variable {room : Nat} {k : Kind} {d : Document} {f : Fields}

theorem nodup_names (k : Kind) : k.names.Nodup := by
  cases k <;> decide

theorem fieldNames_eq (k : Kind) : k.names = match k with
    | notification => Notification.fieldNames
    | provider => Provider.fieldNames
    | subscription => Subscription.fieldNames
    | pushRequest => PushRequest.fieldNames := by
  cases k <;> rfl

theorem ofJson?_eq (k : Kind) (v : Json) : k.ofJson? v = k.decode v.depth (.ofJson v) := by
  cases k <;> rfl

theorem read_eq (k : Kind) (text : String) :
    k.read text = (Json.readDocument text).bind (k.decode (Json.depthLimit - 2)) := by
  cases k <;> rfl

theorem encode_eq (r : k.Carrier) :
    k.encode r = .object (k.fields.map fun field => (field.name, field.json r)) := by
  cases k <;> rfl

theorem encodeArray_eq (r : k.Carrier) :
    k.encodeArray r = .array (k.fields.map fun field => field.json r) := by
  cases k <;> rfl

/-- A record is read if each of its fields is. -/
theorem decode_eq_some_iff {r : k.Carrier} : k.decode room d = some r ↔ ∃ f,
    fields? k.names d = some f ∧ ∀ field ∈ k.fields, field.read room f = some (field.get r) := by
  -- Only here are the readers of the four types opened.
  rw [fieldNames_eq]
  cases k with
  | notification =>
    obtain ⟨data⟩ := r
    simp [decode, Notification.decode, fields, Field.read_eq, FieldKind.read,
      Option.bind_eq_some_iff]
  | provider =>
    obtain ⟨id, serviceId, name, providerType, credentials⟩ := r
    simp [decode, Provider.decode, fields, Field.read_eq, FieldKind.read,
      Option.bind_eq_some_iff]
  | subscription =>
    obtain ⟨id, subscriber, serviceId, providerType, deviceKey, providerName, enabled⟩ := r
    simp [decode, Subscription.decode, fields, Field.read_eq, FieldKind.read,
      Option.bind_eq_some_iff, -Bool.exists_bool]
  | pushRequest =>
    obtain ⟨service, subscriber, content⟩ := r
    simp [decode, PushRequest.decodeWithin, fields, Field.read_eq, FieldKind.read,
      Option.bind_eq_some_iff]

/-- Any values that are read of the fields make up a record. -/
theorem exists_of_forall_read (h : ∀ field ∈ k.fields, ∃ v, field.read room f = some v) :
    ∃ r : k.Carrier, ∀ field ∈ k.fields, field.read room f = some (field.get r) := by
  cases k with
  | notification =>
    simp only [fields, List.forall_mem_cons] at h ⊢
    obtain ⟨⟨data, hdata⟩, -⟩ := h
    exact ⟨{ data }, hdata, nofun⟩
  | provider =>
    simp only [fields, List.forall_mem_cons] at h ⊢
    obtain ⟨⟨id, hid⟩, ⟨serviceId, hserviceId⟩, ⟨name, hname⟩, ⟨providerType, hproviderType⟩,
      ⟨credentials, hcredentials⟩, -⟩ := h
    exact ⟨{ id, serviceId, name, providerType, credentials }, hid, hserviceId, hname,
      hproviderType, hcredentials, nofun⟩
  | subscription =>
    simp only [fields, List.forall_mem_cons] at h ⊢
    obtain ⟨⟨id, hid⟩, ⟨subscriber, hsubscriber⟩, ⟨serviceId, hserviceId⟩,
      ⟨providerType, hproviderType⟩, ⟨deviceKey, hdeviceKey⟩, ⟨providerName, hproviderName⟩,
      ⟨enabled, henabled⟩, -⟩ := h
    exact ⟨{ id, subscriber, serviceId, providerType, deviceKey, providerName, enabled }, hid,
      hsubscriber, hserviceId, hproviderType, hdeviceKey, hproviderName, henabled, nofun⟩
  | pushRequest =>
    simp only [fields, List.forall_mem_cons] at h ⊢
    obtain ⟨⟨service, hservice⟩, ⟨subscriber, hsubscriber⟩, ⟨content, hcontent⟩, -⟩ := h
    exact ⟨{ service, subscriber, content }, hservice, hsubscriber, hcontent, nofun⟩

end Kind

end PushDelivery.Record
