import PushDelivery.Model
import PushDelivery.Proofs.Text.Numeral
import PushDelivery.Proofs.Text.Spelling
import PushDelivery.Reconciliation

/-!
# New keys of endpoints

A sender may set new keys for an endpoint, one after another. They are kept under one name, which is
not that of the subscription's id. So an endpoint that came from a subscription still stands for it,
and the key that is to be written back is the last one that was set, unless that is empty.
-/

namespace PushDelivery

theorem deviceKeyName_ne_subscriptionIdName (providerType : String) :
    deviceKeyName providerType ≠ subscriptionIdName := by
  unfold deviceKeyName
  split
  · decide
  · split <;> decide

namespace Endpoint

/-- The endpoint after some new keys were set, one after another. -/
def withKeys (e : Endpoint) (keys : List String) : Endpoint := keys.foldl setReplacementKey e

variable (e : Endpoint) (keys : List String)

theorem replacementKeyName_ne_subscriptionIdName :
    e.replacementKeyName ≠ subscriptionIdName := by
  unfold replacementKeyName
  split
  · decide
  · exact deviceKeyName_ne_subscriptionIdName _

theorem getElem?_setReplacementKey (key name : String) :
    (e.setReplacementKey key).volatileData[name]? =
      if e.replacementKeyName = name then some key else e.volatileData[name]? := by
  simp [setReplacementKey, put, Std.ExtTreeMap.getElem?_insert]

theorem getElem?_withKeys (name : String) :
    (e.withKeys keys).volatileData[name]? =
      if e.replacementKeyName = name then keys.getLast?.or e.volatileData[name]?
      else e.volatileData[name]? := by
  induction keys generalizing e with
  | nil => simp [withKeys]
  | cons key keys ih =>
    refine (ih (e.setReplacementKey key)).trans ?_
    have hname : (e.setReplacementKey key).replacementKeyName = e.replacementKeyName := rfl
    rw [hname, getElem?_setReplacementKey, List.getLast?_cons]
    by_cases h : e.replacementKeyName = name
    · rw [if_pos h, if_pos h, if_pos h]
      cases keys.getLast? <;> rfl
    · rw [if_neg h, if_neg h, if_neg h]

@[simp] theorem providerType_withKeys : (e.withKeys keys).providerType = e.providerType := by
  induction keys generalizing e with
  | nil => rfl
  | cons key keys ih => exact ih (e.setReplacementKey key)

@[simp] theorem subscriptionId?_withKeys :
    (e.withKeys keys).subscriptionId? = e.subscriptionId? := by
  rw [subscriptionId?, getElem?_withKeys, if_neg e.replacementKeyName_ne_subscriptionIdName]
  rfl

theorem replacementKeyName_withKeys :
    (e.withKeys keys).replacementKeyName = e.replacementKeyName := by
  simp [replacementKeyName]

end Endpoint

namespace Subscription

variable (s : Subscription) (keys : List String)

theorem subscriptionId?_toEndpoint :
    s.toEndpoint.subscriptionId? = some (Numeral.signedDecimal s.id.toInt) := by
  simp [Endpoint.subscriptionId?, toEndpoint, Endpoint.withSubscriptionId, Endpoint.put]

theorem getElem?_toEndpoint {name : String} (h : name ≠ subscriptionIdName) :
    s.toEndpoint.volatileData[name]? = none := by
  simp [toEndpoint, Endpoint.withSubscriptionId, Endpoint.put, h.symm]

/-- The new key is found under the name of the provider type or under the default name. Nothing else
is kept under either. -/
theorem replacementKey?_withKeys :
    (s.toEndpoint.withKeys keys).replacementKey? = keys.getLast?.filter (· ≠ "") := by
  have hlookup : ∀ name ≠ subscriptionIdName, (s.toEndpoint.withKeys keys).volatileData[name]? =
      if s.toEndpoint.replacementKeyName = name then keys.getLast? else none := by
    intro name hname
    rw [Endpoint.getElem?_withKeys, s.getElem?_toEndpoint hname, Option.or_none]
  have hown := hlookup _ s.toEndpoint.replacementKeyName_ne_subscriptionIdName
  have hdefault := hlookup defaultKeyName (by decide)
  rw [if_pos rfl] at hown
  rw [Endpoint.replacementKey?, Endpoint.replacementKeyName_withKeys, List.findSome?_cons, hown]
  cases hkey : keys.getLast?.filter (· ≠ "") with
  | some key => rfl
  | none =>
    rw [List.findSome?_cons, hdefault]
    by_cases hsame : s.toEndpoint.replacementKeyName = defaultKeyName
    · rw [if_pos hsame, hkey]
      rfl
    · rw [if_neg hsame]
      rfl

/-- What is asked for the endpoint of a subscription, whatever the subscription's id and type. -/
theorem requestedUpdate_withKeys : (s.toEndpoint.withKeys keys).requestedUpdate =
    match keys.getLast?.filter (· ≠ "") with
    | none => .error (.missingDeviceKey s.id)
    | some key => .ok (s.id, key) := by
  have hid : Numeral.readInt64 ((s.toEndpoint.withKeys keys).subscriptionId?.getD "") =
      some s.id := by
    rw [Endpoint.subscriptionId?_withKeys, s.subscriptionId?_toEndpoint]
    exact Numeral.readInt64_signedDecimal s.id
  have hkey := s.replacementKey?_withKeys keys
  cases hlast : keys.getLast?.filter (· ≠ "") with
  | none =>
    rw [hlast] at hkey
    simp only [Endpoint.requestedUpdate, hid, hkey]
  | some key =>
    rw [hlast] at hkey
    simp only [Endpoint.requestedUpdate, hid, hkey]

end Subscription

end PushDelivery

/-!
## What an endpoint asks to be written back

An endpoint names a subscription if the text of its id spells a 64-bit word, and has a new key if
there is one that is not empty under the name of its provider type or else under the default name.
With both it asks for one update. Without a readable id, or with one and without a key, it asks for
nothing and there is one error to say why.
-/

namespace PushDelivery.Endpoint

/-- A key that is kept under a name. An empty one does not count. -/
def Keeps (e : Endpoint) (name key : String) : Prop :=
  e.volatileData[name]? = some key ∧ key ≠ ""

/-- The key to write back. -/
inductive NewKey (e : Endpoint) : String → Prop
  | own {key : String} : e.Keeps e.replacementKeyName key → NewKey e key
  | default {key : String} : (∀ key, ¬ e.Keeps e.replacementKeyName key) →
      e.Keeps defaultKeyName key → NewKey e key

/-- The text in which an endpoint names its subscription, empty if it names none. -/
def subscriptionText (e : Endpoint) : String := e.subscriptionId?.getD ""

/-- An endpoint names a subscription. -/
def Names (e : Endpoint) (id : Int64) : Prop := Numeral.Spells e.subscriptionText.toList id.toInt

/-- An endpoint asks for the key of a subscription to be replaced. -/
structure Asks (e : Endpoint) (id : Int64) (key : String) : Prop where
  names : e.Names id
  newKey : e.NewKey key

/-- Why an endpoint asks for nothing. -/
inductive Faulty (e : Endpoint) : StoreError → Prop
  | id : (∀ id, ¬ e.Names id) → Faulty e (.invalidSubscriptionId e.subscriptionText)
  | key {id : Int64} : e.Names id → (∀ key, ¬ e.NewKey key) → Faulty e (.missingDeviceKey id)

variable {e : Endpoint} {id : Int64} {name key : String}

theorem filter_eq_some_iff_keeps :
    e.volatileData[name]?.filter (· ≠ "") = some key ↔ e.Keeps name key := by
  simp [Option.filter_eq_some_iff, Keeps]

theorem replacementKey?_eq_some_iff : e.replacementKey? = some key ↔ e.NewKey key := by
  rw [replacementKey?, List.findSome?_cons]
  cases hown : e.volatileData[e.replacementKeyName]?.filter (· ≠ "") with
  | some own =>
    have hkeeps := filter_eq_some_iff_keeps.mp hown
    constructor
    · intro h
      cases h
      exact .own hkeeps
    · intro h
      cases h with
      | own h => exact hown.symm.trans (filter_eq_some_iff_keeps.mpr h)
      | default hnone _ => exact (hnone own hkeeps).elim
  | none =>
    have hnone : ∀ key, ¬ e.Keeps e.replacementKeyName key := by
      intro key h
      rw [filter_eq_some_iff_keeps.mpr h] at hown
      cases hown
    have hdefault : [defaultKeyName].findSome?
        (fun name => e.volatileData[name]?.filter (· ≠ "")) = some key ↔
          e.Keeps defaultKeyName key := by
      rw [List.findSome?_singleton, filter_eq_some_iff_keeps]
    refine hdefault.trans ⟨.default hnone, fun h => ?_⟩
    cases h with
    | own h => exact (hnone key h).elim
    | default _ h => exact h

theorem readInt64_eq_some_iff_names :
    Numeral.readInt64 e.subscriptionText = some id ↔ e.Names id :=
  Numeral.readInt64_eq_some_iff

theorem requestedUpdate_of_names (h : e.Names id) : e.requestedUpdate =
    e.replacementKey?.elim (.error (.missingDeviceKey id)) fun key => .ok (id, key) := by
  have hid := readInt64_eq_some_iff_names.mpr h
  rw [subscriptionText] at hid
  simp only [requestedUpdate, hid]
  cases e.replacementKey? <;> rfl

theorem Asks.requestedUpdate (h : e.Asks id key) : e.requestedUpdate = .ok (id, key) := by
  rw [requestedUpdate_of_names h.names, replacementKey?_eq_some_iff.mpr h.newKey]
  rfl

theorem Faulty.requestedUpdate {error : StoreError} (h : e.Faulty error) :
    e.requestedUpdate = .error error := by
  cases h with
  | id hnone =>
    have hid : Numeral.readInt64 e.subscriptionText = none := by
      rw [Option.eq_none_iff_forall_ne_some]
      exact fun id hid => hnone id (readInt64_eq_some_iff_names.mp hid)
    rw [subscriptionText] at hid
    simp only [Endpoint.requestedUpdate, hid, subscriptionText]
  | key hid hnone =>
    have hkey : e.replacementKey? = none := by
      rw [Option.eq_none_iff_forall_ne_some]
      exact fun key hkey => hnone key (replacementKey?_eq_some_iff.mp hkey)
    rw [requestedUpdate_of_names hid, hkey]
    rfl

/-- An endpoint either asks for one update or has an error to say why it does not. -/
theorem asks_or_faulty (e : Endpoint) :
    (∃ id key, e.Asks id key) ∨ ∃ error, e.Faulty error := by
  by_cases hid : ∃ id, e.Names id
  · obtain ⟨id, hid⟩ := hid
    by_cases hkey : ∃ key, e.NewKey key
    · obtain ⟨key, hkey⟩ := hkey
      exact .inl ⟨id, key, hid, hkey⟩
    · exact .inr ⟨_, .key hid (not_exists.mp hkey)⟩
  · exact .inr ⟨_, .id (not_exists.mp hid)⟩

end PushDelivery.Endpoint
