import PushDelivery.Metrics
import PushDelivery.Model
import PushDelivery.Text

/-!
# Subscription stores and reconciliation

A store keeps the device keys of subscriptions; reconciling a result writes a new key back to it.
-/

/-!
## Subscription stores

A store keeps the device key of each subscription. A dispatch only ever asks it to replace a key, so
a store is any state with an answer to that request. Three stores are given: entries held in memory,
a store that refuses every update with one error, and a store that takes every update.
-/

namespace PushDelivery

/-- A state that answers requests to replace the device key of a subscription. -/
class SubscriptionStore (σ : Type) where
  updateKey : σ → Int64 → String → Except StoreError Unit × σ

export SubscriptionStore (updateKey)

/-- Device keys held in memory, by subscription id. -/
structure MemoryStore where
  entries : Std.ExtTreeMap Int64 String := ∅
  deriving DecidableEq

namespace MemoryStore

/-- The store with one more subscription, or another key for a subscription that it has. -/
def insert (s : MemoryStore) (id : Int64) (key : String) : MemoryStore := ⟨s.entries.insert id key⟩

def deviceKey? (s : MemoryStore) (id : Int64) : Option String := s.entries[id]?

/-- Replaces the key of a subscription that the store has, and no other. -/
def update (s : MemoryStore) (id : Int64) (key : String) : Except StoreError Unit × MemoryStore :=
  if id ∈ s.entries then (.ok (), s.insert id key) else (.error (.subscriptionNotFound id), s)

instance : SubscriptionStore MemoryStore := ⟨update⟩

end MemoryStore

structure RefusingStore where
  error : StoreError
  deriving DecidableEq

instance : SubscriptionStore RefusingStore := ⟨fun s _ _ => (.error s.error, s)⟩

inductive AcceptingStore where
  | mk
  deriving DecidableEq

instance : SubscriptionStore AcceptingStore := ⟨fun s _ _ => (.ok (), s)⟩

end PushDelivery

/-!
## Reconciliation

A result whose endpoint got a new device key is reconciled with the subscription store: the key is
written back under the subscription that the endpoint stands for. Success leaves the result as it
is, failure turns it into a store failure. All other results pass unchanged and ask nothing of the
store.
-/

namespace PushDelivery

/-- What dispatches work on together: the subscription store, the updates that were asked of it in
their order, and the metrics if any are kept. -/
structure Ledger (σ : Type) where
  store : σ
  updates : List (Int64 × String) := []
  metrics : Option Metrics := none

/-- The subscription and the new key that an endpoint asks to be written back. An id that cannot be
read is found before a missing key. -/
def Endpoint.requestedUpdate (e : Endpoint) : Except StoreError (Int64 × String) :=
  let text := e.subscriptionId?.getD ""
  match Numeral.readInt64 text with
  | none => .error (.invalidSubscriptionId text)
  | some id =>
    match e.replacementKey? with
    | none => .error (.missingDeviceKey id)
    | some key => .ok (id, key)

namespace Ledger

variable {σ : Type}

/-- Observes something in the metrics, if any are kept. -/
def observe (l : Ledger σ) (f : Metrics → Metrics) : Ledger σ :=
  { l with metrics := l.metrics.map f }

/-- Asks the store to replace a key. -/
def update [SubscriptionStore σ] (l : Ledger σ) (id : Int64) (key : String) :
    Except StoreError Unit × Ledger σ :=
  let (reply, store) := updateKey l.store id key
  (reply, { l with store, updates := l.updates ++ [(id, key)] })

def writeBack [SubscriptionStore σ] (l : Ledger σ) (e : Endpoint) :
    Except StoreError Unit × Ledger σ :=
  match e.requestedUpdate with
  | .error error => (.error error, l)
  | .ok (id, key) => l.update id key

/-- Reconciles a result with the store. -/
def reconcile [SubscriptionStore σ] (l : Ledger σ) (r : DeliveryResult) :
    DeliveryResult × Ledger σ :=
  match r.error with
  | some (.endpointKeyStale _) =>
    match l.writeBack r.destination with
    | (.ok (), l) => (r, l.observe (·.observeKeyUpdate true))
    | (.error error, l) =>
      ({ r with error := some (.storeFailure error) }, l.observe (·.observeKeyUpdate false))
  | _ => (r, l)

end Ledger

end PushDelivery
