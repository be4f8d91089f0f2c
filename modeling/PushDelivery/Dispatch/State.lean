import PushDelivery.Binary64
import PushDelivery.Transport

/-!
# The state of a dispatch

The tasks of a dispatch, the channels between them, and what has passed.
-/

/-!
## Bounded channels

A channel hands values from its senders to one receiver, in order, and holds at most its capacity.
When the receiver goes away the channel loses what it holds and takes nothing more. Whether senders
are left is known from the tasks that hold them.
-/

namespace PushDelivery

structure Channel (α : Type) where
  capacity : Nat
  queue : List α := []
  /-- Whether there still is a receiver. -/
  receiving : Bool := true

namespace Channel

variable {α : Type}

def hasRoom (c : Channel α) : Bool := c.queue.length < c.capacity

/-- The channel with one more value at its end. -/
def push (c : Channel α) (a : α) : Channel α := { c with queue := c.queue ++ [a] }

/-- The channel after its first value was received. -/
def pop (c : Channel α) : Channel α := { c with queue := c.queue.tail }

/-- The channel after its receiver went away. -/
def close (c : Channel α) : Channel α := { c with queue := [], receiving := false }

end Channel

end PushDelivery

/-!
## Jobs, tasks and states

A dispatch sends one notification through one provider to a list of endpoints. A feeder offers the
endpoints to the transport, the transport emits raw results, a reconciler brings them in line with
the store, and a consumer reads the reports. Each hand-over is a channel; a fan-out adds one
delivery task per endpoint that it accepted. A cancellation is seen by every task that watches for
it.

The state also keeps what has passed at each station, in order. No task reads these histories; they
only give the sender's calls their numbers.
-/

namespace PushDelivery

/-- What a dispatch is asked to do. -/
structure Job where
  provider : Provider
  notification : Notification
  endpoints : List Endpoint
  transport : Transport
  /-- Whether the sender cancels the dispatch in the call of a number, while it handles an
  endpoint. -/
  cancels : Nat → Endpoint → Bool := fun _ _ => false
  /-- How long the dispatch takes, by the clock that measures it. -/
  elapsed : Binary64 := ⟨0⟩

namespace Dispatch

def capacity : Nat := 1

inductive Feeder where
  /-- About to take the caller's next endpoint. -/
  | idle
  /-- Waiting to put an endpoint on the feed. -/
  | offering (endpoint : Endpoint)
  | finished
  deriving DecidableEq

inductive TransportTask where
  /-- A fan-out waits for a permit. -/
  | acquiring
  /-- A fan-out holds a permit and waits for an endpoint. -/
  | receiving
  /-- A fan-out has left its loop. -/
  | leaving
  /-- A fan-out waits for its deliveries, which it may have aborted. -/
  | winding (aborting : Bool)
  /-- A sequential transport has seen this, the latest first. -/
  | acting (seen : List Observation)
  | finished
  deriving DecidableEq

/-- How far a delivery has come. -/
inductive Stage where
  /-- The sender has not been called yet. -/
  | queued
  /-- The sender's call is running, which is the one of this number. -/
  | calling (number : Nat)
  /-- The delivery waits to emit its result. -/
  | reporting (result : DeliveryResult)
  deriving DecidableEq

/-- One delivery of a fan-out; it holds a permit as long as it lives. -/
structure Delivery where
  endpoint : Endpoint
  stage : Stage := .queued
  deriving DecidableEq

inductive Reconciler where
  /-- Waits for a raw result. -/
  | receiving
  /-- Has a raw result to reconcile. -/
  | holding (result : DeliveryResult)
  /-- Waits to report a reconciled result. -/
  | reporting (result : DeliveryResult)
  /-- Has let go of both channels and is about to record the duration. -/
  | measuring
  | finished
  deriving DecidableEq

/-- What has passed at each station of a dispatch, in order. -/
structure History where
  /-- The endpoints that the transport has read. -/
  accepted : List Endpoint := []
  /-- The endpoints for which a sender was called. -/
  called : List Endpoint := []
  /-- The raw results that were put on the channel to the reconciler. -/
  emitted : List DeliveryResult := []
  /-- The raw results that were reconciled. -/
  reconciled : List DeliveryResult := []
  /-- The reconciled results that were put on the channel to the consumer. -/
  reported : List DeliveryResult := []
  /-- The results that the consumer has read. -/
  taken : List DeliveryResult := []
  deriving DecidableEq

/-- The state of a dispatch. -/
structure State where
  /-- The caller's endpoints that the feeder has not taken yet. -/
  unfed : List Endpoint
  feeder : Feeder
  feed : Channel Endpoint
  transport : TransportTask
  deliveries : List Delivery
  raw : Channel DeliveryResult
  reconciler : Reconciler
  report : Channel DeliveryResult
  cancelled : Bool
  history : History

namespace State

/-- The feed is closed: it is empty and nobody can put anything on it. -/
def feedEnded (s : State) : Bool := s.feed.queue.isEmpty && s.feeder = .finished

/-- The raw channel is closed: it is empty and nobody can put anything on it. -/
def rawEnded (s : State) : Bool :=
  s.raw.queue.isEmpty && s.transport = .finished && s.deliveries.isEmpty

/-- The consumer's stream has ended: the reconciler has let go of it and nothing is left to read. -/
def ended (s : State) : Bool :=
  s.report.queue.isEmpty && (s.reconciler = .measuring || s.reconciler = .finished)

/-- Every task of the dispatch has finished. -/
def finished (s : State) : Bool :=
  s.feeder = .finished && s.transport = .finished && s.deliveries.isEmpty
    && s.reconciler = .finished

end State

end Dispatch

namespace Job

open Dispatch

/-- The transport's task at its start. A fan-out beyond the permits that exist fails at once, and a
failed task is a finished one. -/
def transportStart (j : Job) : TransportTask :=
  match j.transport with
  | .fanOut _ limit => if limit ≤ Transport.maxPermits then .acquiring else .finished
  | .sequential _ => .acting []

def feedStart (j : Job) (c : Channel Endpoint) : Channel Endpoint :=
  if j.transportStart = .finished then c.close else c

/-- A dispatch at its start. -/
def start (j : Job) : State where
  unfed := j.endpoints
  feeder := .idle
  feed := j.feedStart ⟨capacity, [], true⟩
  transport := j.transportStart
  deliveries := []
  raw := ⟨capacity, [], true⟩
  reconciler := .receiving
  report := ⟨capacity, [], true⟩
  cancelled := false
  history := {}

/-- The transport of a job alone: the feed holds all endpoints and is closed, and the raw channel
has room for a result of each. -/
def transportStartAlone (j : Job) (reading cancelled : Bool) : State where
  unfed := []
  feeder := .finished
  feed := j.feedStart ⟨j.endpoints.length, j.endpoints, true⟩
  transport := j.transportStart
  deliveries := []
  raw := ⟨j.endpoints.length, [], reading⟩
  reconciler := .finished
  report := ⟨0, [], false⟩
  cancelled
  history := {}

/-- A reconciler alone: the raw channel holds some results and is closed, and the report channel has
room for all of them. -/
def reconcilerStartAlone (results : List DeliveryResult) (reading cancelled : Bool) : State where
  unfed := []
  feeder := .finished
  feed := ⟨0, [], false⟩
  transport := .finished
  deliveries := []
  raw := ⟨results.length, results, true⟩
  reconciler := .receiving
  report := ⟨results.length, [], reading⟩
  cancelled
  history := {}

end Job

end PushDelivery
