import PushDelivery.Dispatch.State
import PushDelivery.Reconciliation

/-!
# The steps of a dispatch

Each task moves on its own, and its next move is fixed by its own state and by the channels it
holds; a move that has to wait is not enabled. A task that waits for a channel and watches for a
cancellation sees the cancellation first. Which task moves is left open, so a run is any sequence of
enabled moves.

A move is all that is done between two points where one may have to wait. Dropping the stream is one
move for that reason: it lets go of the reports and cancels right after, with nothing to wait for in
between. Of the tasks only the reconciler looks at the reports, and a reconciler whose reports have
no reader ends as it does on a cancellation.
-/

namespace PushDelivery.Dispatch

/-- What may move next. -/
inductive Label where
  | feeder
  | transport
  /-- The delivery at this place moves. -/
  | delivery (place : Nat)
  /-- The delivery at this place is aborted. -/
  | abort (place : Nat)
  | reconciler
  /-- The consumer reads a result. -/
  | consume
  /-- The dispatch is cancelled. -/
  | cancel
  /-- The consumer drops the stream, which cancels the dispatch. -/
  | drop
  deriving DecidableEq

/-- The feeder takes the next endpoint, or puts the one it has on the feed. -/
def feederStep (s : State) : Option State :=
  match s.feeder with
  | .idle =>
    match s.unfed with
    | [] => some { s with feeder := .finished }
    | e :: rest => some { s with feeder := .offering e, unfed := rest }
  | .offering e =>
    if s.cancelled || !s.feed.receiving then some { s with feeder := .finished }
    else if s.feed.hasRoom then some { s with feeder := .idle, feed := s.feed.push e }
    else none
  | .finished => none

/-- The transport's task ends and lets go of the feed. -/
def finishTransport (s : State) : State :=
  { s with transport := .finished, feed := s.feed.close }

def acceptEndpoint (s : State) (e : Endpoint) : State :=
  { s with feed := s.feed.pop, history.accepted := s.history.accepted ++ [e] }

/-- A raw result is put on the channel to the reconciler. -/
def emit (s : State) (r : DeliveryResult) : State :=
  { s with raw := s.raw.push r, history.emitted := s.history.emitted ++ [r] }

/-- A sequential transport acts on what it has seen. -/
def actionStep (s : State) (seen : List Observation) : Action → Option State
  | .receive heedful =>
    let see (s : State) (e : Option Endpoint) : State :=
      { s with transport := .acting (.received e :: seen) }
    if heedful && s.cancelled then some (see s none)
    else match s.feed.queue with
      | e :: _ => some (see (acceptEndpoint s e) (some e))
      | [] => if s.feedEnded then some (see s none) else none
  | .call e outcome =>
    let s := { s with history.called := s.history.called ++ [e] }
    if outcome.verdict = .crashed then some (finishTransport s)
    else some { s with transport := .acting (.called outcome :: seen) }
  | .send r =>
    if !s.raw.receiving then some { s with transport := .acting (.sent false :: seen) }
    else if s.raw.hasRoom then some (emit { s with transport := .acting (.sent true :: seen) } r)
    else none
  | .finish => some (finishTransport s)

/-- The transport moves. A fan-out takes a permit before it reads an endpoint, and as many permits
are out as there are deliveries. -/
def transportStep (j : Job) (s : State) : Option State :=
  match s.transport, j.transport with
  | .acquiring, .fanOut _ limit =>
    if s.cancelled then some { s with transport := .leaving }
    else if s.deliveries.length < limit then some { s with transport := .receiving }
    else none
  | .receiving, .fanOut .. =>
    if s.cancelled then some { s with transport := .leaving }
    else match s.feed.queue with
      | e :: _ =>
        let s := acceptEndpoint s e
        some { s with transport := .acquiring, deliveries := s.deliveries ++ [{ endpoint := e }] }
      | [] => if s.feedEnded then some { s with transport := .leaving } else none
  | .leaving, .fanOut .. => some { s with transport := .winding s.cancelled }
  | .winding _, .fanOut .. => if s.deliveries.isEmpty then some (finishTransport s) else none
  | .acting seen, .sequential next => actionStep s seen (next j.provider j.notification seen)
  | _, _ => none

def removeDelivery (s : State) (place : Nat) : State :=
  { s with deliveries := s.deliveries.eraseIdx place }

/-- The delivery at a place comes to a stage. -/
def stageDelivery (s : State) (place : Nat) (stage : Stage) : State :=
  { s with deliveries := s.deliveries.modify place fun d => { d with stage } }

/-- The delivery at a place moves: it calls the sender, takes what the call left behind, and emits
the result unless the dispatch was cancelled or the result has no reader. -/
def deliveryStep (j : Job) (s : State) (place : Nat) : Option State :=
  match s.deliveries[place]?, j.transport with
  | some d, .fanOut send _ =>
    match d.stage with
    | .queued =>
      let number := s.history.called.length
      let s := { s with history.called := s.history.called ++ [d.endpoint] }
      some (stageDelivery s place (.calling number))
    | .calling number =>
      let outcome := send number j.provider j.notification d.endpoint
      let s := { s with cancelled := s.cancelled || j.cancels number d.endpoint }
      some (stageDelivery s place (.reporting (outcome.result j.provider d.endpoint)))
    | .reporting r =>
      if s.cancelled || !s.raw.receiving then some (removeDelivery s place)
      else if s.raw.hasRoom then some (emit (removeDelivery s place) r)
      else none
  | _, _ => none

/-- The delivery at a place is aborted, as a fan-out asks that left its loop after a
cancellation. -/
def abortStep (s : State) (place : Nat) : Option State :=
  if s.transport = .winding true ∧ place < s.deliveries.length then some (removeDelivery s place)
  else none

/-- The reconciler ends its loop and lets go of both its channels. -/
def finishReconciling (s : State) : State :=
  { s with reconciler := .measuring, raw := s.raw.close }

/-- The reconciler moves. A result is counted when it has been reconciled, before it is reported. -/
def reconcilerStep {σ : Type} [SubscriptionStore σ] (j : Job) (s : State) (l : Ledger σ) :
    Option (State × Ledger σ) :=
  match s.reconciler with
  | .receiving =>
    if s.cancelled then some (finishReconciling s, l)
    else match s.raw.queue with
      | r :: _ => some ({ s with reconciler := .holding r, raw := s.raw.pop }, l)
      | [] => if s.rawEnded then some (finishReconciling s, l) else none
  | .holding r =>
    let (r', l) := l.reconcile r
    some ({ s with reconciler := .reporting r', history.reconciled := s.history.reconciled ++ [r] },
      l.observe (·.observeResult r'))
  | .reporting r =>
    if s.cancelled || !s.report.receiving then some (finishReconciling s, l)
    else if s.report.hasRoom then
      some ({ s with reconciler := .receiving, report := s.report.push r,
                     history.reported := s.history.reported ++ [r] }, l)
    else none
  | .measuring =>
    some ({ s with reconciler := .finished },
      l.observe (·.observeDuration j.provider.providerType j.elapsed))
  | .finished => none

/-- The consumer reads the next result. -/
def consumeStep (s : State) : Option State :=
  match s.report.queue with
  | r :: _ => some { s with report := s.report.pop, history.taken := s.history.taken ++ [r] }
  | [] => none

/-- The move of a label, if it is enabled. -/
def step {σ : Type} [SubscriptionStore σ] (j : Job) (label : Label) (s : State) (l : Ledger σ) :
    Option (State × Ledger σ) :=
  match label with
  | .feeder => (feederStep s).map (·, l)
  | .transport => (transportStep j s).map (·, l)
  | .delivery place => (deliveryStep j s place).map (·, l)
  | .abort place => (abortStep s place).map (·, l)
  | .reconciler => reconcilerStep j s l
  | .consume => (consumeStep s).map (·, l)
  | .cancel => if s.cancelled then none else some ({ s with cancelled := true }, l)
  | .drop =>
    if s.report.receiving then
      some ({ s with cancelled := true, report := s.report.close }, l)
    else none

/-- A run from one state to another by some labels. -/
inductive Run {σ : Type} [SubscriptionStore σ] (j : Job) :
    State × Ledger σ → List Label → State × Ledger σ → Prop
  | nil (c : State × Ledger σ) : Run j c [] c
  | cons {s s' : State} {l l' : Ledger σ} {c : State × Ledger σ} {label : Label}
      {labels : List Label} :
      step j label s l = some (s', l') → Run j (s', l') labels c → Run j (s, l) (label :: labels) c

end PushDelivery.Dispatch

/-!
## Schedules

A schedule chooses the next move of a dispatch. The eager schedule prefers what is nearest to the
consumer, so results are reported in the order of the endpoints whenever the transport keeps that
order. It can be restricted to a consumer that reads a number of results and then goes, or
interrupted by a cancellation at a chosen moment.
-/

namespace PushDelivery.Dispatch

variable {σ : Type} [SubscriptionStore σ]

/-- Chooses the next move, if there is to be one. -/
abbrev Schedule (σ : Type) := State → Ledger σ → Option Label

/-- The moves of a state's tasks, from the consumer back to the feeder. -/
def State.labels (s : State) : List Label :=
  let places := List.range s.deliveries.length
  .consume :: .reconciler :: places.map .abort ++ places.map .delivery ++ [.transport, .feeder]

/-- The first enabled move of the tasks. -/
def eager (j : Job) : Schedule σ := fun s l =>
  s.labels.find? fun label => (step j label s l).isSome

inductive Departure where
  /-- It cancels the dispatch and reads what is still to come. -/
  | cancel
  /-- It drops the stream. -/
  | drop
  deriving DecidableEq

/-- The schedule in which the consumer goes as soon as it has read a number of results. -/
def Schedule.departing (schedule : Schedule σ) (count : Nat) (departure : Departure) :
    Schedule σ := fun s l =>
  if s.history.taken.length = count ∧ !s.cancelled then
    some (match departure with | .cancel => .cancel | .drop => .drop)
  else schedule s l

/-- The schedule that cancels the dispatch at the first moment of a kind. -/
def Schedule.interrupted (schedule : Schedule σ) (moment : State → Ledger σ → Bool) :
    Schedule σ := fun s l =>
  if moment s l && !s.cancelled then some .cancel else schedule s l

/-- The moment at which the reconciler is about to ask the store for its `n`-th update. -/
def beforeUpdate (n : Nat) (s : State) (l : Ledger σ) : Bool :=
  match s.reconciler with
  | .holding r =>
    (r.error matches some (.endpointKeyStale _)) && r.destination.requestedUpdate.isOk
      && l.updates.length + 1 = n
  | _ => false

def follow (j : Job) (schedule : Schedule σ) : Nat → State → Ledger σ → State × Ledger σ
  | 0, s, l => (s, l)
  | n + 1, s, l =>
    match schedule s l with
    | none => (s, l)
    | some label =>
      match step j label s l with
      | none => (s, l)
      | some (s', l') => follow j schedule n s' l'

/-- Enough moves for everything that a state has left to do, for a transport that acts at most four
times per endpoint. -/
def State.allowance (s : State) : Nat :=
  20 * (s.unfed.length + s.feed.queue.length + s.raw.queue.length + 2)

def complete (j : Job) (schedule : Schedule σ) (s : State) (l : Ledger σ) : State × Ledger σ :=
  follow j schedule s.allowance s l

end PushDelivery.Dispatch
