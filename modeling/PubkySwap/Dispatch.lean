import Mathlib.Algebra.BigOperators.Group.Finset.Basic
import Mathlib.Data.Finset.Card
import Mathlib.Data.List.Basic

/-!
# Handing messages to handlers

The provider gives each peer with work a worker: a bounded channel, a counter of the messages
sent through it and not yet handled, and a task that takes the messages from the channel one
at a time and runs the handler on each.  A semaphore caps how many handlers run at once;
admission messages run without a permit of it.

Only `dispatch` sends, and one call of it at a time.  The tasks run beside it, so the model
has one step for each access of either side to what they share: the counter of a worker, its
channel, the semaphore.  What the steps of a call are is in `Call`, what those of a task are
in `Phase`.  A channel that is closed gives nothing out any more, so its messages are dropped
as it closes.
-/

namespace PubkySwap

namespace Dispatch

/-! ## Workers -/

/-- How far the task of a worker has come. -/
inductive Phase (M : Type) where
  /-- It waits for the next message. -/
  | idle
  /-- It has taken a message and may need a permit for it. -/
  | received (message : M)
  /-- The handler runs, with a permit or without, or has returned just now. -/
  | handling (message : M) (permit : Bool)
  /-- The message has been taken off the counter, the permit is not yet given back. -/
  | counted (permit : Bool)
  /-- The handler has panicked, and what the task holds is being dropped. -/
  | unwinding (message : M)
  /-- The task is over and its channel closed. -/
  | ended

/-- What has become of the messages of a worker, each list in the order of the events. -/
structure Log (M : Type) where
  accepted : List M := []
  started : List M := []
  finished : List M := []
  dropped : List M := []

/-- A worker with its task.  `queue` is what its channel holds. -/
structure Worker (M : Type) where
  peer : String
  queue : List M := []
  pending : ℕ := 0
  phase : Phase M := .idle
  log : Log M := {}

section

variable {M : Type}

/-- The task is over. -/
def Phase.isEnded : Phase M → Bool
  | .ended => true
  | _ => false

/-- The message that the task holds, if any. -/
def Phase.inHand : Phase M → List M
  | .received message | .handling message _ | .unwinding message => [message]
  | .idle | .counted _ | .ended => []

/-- The message that the handler has begun with, if any. -/
def Phase.begun : Phase M → List M
  | .handling message _ | .unwinding message => [message]
  | .idle | .received _ | .counted _ | .ended => []

/-- The permits that the task holds. -/
def Phase.permits : Phase M → ℕ
  | .handling _ permit | .counted permit => permit.toNat
  | .idle | .received _ | .unwinding _ | .ended => 0

/-- The handler runs. -/
def Phase.handles : Phase M → Bool
  | .handling _ _ => true
  | _ => false

/-- The handler runs on a message that is no admission. -/
def Phase.runs (admission : M → Bool) : Phase M → Bool
  | .handling message _ => !admission message
  | _ => false

namespace Worker

/-- The messages that the worker has yet to finish. -/
def outstanding (worker : Worker M) : ℕ := worker.queue.length + worker.phase.inHand.length

/-- `pending.fetch_add(1)`. -/
def fetchAdd (worker : Worker M) : Worker M := { worker with pending := worker.pending + 1 }

/-- `pending.fetch_sub(1)`. -/
def fetchSub (worker : Worker M) : Worker M := { worker with pending := worker.pending - 1 }

/-- `rx.recv()` gives the next message. -/
def receive (worker : Worker M) (message : M) (rest : List M) : Worker M :=
  { worker with queue := rest, phase := .received message }

/-- `handler(peer, message)` is called. -/
def start (worker : Worker M) (message : M) (permit : Bool) : Worker M :=
  { worker with
    phase := .handling message permit
    log := { worker.log with started := worker.log.started ++ [message] } }

/-- The handler has returned, and the message is taken off the counter. -/
def finish (worker : Worker M) (message : M) (permit : Bool) : Worker M :=
  { worker.fetchSub with
    phase := .counted permit
    log := { worker.log with finished := worker.log.finished ++ [message] } }

/-- The task is over: what it has not finished is dropped. -/
def stop (worker : Worker M) : Worker M :=
  { worker with
    queue := []
    phase := .ended
    log := { worker.log with dropped := worker.phase.inHand ++ worker.queue } }

/-- `tx.try_send(message)` is answered with `Ok`. -/
def accept (worker : Worker M) (message : M) : Worker M :=
  { worker with
    queue := worker.queue ++ [message]
    log := { worker.log with accepted := worker.log.accepted ++ [message] } }

end Worker

/-! ## The dispatcher -/

/-- How far a call of `dispatch` has come.  `left` are the workers that a loop over the map
has yet to look at. -/
inductive Call (M : Type) where
  /-- Workers with nothing to do, and closed ones, are taken from the map. -/
  | retaining (peer : String) (messages : List M) (left : Finset ℕ)
  /-- The counters are added up. -/
  | counting (peer : String) (messages : List M) (left : Finset ℕ) (queued : ℕ)
  /-- The messages are sent to the worker of the peer. -/
  | queueing (worker : ℕ) (messages : List M) (queued : ℕ)
  /-- A message is on the worker's counter and not yet sent. -/
  | sending (worker : ℕ) (message : M) (messages : List M) (queued : ℕ)

end

end Dispatch

open Dispatch

/-- The dispatcher with all the workers there have been.  The map leads from a peer to the
number of its worker. -/
structure Dispatcher (M : Type) where
  workers : String → Option ℕ
  permits : ℕ
  perPeerCapacity : ℕ
  capacity : ℕ
  admission : M → Bool
  all : ℕ → Worker M
  spawned : ℕ
  call : Option (Call M)

namespace Dispatcher

variable {M : Type}

/-- `Dispatcher::new`. -/
def new (maxHandlers perPeerCapacity capacity : ℕ) (admission : M → Bool) : Dispatcher M where
  workers _ := none
  permits := max maxHandlers 1
  perPeerCapacity := max perPeerCapacity 1
  capacity := max capacity 1
  admission := admission
  all _ := { peer := "", phase := .ended }
  spawned := 0
  call := none

/-- The map leads to the worker. -/
def Maps (dispatcher : Dispatcher M) (id : ℕ) : Prop :=
  dispatcher.workers (dispatcher.all id).peer = some id

instance (dispatcher : Dispatcher M) (id : ℕ) : Decidable (dispatcher.Maps id) :=
  inferInstanceAs (Decidable (_ = _))

/-- The workers in the map. -/
def mapped (dispatcher : Dispatcher M) : Finset ℕ :=
  (Finset.range dispatcher.spawned).filter dispatcher.Maps

def setWorker (id : ℕ) (worker : Worker M) (dispatcher : Dispatcher M) : Dispatcher M :=
  { dispatcher with all := Function.update dispatcher.all id worker }

/-- `spawn_worker`, and its worker is the peer's. -/
def spawnWorker (peer : String) (dispatcher : Dispatcher M) : Dispatcher M :=
  { dispatcher with
    workers := Function.update dispatcher.workers peer (some dispatcher.spawned)
    all := Function.update dispatcher.all dispatcher.spawned { peer := peer }
    spawned := dispatcher.spawned + 1 }

/-! ## The steps of a call -/

/-- What `retain` does with one worker. -/
def retain (id : ℕ) (dispatcher : Dispatcher M) : Dispatcher M :=
  let worker := dispatcher.all id
  if 0 < worker.pending ∧ worker.phase.isEnded = false then dispatcher
  else { dispatcher with workers := Function.update dispatcher.workers worker.peer none }

/-- A loop over the map looks at one worker. -/
def visit (id : ℕ) (dispatcher : Dispatcher M) : Dispatcher M :=
  match dispatcher.call with
  | some (.retaining peer messages left) =>
      if id ∈ left then
        { dispatcher.retain id with call := some (.retaining peer messages (left.erase id)) }
      else dispatcher
  | some (.counting peer messages left queued) =>
      if id ∈ left then
        { dispatcher with
          call := some (.counting peer messages (left.erase id)
            (queued + (dispatcher.all id).pending)) }
      else dispatcher
  | _ => dispatcher

/-- The worker of the peer is found or spawned, and the messages are for it. -/
def enter (peer : String) (messages : List M) (queued : ℕ) (dispatcher : Dispatcher M) :
    Dispatcher M :=
  match dispatcher.workers peer with
  | some id => { dispatcher with call := some (.queueing id messages queued) }
  | none =>
      { dispatcher.spawnWorker peer with
        call := some (.queueing dispatcher.spawned messages queued) }

/-- The next message is deferred, or put on the counter of the worker. -/
def queue (id : ℕ) (message : M) (messages : List M) (queued : ℕ)
    (dispatcher : Dispatcher M) : Dispatcher M :=
  if dispatcher.capacity ≤ queued then
    { dispatcher with call := some (.queueing id messages queued) }
  else
    { dispatcher.setWorker id (dispatcher.all id).fetchAdd with
      call := some (.sending id message messages queued) }

/-- `try_send`, which takes nothing if the channel is full or closed. -/
def trySend (taken : Bool) (id : ℕ) (message : M) (messages : List M) (queued : ℕ)
    (dispatcher : Dispatcher M) : Dispatcher M :=
  let worker := dispatcher.all id
  if taken = true ∧ worker.queue.length < dispatcher.perPeerCapacity ∧
      worker.phase.isEnded = false then
    { dispatcher.setWorker id (worker.accept message) with
      call := some (.queueing id messages (queued + 1)) }
  else
    { dispatcher.setWorker id worker.fetchSub with
      call := some (.queueing id messages queued) }

/-- The call goes on once a loop over the map is through, and with one message after the
other.  `taken` is the channel's answer if a message is sent. -/
def proceed (taken : Bool) (dispatcher : Dispatcher M) : Dispatcher M :=
  match dispatcher.call with
  | some (.retaining peer messages left) =>
      if left = ∅ then
        { dispatcher with call := some (.counting peer messages dispatcher.mapped 0) }
      else dispatcher
  | some (.counting peer messages left queued) =>
      if left = ∅ then
        if dispatcher.capacity ≤ queued then { dispatcher with call := none }
        else dispatcher.enter peer messages queued
      else dispatcher
  | some (.queueing _ [] _) => { dispatcher with call := none }
  | some (.queueing id (message :: messages) queued) =>
      dispatcher.queue id message messages queued
  | some (.sending id message messages queued) =>
      dispatcher.trySend taken id message messages queued
  | none => dispatcher

/-- `dispatch` is called. -/
def dispatch (peer : String) (messages : List M) (dispatcher : Dispatcher M) : Dispatcher M :=
  match dispatcher.call with
  | none => { dispatcher with call := some (.retaining peer messages dispatcher.mapped) }
  | some _ => dispatcher

/-! ## The steps of a task -/

/-- The task of a worker goes on.  One that waits for a message ends if nobody can send it
any more. -/
def advance (id : ℕ) (dispatcher : Dispatcher M) : Dispatcher M :=
  let worker := dispatcher.all id
  match worker.phase with
  | .idle =>
      match worker.queue with
      | message :: rest => dispatcher.setWorker id (worker.receive message rest)
      | [] => if dispatcher.Maps id then dispatcher else dispatcher.setWorker id worker.stop
  | .received message =>
      if dispatcher.admission message then dispatcher.setWorker id (worker.start message false)
      else if 0 < dispatcher.permits then
        { dispatcher.setWorker id (worker.start message true) with
          permits := dispatcher.permits - 1 }
      else dispatcher
  | .handling message permit => dispatcher.setWorker id (worker.finish message permit)
  | .counted permit =>
      { dispatcher.setWorker id { worker with phase := .idle } with
        permits := dispatcher.permits + permit.toNat }
  | .unwinding _ => dispatcher.setWorker id worker.stop
  | .ended => dispatcher

/-- The handler panics. -/
def panic (id : ℕ) (dispatcher : Dispatcher M) : Dispatcher M :=
  let worker := dispatcher.all id
  match worker.phase with
  | .handling message permit =>
      { dispatcher.setWorker id { worker with phase := .unwinding message } with
        permits := dispatcher.permits + permit.toNat }
  | _ => dispatcher

/-- The task of a worker that has been taken from the map is aborted where it waits. -/
def abort (id : ℕ) (dispatcher : Dispatcher M) : Dispatcher M :=
  let worker := dispatcher.all id
  match worker.phase with
  | .idle | .received _ | .handling _ _ =>
      if dispatcher.Maps id then dispatcher
      else
        { dispatcher.setWorker id worker.stop with
          permits := dispatcher.permits + worker.phase.permits }
  | _ => dispatcher

end Dispatcher

namespace Dispatch

/-! ## Runs -/

inductive Event (M : Type) where
  | dispatch (peer : String) (messages : List M)
  | visit (id : ℕ)
  | proceed (taken : Bool)
  | advance (id : ℕ)
  | panic (id : ℕ)
  | abort (id : ℕ)

end Dispatch

namespace Dispatcher

variable {M : Type}

def step (dispatcher : Dispatcher M) : Event M → Dispatcher M
  | .dispatch peer messages => dispatcher.dispatch peer messages
  | .visit id => dispatcher.visit id
  | .proceed taken => dispatcher.proceed taken
  | .advance id => dispatcher.advance id
  | .panic id => dispatcher.panic id
  | .abort id => dispatcher.abort id

def run (events : List (Event M)) (dispatcher : Dispatcher M) : Dispatcher M :=
  events.foldl step dispatcher

end Dispatcher

end PubkySwap
