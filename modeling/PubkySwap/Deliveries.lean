import PubkySwap.OutboxRun
import PubkySwap.Lib.Hex
import PubkySwap.Lib.KeyedMap

/-!
# Deliveries

The transport publishes the messages of its outbox to the message storage of a homeserver,
and deletes them from it once their scope is completed.  The journal is never locked during
a request: a request is made after the journal has been consulted, and what has come of it
is written to the journal afterwards, with other calls in between.  Requests for one
resource exclude each other by a lock of their own.

A request may have its effect and yet be answered with a failure, or not be answered at
all; one that is answered with success has had its effect.  What a request does to the
storage, it does before it is answered or given up.
-/

namespace PubkySwap

open Messenger (PreparedMessage)

namespace Outbox

section

variable [Messenger]

/-! ## Questions to the journal -/

/-- `MAX_BATCH`. -/
def maxBatch : ℕ := 64

/-- Why a delivery has failed. -/
inductive DeliveryError where
  | transport (error : TransportError)
  | delivery (operation : DeliveryOperation) (failure : DeliveryFailure)
  deriving DecidableEq, Repr

/-- The check that every call makes first. -/
def ensureWritten (state : State) : Except TransportError Unit :=
  if state.writeFailed then
    .error (invalid
      "message delivery state could not be saved; restart the transport to recover")
  else .ok ()

def checkOwner (own : String) (state : State) : Except TransportError Unit := do
  canonicalPeer own
  ensureWritten state
  if state.journal.owner.any (· ≠ own) then
    .error (invalid "saved message delivery state belongs to another identity")

def canPublish (id : String) (now : UInt64) (state : State) : Except DeliveryError Bool :=
  match ensureWritten state with
  | .error e => .error (.transport e)
  | .ok () =>
      match state.journal.entries.find? fun entry => entry.id == id with
      | none => .ok false
      | some entry =>
          if entry.publicationPaused then
            .error (.delivery .publication (entry.publicationFailure.getD .invalidRequest))
          else .ok !(cleanupDue entry now)

/-- Whether the deletion of an entry is due. -/
def Entry.cleanupReady (now : UInt64) (entry : Entry) : Bool :=
  cleanupDue entry now && !entry.cleanupPaused && entry.nextCleanupAt ≤ now

def canCleanup (id : String) (now : UInt64) (state : State) : Except TransportError Bool :=
  if state.writeFailed then
    .error (invalid "message delivery state could not be saved; restart to recover")
  else .ok (state.journal.entries.any fun entry => entry.id == id && entry.cleanupReady now)

/-- `select`; the sort is stable. -/
def select (limit : ℕ) (holds : Entry → Bool) (order : Entry → UInt64) (state : State) :
    Except TransportError (List PreparedMessage) := do
  ensureWritten state
  let entries := (state.journal.entries.filter holds).mergeSort
    fun a b => decide (order a ≤ order b)
  return (entries.take (min limit maxBatch)).map Entry.prepared

/-- Whether the publication of an entry is due. -/
def Entry.publicationReady (now : UInt64) (entry : Entry) : Bool :=
  !entry.published && !entry.publicationPaused && entry.nextRetryAt ≤ now && !cleanupDue entry now

def duePending (now : UInt64) (limit : ℕ) : State → Except TransportError (List PreparedMessage) :=
  select limit (Entry.publicationReady now) Entry.nextRetryAt

def eligibleCleanup (now : UInt64) (limit : ℕ) :
    State → Except TransportError (List PreparedMessage) :=
  select limit (Entry.cleanupReady now) fun entry =>
    max entry.nextCleanupAt (entry.cleanupAfter.getD 18446744073709551615)

/-! ## Reservations -/

/-- The scope and the deadline of `prepare_scoped`: answers to read-only requests expire, each
for itself. -/
def inScope (scope payload : String) (now : UInt64) : String × Option UInt64 :=
  if isEphemeral scope then
    (scope ++ ":" ++ Hex.encode (Messenger.contentHash payload).1,
      some (UInt64.ofNat (Word.saturatingAdd 64 now.toNat (10 * 60))))
  else (scope, none)

/-- The reservation of `prepare_scoped`. -/
def prepareScoped (peer scope payload : String) (now : UInt64)
    (prepared : Option PreparedMessage) : Op :=
  .prepare peer (inScope scope payload now).1 payload (inScope scope payload now).2 prepared

/-! ## Requests -/

/-- How far the work on a resource has come. -/
inductive Phase where
  /-- It waits for the lock of the resource. -/
  | waiting
  /-- It has the lock and has made its request, which has had its effect or not. -/
  | asked (landed : Bool)
  | done (result : Except DeliveryError Unit)
  | cancelled

/-- The publication or the deletion of one saved resource. -/
structure Work where
  operation : DeliveryOperation
  prepared : PreparedMessage
  /-- The time of the batch that a deletion is part of. -/
  now : UInt64
  background : Bool
  phase : Phase

def Work.id (work : Work) : String := Messenger.id work.prepared

/-- It has the lock of its resource. -/
def Phase.inside : Phase → Bool
  | .asked _ => true
  | _ => false

/-- The outbox, the storage of the homeserver, and the work that goes on. -/
structure Depot where
  outbox : System
  storage : AList fun _ : String => PreparedMessage := ∅
  works : List Work := []

inductive DepotEvent where
  | start (write : Write)
  | stop
  | enqueue (peer scope payload : String) (now : UInt64) (prepared : Option PreparedMessage)
      (write : Write)
  | send (peer scope payload : String) (now : UInt64) (prepared : Option PreparedMessage)
      (write : Write)
  | completeScope (peer scope : String) (eligibleAfter : UInt64) (write : Write)
  | reopenScope (peer scope : String) (write : Write)
  | retry (id : String) (operation : DeliveryOperation) (now : UInt64) (write : Write)
  | process (now : UInt64) (limit : ℕ)
  /-- The work gets the lock, and makes its request if that is still wanted. -/
  | advance (i : ℕ) (now : UInt64)
  /-- The request has its effect. -/
  | land (i : ℕ)
  /-- The request is answered, with success or not. -/
  | answer (i : ℕ) (failure : Option DeliveryFailure) (now : UInt64) (write : Write)
  | cancel (i : ℕ)

namespace Depot

/-- Nothing has been started yet. -/
def initial : Depot := { outbox := .initial }

def setPhase (i : ℕ) (work : Work) (phase : Phase) (depot : Depot) : Depot :=
  { depot with works := depot.works.set i { work with phase := phase } }

/-- A call of the outbox by the transport of this identity. -/
def call (own : String) (op : Op) (write : Write) (depot : Depot) : Depot :=
  match depot.outbox.process with
  | none => depot
  | some state =>
      match checkOwner own state with
      | .error _ => depot
      | .ok () => { depot with outbox := depot.outbox.step (.call op write) }

/-- What `prepare_scoped` answers. -/
def prepared (own : String) (op : Op) (write : Write) (depot : Depot) : Option PreparedMessage :=
  match depot.outbox.process with
  | none => none
  | some state =>
      match checkOwner own state, (op.run write state depot.outbox.file).1 with
      | .ok (), .ok (some message) => some message
      | _, _ => none

/-- `send_with_scope`: what has been saved is published. -/
def send (own : String) (op : Op) (write : Write) (depot : Depot) : Depot :=
  let sent := depot.prepared own op write
  let depot := depot.call own op write
  { depot with works := depot.works ++ sent.toList.map fun message =>
      { operation := .publication, prepared := message, now := 0, background := false,
        phase := .waiting } }

/-- `process_outbox`. -/
def process (own : String) (now : UInt64) (limit : ℕ) (depot : Depot) : Depot :=
  match depot.outbox.process with
  | none => depot
  | some state =>
      match checkOwner own state, duePending now limit state, eligibleCleanup now limit state with
      | .ok (), .ok pending, .ok cleanup =>
          { depot with works := depot.works ++
              (pending.map fun message =>
                { operation := .publication, prepared := message, now := now, background := true,
                  phase := .waiting }) ++
              cleanup.map fun message =>
                { operation := .cleanup, prepared := message, now := now, background := true,
                  phase := .waiting } }
      | _, _, _ => depot

/-- Nobody has the lock of this resource. -/
def lockFree (id : String) (depot : Depot) : Bool :=
  depot.works.all fun work => !(work.id == id && work.phase.inside)

/-- What is checked under the lock: the work makes its request, or ends. -/
def recheck (own : String) (work : Work) (now : UInt64) (state : State) : Phase :=
  match checkOwner own state with
  | .error e => .done (.error (.transport e))
  | .ok () =>
      match work.operation with
      | .publication =>
          match canPublish work.id now state with
          | .error e => .done (.error e)
          | .ok true => .asked false
          | .ok false =>
              if work.background then .done (.ok ())
              else .done (.error (.transport (.messenger "message scope has expired")))
      | .cleanup =>
          match canCleanup work.id work.now state with
          | .error e => .done (.error (.transport e))
          | .ok true => .asked false
          | .ok false => .done (.ok ())

def advance (own : String) (i : ℕ) (work : Work) (now : UInt64) (depot : Depot) : Depot :=
  match work.phase, depot.outbox.process with
  | .waiting, some state =>
      if depot.lockFree work.id then depot.setPhase i work (recheck own work now state) else depot
  | _, _ => depot

/-- The effect of a request on the storage. -/
def land (i : ℕ) (work : Work) (depot : Depot) : Depot :=
  match work.phase with
  | .asked false =>
      let depot := depot.setPhase i work (.asked true)
      match work.operation with
      | .publication => { depot with storage := depot.storage.insert work.id work.prepared }
      | .cleanup => { depot with storage := depot.storage.erase work.id }
  | _ => depot

/-- What is written of an answer. -/
def outcome (work : Work) (failure : Option DeliveryFailure) (now : UInt64) : Op :=
  match work.operation, failure with
  | .publication, none => .markPublished work.id
  | .publication, some failure => .markFailed work.id now failure
  | .cleanup, none => .removeDeleted [work.id] work.now
  | .cleanup, some failure => .markCleanupFailed work.id work.now failure

/-- What the caller is told. -/
def told (work : Work) (failure : Option DeliveryFailure)
    (result : Except TransportError (Option PreparedMessage)) : Except DeliveryError Unit :=
  match result, failure with
  | .error e, _ => .error (.transport e)
  | .ok _, some failure => .error (.delivery work.operation failure)
  | .ok _, none => .ok ()

def answer (i : ℕ) (work : Work) (failure : Option DeliveryFailure) (now : UInt64)
    (write : Write) (depot : Depot) : Depot :=
  match work.phase, depot.outbox.process with
  | .asked landed, some state =>
      if landed ∨ failure.isSome then
        let op := outcome work failure now
        { depot.setPhase i work
            (.done (told work failure (op.run write state depot.outbox.file).1)) with
          outbox := depot.outbox.step (.call op write) }
      else depot
  | _, _ => depot

def cancel (i : ℕ) (work : Work) (depot : Depot) : Depot :=
  match work.phase with
  | .waiting | .asked _ => depot.setPhase i work .cancelled
  | _ => depot

/-- One event, in the process of this identity. -/
def step (own : String) (depot : Depot) : DepotEvent → Depot
  | .start write => { depot with outbox := depot.outbox.step (.start write) }
  | .stop => { depot with outbox := depot.outbox.step .stop, works := [] }
  | .enqueue peer scope payload now prepared write =>
      depot.call own (prepareScoped peer scope payload now prepared) write
  | .send peer scope payload now prepared write =>
      depot.send own (prepareScoped peer scope payload now prepared) write
  | .completeScope peer scope eligibleAfter write =>
      depot.call own (.completeScope peer scope eligibleAfter) write
  | .reopenScope peer scope write => depot.call own (.reopenScope peer scope) write
  | .retry id operation now write => depot.call own (.retry id operation now) write
  | .process now limit => depot.process own now limit
  | .advance i now => depot.works[i]?.elim depot fun work => depot.advance own i work now
  | .land i => depot.works[i]?.elim depot fun work => depot.land i work
  | .answer i failure now write =>
      depot.works[i]?.elim depot fun work => depot.answer i work failure now write
  | .cancel i => depot.works[i]?.elim depot fun work => depot.cancel i work

def run (own : String) (events : List DepotEvent) (depot : Depot) : Depot :=
  events.foldl (step own) depot

end Depot

end

end Outbox

end PubkySwap
