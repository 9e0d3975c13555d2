import PubkySwap.ReceiveJournal

/-!
# The inboxes

Messages are delivered with a receipt, which holds a lease on the resource: it is not
delivered again while the lease is held.  An acknowledgment is written to the journal
before the lease is given up; a receipt that is released or dropped unacknowledged leaves
the resource pending, for the next poll.

A poll of a peer delivers what is pending, and only asks the network if there is nothing.
One poll of a peer runs at a time, but between its accesses to the journal everything else
goes on: the polls of other peers, acknowledgments, registrations.  A step of `System` is
one such access.  What the network answers is the environment's, as is how a write ends.
-/

namespace PubkySwap

namespace Inbox

open Outbox (TransportError Write)

/-! ## Deliveries -/

/-- One delivery and its exclusive lease. -/
structure Receipt where
  peer : String
  id : MessageId
  lease : ℕ
  deriving DecidableEq, Repr

structure Inbound (M : Type) where
  peer : String
  message : M
  receipt : Receipt

section

variable [ReceiveStates] {M : Type}

structure Inboxes where
  journal : Journal
  leases : AList fun _ : MessageId => ℕ := ∅
  nextLease : ℕ := 0

namespace Inboxes

/-- `release`, and what dropping a receipt does: an older receipt gives up nothing. -/
def release (receipt : Receipt) (inboxes : Inboxes) : Inboxes :=
  if inboxes.leases.lookup receipt.id = some receipt.lease then
    { inboxes with leases := inboxes.leases.erase receipt.id }
  else inboxes

/-- `Receipt::acknowledge`. -/
def acknowledge (write : Write) (receipt : Receipt) (inboxes : Inboxes) :
    Except TransportError Unit × Inboxes :=
  let (result, journal) := inboxes.journal.acknowledge write receipt.peer [receipt.id]
  match result with
  | .error e => (.error e, { inboxes with journal := journal })
  | .ok () => (.ok (), { inboxes with journal := journal }.release receipt)

/-- The message of a resource; only an authenticated one, from this peer and its own
directory, is decoded. -/
def accepted (decode : String → Option M) (peer : String) (id : MessageId)
    (body : DecryptedMessage) : Option M :=
  if ¬body.verified ∨ body.sender ≠ peer ∨ id.publisher ≠ peer then none
  else decode body.content

/-- A delivery is leased.  The counter wraps around. -/
def lease (id : MessageId) (inboxes : Inboxes) : Inboxes :=
  { inboxes with
    leases := inboxes.leases.insert id inboxes.nextLease
    nextLease := (inboxes.nextLease + 1) % 2 ^ 64 }

/-- The loop of `deliver`.  A rejected resource is acknowledged first; if that fails, what
has been delivered so far is dropped. -/
def deliverEach (decode : String → Option M) (writes : MessageId → Write) (peer : String) :
    List ReceivedMessage → List (Inbound M) → Inboxes →
      Except TransportError (List (Inbound M)) × Inboxes
  | [], delivered, inboxes => (.ok delivered, inboxes)
  | resource :: rest, delivered, inboxes =>
      if resource.id ∈ inboxes.leases then
        deliverEach decode writes peer rest delivered inboxes
      else
        match resource.message with
        | none => deliverEach decode writes peer rest delivered inboxes
        | some body =>
            match accepted decode peer resource.id body with
            | none =>
                match inboxes.journal.acknowledge (writes resource.id) peer [resource.id] with
                | (.error e, journal) =>
                    (.error e, delivered.foldl (fun inboxes inbound =>
                      inboxes.release inbound.receipt) { inboxes with journal := journal })
                | (.ok (), journal) =>
                    deliverEach decode writes peer rest delivered
                      { inboxes with journal := journal }
            | some message =>
                let receipt : Receipt := ⟨peer, resource.id, inboxes.nextLease⟩
                deliverEach decode writes peer rest (delivered ++ [⟨peer, message, receipt⟩])
                  (inboxes.lease resource.id)

/-- `deliver`, which holds the journal's lock throughout. -/
def deliver (decode : String → Option M) (writes : MessageId → Write) (peer : String)
    (inboxes : Inboxes) : Except TransportError (List (Inbound M)) × Inboxes :=
  match inboxes.journal.ensureHealthy with
  | .error e => (.error e, inboxes)
  | .ok () =>
      deliverEach decode writes peer (inboxes.journal.record peer).pending [] inboxes

end Inboxes

/-! ## Polls -/

/-- What `discover` answers. -/
structure Discovery where
  pending : List MessageId
  /-- Part of the listing has failed. -/
  failed : Bool

/-- What `retrieve` answers. -/
structure Retrieval where
  messages : List ReceivedMessage
  failed : Bool

/-- Where a poll is. -/
inductive Phase (M : Type) where
  /-- Waiting for the lock of its peer. -/
  | waiting
  /-- Nothing was to be delivered. -/
  | looking
  | discovering (available : ℕ)
  | retrieving (listingFailed : Bool)
  /-- What has been retrieved is in the journal. -/
  | remembered (failed : Bool)
  | done (result : Except TransportError (List (Inbound M)))
  | cancelled

/-- It has the lock of its peer. -/
def Phase.inside : Phase M → Bool
  | .looking | .discovering _ | .retrieving _ | .remembered _ => true
  | .waiting | .done _ | .cancelled => false

/-- It has not ended. -/
def Phase.live : Phase M → Bool
  | .done _ | .cancelled => false
  | _ => true

structure Read (M : Type) where
  peer : String
  phase : Phase M

/-- A receipt that has not been dropped, and whether it is still to be acknowledged or
released. -/
structure Held where
  receipt : Receipt
  held : Bool
  deriving DecidableEq, Repr

/-- What has happened to a resource. -/
inductive Entry (M : Type) where
  | delivered (id : MessageId) (message : M)
  /-- An acknowledgment has been asked for, and has been saved or not. -/
  | acknowledged (id : MessageId) (saved : Bool)
  deriving DecidableEq, Repr

/-- A process, or what it has left behind. -/
structure System (M : Type) where
  running : Bool := false
  inboxes : Inboxes
  reads : List (Read M) := []
  receipts : List Held := []
  log : List (Entry M) := []

/-- What the network answers to a poll, and how its writes end. -/
structure Answers where
  discovered : Except TransportError Discovery
  retrieved : Except TransportError Retrieval
  write : Write
  writes : MessageId → Write

inductive Event where
  | start (write : Write) (owner : String)
  | crash
  | register (write : Write) (peer : String) (pinned : Bool)
  | evict (write : Write) (peer : String)
  /-- A poll is started, by an owner's mailbox; a scheduled one needs a registration. -/
  | poll (own peer : String) (requireRegistered : Bool)
  | advance (i : ℕ) (answers : Answers)
  | cancel (i : ℕ)
  | acknowledge (j : ℕ) (write : Write)
  | release (j : ℕ)
  | drop (j : ℕ)

namespace System

/-- Nothing has been started yet. -/
def initial : System M := { inboxes := { journal := ⟨{}, false, none⟩ } }

/-- A poll goes on. -/
def setPhase (i : ℕ) (read : Read M) (phase : Phase M) (system : System M) : System M :=
  { system with reads := system.reads.set i { read with phase := phase } }

/-- The deliveries of a poll that returns. -/
def hand (delivered : List (Inbound M)) (system : System M) : System M :=
  { system with
    receipts := system.receipts ++ delivered.map fun inbound => ⟨inbound.receipt, true⟩
    log := system.log ++
      delivered.map fun inbound => .delivered inbound.receipt.id inbound.message }

/-- Nobody is past the lock of this peer. -/
def slotFree (peer : String) (system : System M) : Bool :=
  system.reads.all fun read => !(read.peer == peer && read.phase.inside)

def start (write : Write) (owner : String) (system : System M) : System M :=
  let (opened, file) := Journal.openJournal write owner system.inboxes.journal.file
  match opened with
  | .error _ =>
      { system with inboxes := { system.inboxes with
          journal := { system.inboxes.journal with file := file } } }
  | .ok journal => { system with running := true, inboxes := { journal := journal } }

/-- The head of `read`. -/
def poll (own peer : String) (requireRegistered : Bool) (system : System M) : System M :=
  let phase : Phase M :=
    match system.inboxes.journal.checkOwner own with
    | .error e => .done (.error e)
    | .ok () =>
        if requireRegistered ∧ ¬(system.inboxes.journal.record peer).registered then .done (.ok [])
        else .waiting
  { system with reads := system.reads ++ [⟨peer, phase⟩] }

/-- What was discovered, as far as it is to be retrieved. -/
def selected (peer : String) (available : ℕ) (discovery : Discovery) : List MessageId :=
  (discovery.pending.filter fun id => id.publisher == peer).take available

def advance (decode : String → Option M) (i : ℕ) (read : Read M) (answers : Answers)
    (system : System M) : System M :=
  match read.phase with
  | .waiting =>
      if system.slotFree read.peer then
        let (result, inboxes) := system.inboxes.deliver decode answers.writes read.peer
        let system := { system with inboxes := inboxes }
        match result with
        | .error e => system.setPhase i read (.done (.error e))
        | .ok [] => system.setPhase i read .looking
        | .ok delivered => (system.setPhase i read (.done (.ok delivered))).hand delivered
      else system
  | .looking =>
      let available := system.inboxes.journal.available read.peer
      if available = 0 then system.setPhase i read (.done (.ok []))
      else system.setPhase i read (.discovering available)
  | .discovering available =>
      match answers.discovered with
      | .error e => system.setPhase i read (.done (.error e))
      | .ok discovery =>
          if (selected read.peer available discovery).isEmpty then
            if discovery.failed then
              system.setPhase i read
                (.done (.error (.messenger "conversation listing incomplete")))
            else system.setPhase i read (.done (.ok []))
          else system.setPhase i read (.retrieving discovery.failed)
  | .retrieving listingFailed =>
      match answers.retrieved with
      | .error e => system.setPhase i read (.done (.error e))
      | .ok retrieval =>
          let (result, journal) :=
            system.inboxes.journal.remember answers.write read.peer retrieval.messages
          let system := { system with inboxes := { system.inboxes with journal := journal } }
          match result with
          | .error e => system.setPhase i read (.done (.error e))
          | .ok () => system.setPhase i read (.remembered (retrieval.failed || listingFailed))
  | .remembered failed =>
      let (result, inboxes) := system.inboxes.deliver decode answers.writes read.peer
      let system := { system with inboxes := inboxes }
      match result with
      | .error e => system.setPhase i read (.done (.error e))
      | .ok delivered =>
          if delivered.isEmpty ∧ failed then
            system.setPhase i read
              (.done (.error (.messenger "conversation retrieval incomplete")))
          else (system.setPhase i read (.done (.ok delivered))).hand delivered
  | .done _ | .cancelled => system

/-- A poll can be dropped where it waits: for the lock, or for the network. -/
def cancel (i : ℕ) (read : Read M) (system : System M) : System M :=
  match read.phase with
  | .waiting | .discovering _ | .retrieving _ => system.setPhase i read .cancelled
  | .looking | .remembered _ | .done _ | .cancelled => system

def acknowledge (j : ℕ) (held : Held) (write : Write) (system : System M) : System M :=
  let (result, inboxes) := system.inboxes.acknowledge write held.receipt
  { system with
    inboxes := inboxes
    receipts := if result.isOk then system.receipts.set j { held with held := false }
      else system.receipts
    log := system.log ++ [.acknowledged held.receipt.id result.isOk] }

/-- What a process leaves behind. -/
def stop (system : System M) : System M :=
  { system with running := false, reads := [], receipts := [] }

def act (decode : String → Option M) (system : System M) (event : Event) : System M :=
  if system.running then
    match event with
    | .start .. => system
    | .crash => system.stop
    | .register write peer pinned =>
        { system with inboxes := { system.inboxes with
            journal := (system.inboxes.journal.register write peer pinned).2 } }
    | .evict write peer =>
        if system.reads.any fun read => read.peer == peer && read.phase.live then system
        else { system with inboxes := { system.inboxes with
            journal := (system.inboxes.journal.unregister write peer).2 } }
    | .poll own peer requireRegistered => system.poll own peer requireRegistered
    | .advance i answers =>
        match system.reads[i]? with
        | none => system
        | some read => system.advance decode i read answers
    | .cancel i =>
        match system.reads[i]? with
        | none => system
        | some read => system.cancel i read
    | .acknowledge j write =>
        match system.receipts[j]? with
        | none => system
        | some held => system.acknowledge j held write
    | .release j =>
        match system.receipts[j]? with
        | none => system
        | some held =>
            { system with
              inboxes := system.inboxes.release held.receipt
              receipts := system.receipts.set j { held with held := false } }
    | .drop j =>
        match system.receipts[j]? with
        | none => system
        | some held =>
            { system with
              inboxes := system.inboxes.release held.receipt
              receipts := system.receipts.eraseIdx j }
  else
    match event with
    | .start write owner => system.start write owner
    | _ => system

/-- A process has a number left for every lease of one more delivery. -/
def roomy (system : System M) : Bool :=
  decide (system.inboxes.nextLease + maxPendingPerPeer < 2 ^ 64)

/-- One step.  A process is followed as long as its leases have numbers of their own: before
the counter comes round, which takes 2^64 deliveries, it counts as stopped. -/
def step (decode : String → Option M) (system : System M) (event : Event) : System M :=
  let next := system.act decode event
  if next.roomy then next else next.stop

def run (decode : String → Option M) (events : List Event) (system : System M) : System M :=
  events.foldl (step decode) system

end System

end

end Inbox

end PubkySwap
