import PubkySwap.Lib.KeyedMap
import PubkySwap.Lib.KeyedSum
import PubkySwap.Outbox

/-!
# The receive journal

What a process has received and not handled yet, and what it has handled, for each peer.
Every change is made to a copy of the records, which takes the place of the old ones once
it has been written; a write that fails leaves the process with the old ones, and with
nothing that can change them until it is restarted.  Room for pending messages is limited
by refusing more, never by dropping one.

What has been handled is kept by the messenger, which is outside the repository:
`ReceiveStates` is what the journal asks of it.
-/

namespace PubkySwap

namespace Inbox

open Outbox (TransportError Write invalid)

/-! ## Messages -/

structure MessageId where
  publisher : String
  url : String
  deriving DecidableEq, Repr

/-- The decrypted body of a message, as far as it is read. -/
structure DecryptedMessage where
  sender : String
  content : String
  verified : Bool
  deriving DecidableEq, Repr

structure ReceivedMessage where
  id : MessageId
  /-- Nothing, if it could not be decrypted. -/
  message : Option DecryptedMessage
  etag : Option String
  updated : Bool
  deriving DecidableEq, Repr

/-- The messenger's record of a conversation. -/
class ReceiveStates where
  ReceiveState : Type
  /-- `ReceiveState::default`. -/
  nothing : ReceiveState
  isAcknowledged : ReceiveState → MessageId → Bool
  acknowledge : ReceiveState → ReceivedMessage → ReceiveState
  /-- `pkarr::PublicKey::try_from`, and the text of the key. -/
  publicKey : String → Option String

/-- What the messenger's documentation says of that record: it holds the resources that have
been acknowledged, and no others. -/
class LawfulReceiveStates [ReceiveStates] : Prop where
  isAcknowledged_nothing (id : MessageId) :
    ReceiveStates.isAcknowledged ReceiveStates.nothing id = false
  isAcknowledged_acknowledge (state : ReceiveStates.ReceiveState) (message : ReceivedMessage)
      (id : MessageId) :
    ReceiveStates.isAcknowledged (ReceiveStates.acknowledge state message) id =
      (id == message.id || ReceiveStates.isAcknowledged state id)

section

variable [ReceiveStates]

open ReceiveStates

/-! ## The records -/

/-- `VERSION`. -/
def journalVersion : ℕ := 2

def maxPending : ℕ := 1024

def maxPendingPerPeer : ℕ := 32

def maxRegisteredPeers : ℕ := 1024

structure PeerRecord where
  registered : Bool := false
  pinned : Bool := false
  acknowledged : ReceiveState := nothing
  pending : List ReceivedMessage := []

structure Records where
  version : ℕ := journalVersion
  owner : Option String := none
  peers : AList fun _ : String => PeerRecord := ∅

/-- The journal of a process, and the file that it owns. -/
structure Journal where
  records : Records
  writeFailed : Bool := false
  file : Option Records

def canonicalPubky (value : String) : Except TransportError Unit :=
  match publicKey value with
  | none => .error (invalid "invalid receive journal identity")
  | some key =>
      if key ≠ value then .error (invalid "receive journal identity is not canonical") else .ok ()

namespace Records

/-- How many messages are pending. -/
def pendingTotal (records : Records) : ℕ :=
  records.peers.sumBy fun _ record => record.pending.length

def record (records : Records) (peer : String) : PeerRecord :=
  (records.peers.lookup peer).getD {}

/-- `entry(peer).or_default()`, changed. -/
def change (peer : String) (apply : PeerRecord → PeerRecord) (records : Records) : Records :=
  { records with peers := records.peers.insert peer (apply (records.record peer)) }

/-- `get_mut(peer)`, no longer registered. -/
def unregister (peer : String) (records : Records) : Records :=
  match records.peers.lookup peer with
  | none => records
  | some record =>
      { records with peers := records.peers.insert peer { record with registered := false } }

end Records

/-- The checks of `open` on what it has read. -/
def validate (owner : String) (records : Records) : Except TransportError Unit :=
  if records.version ≠ journalVersion then
    .error (invalid "unsupported receive journal version")
  else if records.owner ≠ some owner then
    .error (invalid "receive journal belongs to another identity")
  else if maxPending < records.pendingTotal then
    .error (invalid "receive journal exceeds pending capacity")
  else
    records.peers.entries.forM fun entry => do
      canonicalPubky entry.1
      if maxPendingPerPeer < entry.2.pending.length then
        .error (invalid "receive journal exceeds peer pending capacity")

/-- `persist`, and the file it leaves. -/
def persist (write : Write) (records : Records) (file : Option Records) :
    Except TransportError Unit × Option Records :=
  match write with
  | .saved => (.ok (), some records)
  | .lost => (.error .io, file)
  | .unsynced => (.error .io, some records)

namespace Journal

/-- `Journal::open`, and the file it leaves; the write is that of a journal that is new. -/
def openJournal (write : Write) (owner : String) (file : Option Records) :
    Except TransportError Journal × Option Records :=
  match canonicalPubky owner with
  | .error e => (.error e, file)
  | .ok () =>
      match file with
      | some records =>
          ((validate owner records).map fun _ => ⟨records, false, file⟩, file)
      | none =>
          let records : Records := { owner := some owner }
          match persist write records none with
          | (.error e, file) => (.error e, file)
          | (.ok (), file) =>
              ((validate owner records).map fun _ => ⟨records, false, file⟩, file)

def ensureHealthy (journal : Journal) : Except TransportError Unit :=
  if journal.writeFailed then
    .error (invalid "received message state could not be saved; restart the transport to recover")
  else .ok ()

def checkOwner (owner : String) (journal : Journal) : Except TransportError Unit := do
  journal.ensureHealthy
  canonicalPubky owner
  if journal.records.owner.any (· ≠ owner) then
    .error (invalid "receive journal belongs to another identity")

/-- The peers that are registered, or have something pending. -/
def registered (journal : Journal) : List (String × Bool) :=
  (journal.records.peers.entries.filter fun entry =>
    entry.2.registered || !entry.2.pending.isEmpty).map fun entry => (entry.1, entry.2.pinned)

def record (journal : Journal) (peer : String) : PeerRecord := journal.records.record peer

/-- `update`. -/
def update (write : Write) (apply : Records → Records) (journal : Journal) :
    Except TransportError Unit × Journal :=
  match journal.ensureHealthy with
  | .error e => (.error e, journal)
  | .ok () =>
      let next := apply journal.records
      match persist write next journal.file with
      | (.error e, file) => (.error e, { journal with writeFailed := true, file := file })
      | (.ok (), file) => (.ok (), { journal with records := next, file := file })

/-- The head of a call that changes the record of a peer. -/
def admits (peer : String) (journal : Journal) : Except TransportError Unit := do
  journal.ensureHealthy
  canonicalPubky peer

def register (write : Write) (peer : String) (pinned : Bool) (journal : Journal) :
    Except TransportError Unit × Journal :=
  match journal.admits peer with
  | .error e => (.error e, journal)
  | .ok () =>
      let record := journal.record peer
      if record.registered ∧ (¬pinned ∨ record.pinned) then (.ok (), journal)
      else if ¬record.registered ∧ maxRegisteredPeers ≤ journal.registered.length then
        (.error (invalid "receive peer capacity reached"), journal)
      else
        journal.update write (Records.change peer fun record =>
          { record with registered := true, pinned := record.pinned || pinned })

/-- Whether the peer has been removed; one with something pending is not. -/
def unregister (write : Write) (peer : String) (journal : Journal) :
    Except TransportError Bool × Journal :=
  match journal.ensureHealthy with
  | .error e => (.error e, journal)
  | .ok () =>
      if ¬(journal.record peer).pending.isEmpty then (.ok false, journal)
      else
        let (result, journal) := journal.update write (Records.unregister peer)
        (result.map fun _ => true, journal)

def available (peer : String) (journal : Journal) : ℕ :=
  min (maxPending - journal.records.pendingTotal)
    (maxPendingPerPeer - (journal.record peer).pending.length)

/-- The loop of `remember`: what is to be kept, and what is to be acknowledged unread. -/
def sortReceived (existing : PeerRecord) (available : ℕ) :
    List ReceivedMessage → List ReceivedMessage → List ReceivedMessage →
      List ReceivedMessage × List ReceivedMessage
  | [], pending, discarded => (pending, discarded)
  | message :: rest, pending, discarded =>
      if isAcknowledged existing.acknowledged message.id ∨
          existing.pending.any (·.id == message.id) ∨ pending.any (·.id == message.id) ∨
          discarded.any (·.id == message.id) then
        sortReceived existing available rest pending discarded
      else if message.message.isNone then
        sortReceived existing available rest pending (discarded ++ [message])
      else if pending.length < available then
        sortReceived existing available rest (pending ++ [message]) discarded
      else sortReceived existing available rest pending discarded

def remember (write : Write) (peer : String) (received : List ReceivedMessage)
    (journal : Journal) : Except TransportError Unit × Journal :=
  match journal.admits peer with
  | .error e => (.error e, journal)
  | .ok () =>
      let (pending, discarded) :=
        sortReceived (journal.record peer) (journal.available peer) received [] []
      if pending.isEmpty ∧ discarded.isEmpty then (.ok (), journal)
      else
        journal.update write (Records.change peer fun record =>
          { record with
            pending := record.pending ++ pending
            acknowledged := discarded.foldl acknowledge record.acknowledged })

/-- The resource, as it is acknowledged. -/
def acknowledgment (id : MessageId) : ReceivedMessage := ⟨id, none, none, false⟩

def acknowledge (write : Write) (peer : String) (ids : List MessageId) (journal : Journal) :
    Except TransportError Unit × Journal :=
  match journal.admits peer with
  | .error e => (.error e, journal)
  | .ok () =>
      if ids.isEmpty then (.ok (), journal)
      else
        journal.update write (Records.change peer fun record =>
          { record with
            acknowledged :=
              ids.foldl (fun state id => ReceiveStates.acknowledge state (acknowledgment id))
                record.acknowledged
            pending := record.pending.filter fun message => message.id ∉ ids })

end Journal

end

end Inbox

end PubkySwap
