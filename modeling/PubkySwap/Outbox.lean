import PubkySwap.Bitcoin
import PubkySwap.Lib.JsonSize
import PubkySwap.Lib.Word

/-!
# The outbox

The journal of encrypted messages that are still to be published or deleted.  One process
at a time owns it.  Every change is made to a copy of the journal, which takes the place
of the old one once it has been written to the file; a write that fails leaves the
process without a usable journal until it is restarted.

The messenger that encrypts the messages is outside the repository: `Messenger` is what
the outbox reads of a message.  The file holds a journal, and its size is that of the
journal's JSON text.
-/

namespace PubkySwap

open CanonicalJson (Value optional)

/-- The messenger and its keys, as far as the outbox reads them. -/
class Messenger where
  /-- An encrypted message that is ready to be published. -/
  PreparedMessage : Type
  version : PreparedMessage → UInt8
  id : PreparedMessage → String
  owner : PreparedMessage → String
  recipient : PreparedMessage → String
  payload : PreparedMessage → List UInt8
  /-- `PreparedMessage::validate`. -/
  authentic : PreparedMessage → Bool
  /-- The serialization of a message. -/
  toValue : PreparedMessage → Value
  /-- `pkarr::PublicKey::try_from`, and the text of the key. -/
  publicKey : String → Option String
  /-- `blake3::hash`. -/
  contentHash : String → Bytes32

namespace Outbox

/-! ## Failures -/

/-- Sanitized cause of a publication or cleanup failure. -/
inductive DeliveryFailure where
  | temporaryHttp (status : UInt16)
  | transportUnavailable
  | timedOut
  | authentication (status : UInt16)
  | permanentHttp (status : UInt16)
  | invalidRequest
  deriving DecidableEq, Repr

def DeliveryFailure.isRetryable : DeliveryFailure → Bool
  | .temporaryHttp _ | .transportUnavailable | .timedOut => true
  | _ => false

/-- The independently scheduled operation whose state is being resumed. -/
inductive DeliveryOperation where
  | publication
  | cleanup
  deriving DecidableEq, Repr

inductive TransportError where
  | messenger (text : String)
  | io
  deriving DecidableEq, Repr

def invalid (message : String) : TransportError := .messenger message

/-! ## The journal -/

def maxEntries : ℕ := 1024

def maxEphemeralEntries : ℕ := 768

def maxBytes : ℕ := 16 * 1024 * 1024

def maxPayload : ℕ := 128 * 1024

section

variable [Messenger]

open Messenger hiding id

structure Entry where
  peer : String
  scope : String
  contentDigest : Bytes32
  prepared : PreparedMessage
  published : Bool
  attempts : UInt32
  nextRetryAt : UInt64
  cleanupAfter : Option UInt64
  cleanupAttempts : UInt32
  nextCleanupAt : UInt64
  publicationFailure : Option DeliveryFailure
  publicationPaused : Bool
  cleanupFailure : Option DeliveryFailure
  cleanupPaused : Bool

structure Journal where
  version : UInt8
  owner : Option String
  entries : List Entry

/-- The journal of an outbox that has just been created. -/
def Journal.new : Journal := ⟨1, none, []⟩

/-! ## Its text -/

def natural (n : ℕ) : Value := .number (.int n)

def DeliveryFailure.toValue : DeliveryFailure → Value
  | .temporaryHttp status => .object [("temporary_http", natural status.toNat)]
  | .transportUnavailable => .string "transport_unavailable"
  | .timedOut => .string "timed_out"
  | .authentication status => .object [("authentication", natural status.toNat)]
  | .permanentHttp status => .object [("permanent_http", natural status.toNat)]
  | .invalidRequest => .string "invalid_request"

/-- A flag that is left out when it is not set. -/
def flag (key : String) (b : Bool) : List (String × Value) :=
  optional key (if b then some (.bool true) else none)

def Entry.toValue (entry : Entry) : Value :=
  .object ([("peer", .string entry.peer), ("scope", .string entry.scope),
      ("content_digest", .array (entry.contentDigest.1.map fun byte => natural byte.toNat)),
      ("prepared", Messenger.toValue entry.prepared),
      ("published", .bool entry.published),
      ("attempts", natural entry.attempts.toNat),
      ("next_retry_at", natural entry.nextRetryAt.toNat),
      ("cleanup_after", entry.cleanupAfter.elim .null fun after => natural after.toNat),
      ("cleanup_attempts", natural entry.cleanupAttempts.toNat),
      ("next_cleanup_at", natural entry.nextCleanupAt.toNat)] ++
    optional "publication_failure" (entry.publicationFailure.map DeliveryFailure.toValue) ++
    flag "publication_paused" entry.publicationPaused ++
    optional "cleanup_failure" (entry.cleanupFailure.map DeliveryFailure.toValue) ++
    flag "cleanup_paused" entry.cleanupPaused)

def Journal.toValue (journal : Journal) : Value :=
  .object [("version", natural journal.version.toNat),
    ("owner", journal.owner.elim .null .string),
    ("entries", .array (journal.entries.map Entry.toValue))]

/-- The size of the journal's file. -/
def Journal.byteLength (journal : Journal) : ℕ := journal.toValue.byteLength

/-! ## Its checks -/

/-- `char::is_control`. -/
def isControl (c : Char) : Bool := c.toNat < 32 || (127 ≤ c.toNat && c.toNat < 160)

def canonicalPeer (peer : String) : Except TransportError Unit :=
  match publicKey peer with
  | none => .error (invalid "invalid outbox identity")
  | some key => if key ≠ peer then .error (invalid "noncanonical outbox identity") else .ok ()

def validateScope (peer scope : String) : Except TransportError Unit :=
  if scope.isEmpty ∨ 512 < scope.utf8ByteSize ∨ scope.toList.any isControl then
    .error (invalid "invalid outbox scope")
  else canonicalPeer peer

/-- An operation that is paused for no reason, or for one that is retried. -/
def pausedInvalidly (paused : Bool) (failure : Option DeliveryFailure) : Bool :=
  paused && failure.all DeliveryFailure.isRetryable

/-- The identifier of an entry's message. -/
def Entry.id (entry : Entry) : String := Messenger.id entry.prepared

/-- What a reservation is found again by. -/
def Entry.reservation (entry : Entry) : String × String × Bytes32 :=
  (entry.peer, entry.scope, entry.contentDigest)

/-- The checks of `validate` on each entry, after these identifiers and reservations. -/
def validateEntries (owner : Option String) :
    List String → List (String × String × Bytes32) → List Entry → Except TransportError Unit
  | _, _, [] => .ok ()
  | ids, reservations, entry :: rest =>
      match validateScope entry.peer entry.scope with
      | .error e => .error e
      | .ok () =>
          if pausedInvalidly entry.publicationPaused entry.publicationFailure ∨
              pausedInvalidly entry.cleanupPaused entry.cleanupFailure then
            .error (invalid "invalid paused outbox failure")
          else if ¬authentic entry.prepared then
            .error (invalid "saved encrypted message authentication failed")
          else if Messenger.version entry.prepared ≠ 1 ∨ recipient entry.prepared ≠ entry.peer ∨
              some (Messenger.owner entry.prepared) ≠ owner ∨ (payload entry.prepared).isEmpty ∨
              maxPayload < (payload entry.prepared).length ∨ entry.id.isEmpty ∨
              128 < entry.id.utf8ByteSize ∨
                ¬entry.id.toList.all (fun c => c.isAlphanum || c == '-') ∨
              entry.id ∈ ids ∨ entry.reservation ∈ reservations then
            .error (invalid "invalid outbox resource association")
          else validateEntries owner (entry.id :: ids) (entry.reservation :: reservations) rest

def validate (journal : Journal) : Except TransportError Unit :=
  if journal.version ≠ 1 ∨ maxEntries < journal.entries.length then
    .error (invalid "unsupported or oversized outbox journal")
  else
    match journal.owner.elim (.ok ()) canonicalPeer with
    | .error e => .error e
    | .ok () => validateEntries journal.owner [] [] journal.entries

/-! ## Files and processes -/

/-- What becomes of a write: it is saved, or lost, or the file is replaced and the directory
is not synchronized. -/
inductive Write where
  | saved
  | lost
  | unsynced
  deriving DecidableEq, Repr

/-- `persist`, and the file it leaves. -/
def persist (write : Write) (candidate : Journal) (file : Option Journal) :
    Except TransportError Unit × Option Journal :=
  if maxBytes < candidate.byteLength then
    (.error (invalid "outbox journal exceeds byte limit"), file)
  else
    match write with
    | .saved => (.ok (), some candidate)
    | .lost => (.error .io, file)
    | .unsynced => (.error .io, some candidate)

def readJournal (file : Option Journal) : Except TransportError (Option Journal) :=
  match file with
  | none => .ok none
  | some journal =>
      if maxBytes < journal.byteLength then
        .error (invalid "outbox journal exceeds byte limit")
      else .ok (some journal)

/-- The state of a process that has opened the outbox. -/
structure State where
  journal : Journal
  writeFailed : Bool

/-- `Outbox::open`, and the file it leaves. -/
def openAt (write : Write) (file : Option Journal) :
    Except TransportError State × Option Journal :=
  match readJournal file with
  | .error e => (.error e, file)
  | .ok (some journal) => ((validate journal).map fun _ => ⟨journal, false⟩, file)
  | .ok none =>
      match persist write .new file with
      | (.error e, file) => (.error e, file)
      | (.ok (), file) => ((validate .new).map fun _ => ⟨.new, false⟩, file)

/-- `update`: the change is made to a copy, which is used once it has been written. -/
def update {α : Type} (write : Write)
    (change : Journal → Except TransportError (α × Journal × Bool)) (state : State)
    (file : Option Journal) : Except TransportError α × State × Option Journal :=
  if state.writeFailed then
    (.error (invalid
      "message delivery state could not be saved; restart the transport to recover"), state, file)
  else
    match change state.journal with
    | .error e => (.error e, state, file)
    | .ok (value, candidate, changed) =>
        if changed then
          match persist write candidate file with
          | (.error e, file) => (.error e, { state with writeFailed := true }, file)
          | (.ok (), file) => (.ok value, { state with journal := candidate }, file)
        else (.ok value, state, file)

/-! ## Operations -/

/-- Whether a scope is one of read-only traffic. -/
def isEphemeral (scope : String) : Bool := "ephemeral:".toList.isPrefixOf scope.toList

def cleanupDue (entry : Entry) (now : UInt64) : Bool :=
  entry.cleanupAfter.any fun deadline => deadline ≤ now

/-- Saturating addition of one. -/
def saturatingSucc (n : UInt32) : UInt32 := UInt32.ofNat (Word.saturatingAdd 32 n.toNat 1)

/-- `retry`: one more attempt, and when the next one is due. -/
def retry (attempts : UInt32) (now : UInt64) : UInt32 × UInt64 :=
  let attempts := saturatingSucc attempts
  let shift := attempts.toNat - 1
  let delay := min (if shift < 64 then 2 ^ shift else Word.maxValue 64) 300
  (attempts, UInt64.ofNat (Word.saturatingAdd 64 now.toNat delay))

/-- A change of the first element with a property, `iter_mut().find(..)`. -/
def changeFirst {α : Type} (p : α → Bool) (f : α → α) : List α → List α
  | [] => []
  | a :: rest => if p a then f a :: rest else a :: changeFirst p f rest

/-- `find_entry`, and the change that is made to the entry. -/
def changeEntry (id : String) (f : Entry → Except TransportError (Entry × Bool))
    (journal : Journal) : Except TransportError (Unit × Journal × Bool) :=
  match journal.entries.find? fun entry => entry.id == id with
  | none => .error (invalid "unknown outbox resource")
  | some entry =>
      (f entry).map fun (entry', changed) =>
        ((), { journal with
          entries := changeFirst (fun entry => entry.id == id) (fun _ => entry') journal.entries },
          changed)

def markPublished (id : String) : Journal → Except TransportError (Unit × Journal × Bool) :=
  changeEntry id fun entry =>
    .ok ({ entry with published := true, publicationPaused := false },
      !entry.published || entry.publicationPaused)

def markFailed (id : String) (now : UInt64) (failure : DeliveryFailure) :
    Journal → Except TransportError (Unit × Journal × Bool) :=
  changeEntry id fun entry =>
    if cleanupDue entry now then .ok (entry, false)
    else
      let changed := entry.publicationFailure != some failure ||
        entry.publicationPaused == failure.isRetryable
      let entry := { entry with
        publicationFailure := some failure
        publicationPaused := !failure.isRetryable }
      if !entry.published && entry.nextRetryAt ≤ now then
        let (attempts, next) := retry entry.attempts now
        .ok ({ entry with attempts := attempts, nextRetryAt := next }, true)
      else .ok (entry, changed)

def markCleanupFailed (id : String) (now : UInt64) (failure : DeliveryFailure) :
    Journal → Except TransportError (Unit × Journal × Bool) :=
  changeEntry id fun entry =>
    if !cleanupDue entry now then .ok (entry, false)
    else
      let changed := entry.cleanupFailure != some failure ||
        entry.cleanupPaused == failure.isRetryable
      let entry := { entry with
        cleanupFailure := some failure
        cleanupPaused := !failure.isRetryable }
      if entry.nextCleanupAt ≤ now then
        let (attempts, next) := retry entry.cleanupAttempts now
        .ok ({ entry with cleanupAttempts := attempts, nextCleanupAt := next }, true)
      else .ok (entry, changed)

/-- `retry` of one operation after its failure has been addressed. -/
def resume (id : String) (operation : DeliveryOperation) (now : UInt64) :
    Journal → Except TransportError (Unit × Journal × Bool) :=
  changeEntry id fun entry =>
    match operation with
    | .publication =>
        if cleanupDue entry now then
          .error (invalid "cannot retry a publication after cleanup eligibility")
        else
          .ok ({ entry with publicationPaused := false, published := false, nextRetryAt := now },
            true)
    | .cleanup =>
        if entry.cleanupAfter.isNone then
          .error (invalid "cannot retry cleanup before scope completion")
        else .ok ({ entry with cleanupPaused := false, nextCleanupAt := now }, true)

/-- A change of every entry with a property, and whether there is one. -/
def changeAll (p : Entry → Bool) (f : Entry → Entry) (journal : Journal) :
    Except TransportError (Unit × Journal × Bool) :=
  .ok ((), { journal with
    entries := journal.entries.map fun entry => if p entry then f entry else entry },
    journal.entries.any p)

def completeScope (peer scope : String) (eligibleAfter : UInt64) :
    Journal → Except TransportError (Unit × Journal × Bool) :=
  changeAll
    (fun entry => entry.peer == peer && entry.scope == scope && entry.cleanupAfter.isNone)
    fun entry => { entry with cleanupAfter := some eligibleAfter }

def reopenScope (peer scope : String) : Journal → Except TransportError (Unit × Journal × Bool) :=
  changeAll
    (fun entry => entry.peer == peer && entry.scope == scope && entry.cleanupAfter.isSome)
    fun entry => { entry with
      cleanupAfter := none
      cleanupAttempts := 0
      nextCleanupAt := 0
      published := false
      attempts := 0
      nextRetryAt := 0 }

def removeDeleted (ids : List String) (now : UInt64) (journal : Journal) :
    Except TransportError (Unit × Journal × Bool) :=
  if journal.entries.any fun entry => ids.contains entry.id && !cleanupDue entry now then
    .error (invalid "cannot remove an outbox resource before cleanup eligibility")
  else
    let entries := journal.entries.filter fun entry => !ids.contains entry.id
    .ok ((), { journal with entries := entries }, journal.entries.length != entries.length)

/-- A new entry for a message. -/
def Entry.new (peer scope : String) (digest : Bytes32) (eligibleAfter : Option UInt64)
    (prepared : PreparedMessage) : Entry where
  peer := peer
  scope := scope
  contentDigest := digest
  prepared := prepared
  published := false
  attempts := 0
  nextRetryAt := 0
  cleanupAfter := eligibleAfter
  cleanupAttempts := 0
  nextCleanupAt := 0
  publicationFailure := none
  publicationPaused := false
  cleanupFailure := none
  cleanupPaused := false

/-- Whether the entry is the reservation of this content. -/
def Entry.reserves (peer scope : String) (digest : Bytes32) (entry : Entry) : Bool :=
  entry.peer == peer && entry.scope == scope && entry.contentDigest == digest

/-- The bytes that a journal needs, with the room that later updates may take. -/
def Journal.reservedLength (journal : Journal) : ℕ :=
  journal.byteLength + journal.entries.length * 512

/-- The journal with a new entry of its owner. -/
def Journal.push (journal : Journal) (entry : Entry) : Journal :=
  { journal with
    owner := some (Messenger.owner entry.prepared), entries := journal.entries ++ [entry] }

/-- The change of `prepare_with_expiry`; `prepared` is what the messenger answers. -/
def reserve (peer scope : String) (digest : Bytes32) (eligibleAfter : Option UInt64)
    (prepared : Option PreparedMessage) (journal : Journal) :
    Except TransportError (PreparedMessage × Journal × Bool) :=
  match journal.entries.find? (Entry.reserves peer scope digest) with
  | some entry =>
      if entry.cleanupAfter.isNone && eligibleAfter.isSome then
        .ok (entry.prepared, { journal with
          entries := changeFirst (Entry.reserves peer scope digest)
            (fun entry => { entry with cleanupAfter := eligibleAfter }) journal.entries }, true)
      else .ok (entry.prepared, journal, false)
  | none =>
      if isEphemeral scope ∧
          maxEphemeralEntries ≤ (journal.entries.filter fun e => isEphemeral e.scope).length then
        .error (invalid "read-only delivery capacity reached; retry later")
      else if maxEntries ≤ journal.entries.length then
        .error (invalid "outbox is full; pending work was retained")
      else if journal.entries.any fun entry =>
          entry.peer == peer && entry.scope == scope && entry.cleanupAfter.isSome then
        .error (invalid "outbox scope has already completed")
      else
        match prepared with
        | none => .error (invalid "message preparation failed")
        | some prepared =>
            if recipient prepared ≠ peer then
              .error (invalid "prepared message recipient does not match outbox peer")
            else if journal.owner.any (· ≠ Messenger.owner prepared) then
              .error (invalid "prepared message belongs to another outbox owner")
            else
              let journal := journal.push (.new peer scope digest eligibleAfter prepared)
              match validate journal with
              | .error e => .error e
              | .ok () =>
                  -- Leave room for timestamps and counters in later recovery/cleanup updates.
                  if maxBytes < journal.reservedLength then
                    .error (invalid "outbox byte capacity reached; pending work was retained")
                  else .ok (prepared, journal, true)

/-- A call that changes the outbox. -/
inductive Op where
  | prepare (peer scope content : String) (eligibleAfter : Option UInt64)
      (prepared : Option PreparedMessage)
  | markPublished (id : String)
  | markFailed (id : String) (now : UInt64) (failure : DeliveryFailure)
  | completeScope (peer scope : String) (eligibleAfter : UInt64)
  | reopenScope (peer scope : String)
  | markCleanupFailed (id : String) (now : UInt64) (failure : DeliveryFailure)
  | retry (id : String) (operation : DeliveryOperation) (now : UInt64)
  | removeDeleted (ids : List String) (now : UInt64)

/-- The answer of a change that answers nothing. -/
def unanswered (change : Journal → Except TransportError (Unit × Journal × Bool))
    (journal : Journal) : Except TransportError (Option PreparedMessage × Journal × Bool) :=
  (change journal).map fun (_, journal, changed) => (none, journal, changed)

/-- The change that a call makes to the journal. -/
def Op.change : Op → Journal → Except TransportError (Option PreparedMessage × Journal × Bool)
  | .prepare peer scope content eligibleAfter prepared, journal =>
      (reserve peer scope (contentHash content) eligibleAfter prepared journal).map
        fun (prepared, journal, changed) => (some prepared, journal, changed)
  | .markPublished id, journal => unanswered (Outbox.markPublished id) journal
  | .markFailed id now failure, journal => unanswered (Outbox.markFailed id now failure) journal
  | .completeScope peer scope eligibleAfter, journal =>
      unanswered (Outbox.completeScope peer scope eligibleAfter) journal
  | .reopenScope peer scope, journal => unanswered (Outbox.reopenScope peer scope) journal
  | .markCleanupFailed id now failure, journal =>
      unanswered (Outbox.markCleanupFailed id now failure) journal
  | .retry id operation now, journal => unanswered (resume id operation now) journal
  | .removeDeleted ids now, journal => unanswered (Outbox.removeDeleted ids now) journal

/-- The check that a call makes before it looks at the journal. -/
def Op.check : Op → Except TransportError Unit
  | .prepare peer scope .. | .completeScope peer scope _ | .reopenScope peer scope =>
      validateScope peer scope
  | _ => .ok ()

/-- A call, and the file it leaves. -/
def Op.run (op : Op) (write : Write) (state : State) (file : Option Journal) :
    Except TransportError (Option PreparedMessage) × State × Option Journal :=
  match op.check with
  | .error e => (.error e, state, file)
  | .ok () => update write op.change state file

end

end Outbox

end PubkySwap
