import PubkySwap.ReceiveJournal

/-!
# What the receive journal keeps

The records satisfy the checks that a restart makes of them (`Records.Sound`), nothing is
pending that has been acknowledged, and every call keeps what has been acknowledged and, but
for an acknowledgment, what is pending (`Records.Keeps`).

A call makes one change, of the copy, so that what a change keeps holds of the records in
memory and of the file alike, however the write ends (`Journal.Kept`).
-/

namespace PubkySwap

namespace Inbox

open Outbox (TransportError Write)
open ReceiveStates

/-- Checks that all pass, made one after the other. -/
theorem forM_eq_ok {α ε : Type} {f : α → Except ε Unit} {l : List α}
    (h : ∀ a ∈ l, f a = .ok ()) : l.forM f = .ok () := by
  induction l with
  | nil => rfl
  | cons a l ih =>
      show (f a >>= fun _ => l.forM f) = .ok ()
      rw [h a List.mem_cons_self]
      exact ih fun b hb => h b (List.mem_cons_of_mem a hb)

section

variable [ReceiveStates]

/-! ## Sound records -/

/-- This resource of a peer has been handled. -/
def Records.Acked (peer : String) (id : MessageId) (records : Records) : Prop :=
  isAcknowledged (records.record peer).acknowledged id = true

/-- What is pending of one peer. -/
structure PeerRecord.Sound (record : PeerRecord) : Prop where
  bound : record.pending.length ≤ maxPendingPerPeer
  nodup : (record.pending.map ReceivedMessage.id).Nodup
  readable : ∀ message ∈ record.pending, message.message.isSome = true
  unhandled : ∀ message ∈ record.pending, isAcknowledged record.acknowledged message.id = false

/-- How many peers are registered. -/
def Records.registeredTotal (records : Records) : ℕ :=
  records.peers.sumBy fun _ record => if record.registered then 1 else 0

/-- What every record file satisfies: one record for each key, no peer with more than it may
have, and the totals within their bounds. -/
structure Records.Sound (owner : String) (records : Records) : Prop where
  version : records.version = journalVersion
  owner : records.owner = some owner
  peers : ∀ peer record, records.peers.lookup peer = some record →
    publicKey peer = some peer ∧ record.Sound
  pending : records.pendingTotal ≤ maxPending
  registered : records.registeredTotal ≤ maxRegisteredPeers

/-- What a change leaves of the records: all that has been handled, and what is pending but
for `gone`. -/
structure Records.Keeps (gone : String → MessageId → Prop) (old new : Records) : Prop where
  acked : ∀ peer id, old.Acked peer id → new.Acked peer id
  pending : ∀ peer, ∀ message ∈ (old.record peer).pending,
    message ∈ (new.record peer).pending ∨ gone peer message.id

variable {records : Records} {owner peer other : String} {apply : PeerRecord → PeerRecord}

/-- A peer that is not recorded has a record with nothing in it. -/
theorem PeerRecord.sound_new [LawfulReceiveStates] : ({} : PeerRecord).Sound where
  bound := Nat.zero_le _
  nodup := List.nodup_nil
  readable _ hmem := (List.not_mem_nil hmem).elim
  unhandled _ hmem := (List.not_mem_nil hmem).elim

namespace Records

/-- What is changed of a peer's record. -/
theorem record_change_self :
    (records.change peer apply).record peer = apply (records.record peer) := by
  rw [record, change, AList.lookup_insert, Option.getD_some]

/-- The records of the other peers are as they were. -/
theorem record_change_of_ne (h : other ≠ peer) :
    (records.change peer apply).record other = records.record other := by
  rw [record, change, AList.lookup_insert_ne h]
  rfl

/-- A record in the file is what is looked up under its peer: each peer has one. -/
theorem lookup_of_mem {entry : Sigma fun _ : String => PeerRecord}
    (h : entry ∈ records.peers.entries) : records.peers.lookup entry.1 = some entry.2 :=
  AList.lookup_eq_some_iff.mpr h

/-- The record of any peer is sound, whether it is in the file or not. -/
theorem Sound.record (h : records.Sound owner) [LawfulReceiveStates] (peer : String) :
    (records.record peer).Sound := by
  unfold Records.record
  cases hlook : records.peers.lookup peer with
  | none => exact PeerRecord.sound_new
  | some found => exact (h.peers peer found hlook).2

/-- What a change makes of a total. -/
theorem sumBy_change (f : String → PeerRecord → ℕ) (hzero : f peer {} = 0) :
    AList.sumBy f (records.change peer apply).peers + f peer (records.record peer) =
      AList.sumBy f records.peers + f peer (apply (records.record peer)) := by
  have hnew : AList.sumBy f (records.change peer apply).peers =
      f peer (apply (records.record peer)) + AList.sumBy f (records.peers.erase peer) :=
    AList.sumBy_insert f records.peers peer _
  have hold : AList.sumBy f records.peers =
      f peer (records.record peer) + AList.sumBy f (records.peers.erase peer) :=
    AList.sumBy_eq_getD_add_erase f records.peers peer hzero
  omega

/-- What is pending in all changes by what is pending for the peer that changes. -/
theorem pendingTotal_change (records : Records) (peer : String)
    (apply : PeerRecord → PeerRecord) : (records.change peer apply).pendingTotal +
    (records.record peer).pending.length =
      records.pendingTotal + (apply (records.record peer)).pending.length :=
  sumBy_change (fun _ record => record.pending.length) rfl

/-- So does the number of registered peers. -/
theorem registeredTotal_change (records : Records) (peer : String)
    (apply : PeerRecord → PeerRecord) : (records.change peer apply).registeredTotal +
    (if (records.record peer).registered then 1 else 0) =
      records.registeredTotal + if (apply (records.record peer)).registered then 1 else 0 :=
  sumBy_change (fun _ record => if record.registered then 1 else 0) rfl

/-- A changed record is sound, and fits with the others. -/
theorem Sound.change (h : records.Sound owner) (hkey : publicKey peer = some peer)
    (hrecord : (apply (records.record peer)).Sound)
    (hpending : (records.change peer apply).pendingTotal ≤ maxPending)
    (hregistered : (records.change peer apply).registeredTotal ≤ maxRegisteredPeers) :
    (records.change peer apply).Sound owner := by
  refine ⟨h.version, h.owner, fun name found hlook => ?_, hpending, hregistered⟩
  rcases AList.lookup_insert_eq_some.mp hlook with ⟨rfl, rfl⟩ | ⟨-, hlook⟩
  · exact ⟨hkey, hrecord⟩
  · exact h.peers name found hlook

/-- A change that keeps what the record has. -/
theorem keeps_change {gone : String → MessageId → Prop}
    (hacked : ∀ id, isAcknowledged (records.record peer).acknowledged id = true →
      isAcknowledged (apply (records.record peer)).acknowledged id = true)
    (hpending : ∀ message ∈ (records.record peer).pending,
      message ∈ (apply (records.record peer)).pending ∨ gone peer message.id) :
    records.Keeps gone (records.change peer apply) := by
  constructor
  · intro name id h
    unfold Acked at h ⊢
    by_cases hname : name = peer
    · subst hname
      rw [record_change_self]
      exact hacked id h
    · rw [record_change_of_ne hname]
      exact h
  · intro name message hmem
    by_cases hname : name = peer
    · subst hname
      rw [record_change_self]
      exact hpending message hmem
    · rw [record_change_of_ne hname]
      exact .inl hmem

/-- What is not written keeps everything. -/
theorem Keeps.refl (gone : String → MessageId → Prop) (records : Records) :
    records.Keeps gone records :=
  ⟨fun _ _ h => h, fun _ _ h => .inl h⟩

end Records

/-- **Sound records are read back**: the checks of `open` pass. -/
theorem validate_of_sound (h : records.Sound owner) : validate owner records = .ok () := by
  unfold validate
  rw [if_neg (not_not_intro h.version), if_neg (not_not_intro h.owner),
    if_neg (Nat.not_lt.mpr h.pending)]
  refine forM_eq_ok fun entry hmem => ?_
  obtain ⟨hkey, hsound⟩ := h.peers entry.1 entry.2 (Records.lookup_of_mem hmem)
  have hcanonical : canonicalPubky entry.1 = .ok () := by
    rw [canonicalPubky, hkey]
    exact if_neg (not_not_intro rfl)
  rw [hcanonical]
  exact if_neg (Nat.not_lt.mpr hsound.bound)

/-- A text that is accepted as a key is the key's own text, so that no peer has two
records. -/
theorem publicKey_of_canonicalPubky (h : canonicalPubky peer = .ok ()) :
    publicKey peer = some peer := by
  unfold canonicalPubky at h
  split at h
  · cases h
  case h_2 key hsome =>
      split at h
      · cases h
      case isFalse heq => rw [hsome, not_not.mp heq]

/-- The records of a journal that is new. -/
theorem Records.sound_new (owner : String) : ({ owner := some owner } : Records).Sound owner where
  version := rfl
  owner := rfl
  peers _ _ hlook := by cases hlook
  pending := Nat.zero_le _
  registered := Nat.zero_le _

/-! ## One change of the copy -/

namespace Journal

variable {journal after : Journal} {gone : String → MessageId → Prop}

/-- A change has been written, or its write has failed. -/
inductive Turns (next : Records) (journal : Journal) : Bool → Journal → Prop
  | saved : Turns next journal true { journal with records := next, file := some next }
  | failed (file : Option Records) (hfile : file = journal.file ∨ file = some next) :
      Turns next journal false { journal with writeFailed := true, file := file }

/-- A call leaves the journal, or makes one change of the copy. -/
def Steps (owner : String) (gone : String → MessageId → Prop) (journal after : Journal) : Prop :=
  after = journal ∨ ∃ next saved, next.Sound owner ∧ journal.records.Keeps gone next ∧
    Turns next journal saved after

/-- **An update is refused before anything is written, or writes what was asked.**  A write
that fails may have reached the file, and the journal is not used again. -/
theorem update_turns (write : Write) (apply : Records → Records) (journal : Journal) :
    (journal.update write apply).2 = journal ∧ (journal.update write apply).1.isOk = false ∨
      Turns (apply journal.records) journal (journal.update write apply).1.isOk
        (journal.update write apply).2 := by
  unfold update ensureHealthy
  split
  · exact .inl ⟨rfl, rfl⟩
  · cases write with
    | saved => exact .inr .saved
    | lost => exact .inr (.failed journal.file (.inl rfl))
    | unsynced => exact .inr (.failed (some (apply journal.records)) (.inr rfl))

/-- A sound change makes a step. -/
theorem steps_update {apply : Records → Records} (write : Write)
    (hsound : (apply journal.records).Sound owner)
    (hkeeps : journal.records.Keeps gone (apply journal.records)) :
    Steps owner gone journal (journal.update write apply).2 := by
  rcases update_turns write apply journal with h | h
  · exact .inl h.1
  · exact .inr ⟨_, _, hsound, hkeeps, h⟩

/-- Whoever is admitted to the journal has a key for its name. -/
theorem publicKey_of_admits (h : journal.admits peer = .ok ()) : publicKey peer = some peer := by
  unfold admits at h
  cases hhealthy : journal.ensureHealthy with
  | error e =>
      rw [hhealthy] at h
      cases h
  | ok _ =>
      rw [hhealthy] at h
      exact publicKey_of_canonicalPubky h

/-- Nothing stops an acknowledgment that can be written. -/
theorem acknowledge_saved (hwritten : journal.writeFailed = false)
    (hkey : publicKey peer = some peer) (id : MessageId) :
    ∃ after, journal.acknowledge .saved peer [id] = (.ok (), after) ∧
      after.writeFailed = false := by
  have hhealthy : journal.ensureHealthy = .ok () := by
    unfold ensureHealthy
    rw [hwritten]
    rfl
  have hcanonical : canonicalPubky peer = .ok () := by
    rw [canonicalPubky, hkey]
    exact if_neg (not_not_intro rfl)
  have hadmits : journal.admits peer = .ok () := by
    unfold admits
    rw [hhealthy]
    exact hcanonical
  unfold acknowledge
  rw [hadmits]
  dsimp only
  rw [if_neg (by simp), update, hhealthy]
  exact ⟨_, rfl, hwritten⟩

/-! ## Registration -/

/-- The peers that are registered are those that `registered` lists. -/
theorem registeredTotal_le (journal : Journal) :
    journal.records.registeredTotal ≤ journal.registered.length := by
  unfold Records.registeredTotal AList.sumBy registered
  rw [List.length_map]
  induction journal.records.peers.entries with
  | nil => exact Nat.zero_le _
  | cons entry rest ih =>
      rw [List.map_cons, List.sum_cons, List.filter_cons]
      dsimp only at ih ⊢
      by_cases hregistered : entry.2.registered = true
      · rw [if_pos hregistered, hregistered, Bool.true_or, if_pos rfl, List.length_cons]
        omega
      · rw [if_neg hregistered, Nat.zero_add]
        split
        · rw [List.length_cons]
          omega
        · exact ih

/-- A registration keeps what is pending and received of every peer, also where it is refused
because there are as many peers as there may be. -/
theorem register_steps [LawfulReceiveStates] (h : journal.records.Sound owner) (write : Write)
    (pinned : Bool) :
    Steps owner (fun _ _ => False) journal (journal.register write peer pinned).2 := by
  unfold register
  split
  · exact .inl rfl
  case h_2 hadmits =>
      have hkey := publicKey_of_admits hadmits
      dsimp only
      split
      · exact .inl rfl
      · split
        · exact .inl rfl
        case isFalse hroom =>
            have hrecord := h.record peer
            have htotal := Records.pendingTotal_change journal.records peer fun record =>
              { record with registered := true, pinned := record.pinned || pinned }
            have hcount := Records.registeredTotal_change journal.records peer fun record =>
              { record with registered := true, pinned := record.pinned || pinned }
            refine steps_update write (h.change hkey ?_ ?_ ?_) (Records.keeps_change ?_ ?_)
            · exact ⟨hrecord.bound, hrecord.nodup, hrecord.readable, hrecord.unhandled⟩
            · have := h.pending
              dsimp only at htotal
              omega
            · have hle := registeredTotal_le journal
              have hbound := h.registered
              rw [if_pos rfl] at hcount
              by_cases hregistered : (journal.record peer).registered = true
              · rw [if_pos (show (journal.records.record peer).registered = true from
                  hregistered)] at hcount
                omega
              · have hfull : ¬maxRegisteredPeers ≤ journal.registered.length := fun hfull =>
                  hroom ⟨hregistered, hfull⟩
                omega
            · exact fun _ h => h
            · exact fun _ h => .inl h

/-- A peer that is given up has nothing pending.  Its record stays, for what has been
acknowledged, and is no longer registered; no other is touched. -/
theorem unregister_steps [LawfulReceiveStates] (h : journal.records.Sound owner) (write : Write) :
    Steps owner (fun _ _ => False) journal (journal.unregister write peer).2 := by
  have hsame : journal.records.unregister peer = journal.records ∨
      ∃ record, journal.records.peers.lookup peer = some record ∧
        journal.records.unregister peer =
          journal.records.change peer fun record => { record with registered := false } := by
    unfold Records.unregister
    cases hlook : journal.records.peers.lookup peer with
    | none => exact .inl rfl
    | some record => exact .inr ⟨record, rfl, by rw [Records.change, Records.record, hlook]; rfl⟩
  have hstep : Steps owner (fun _ _ => False) journal
      (journal.update write (Records.unregister peer)).2 := by
    rcases hsame with heq | ⟨record, hlook, heq⟩
    · exact steps_update write (heq.symm ▸ h) (heq.symm ▸ .refl _ _)
    · have hrecord : journal.records.record peer = record := by
        rw [Records.record, hlook, Option.getD_some]
      have htotal := Records.pendingTotal_change journal.records peer fun record =>
        { record with registered := false }
      have hcount := Records.registeredTotal_change journal.records peer fun record =>
        { record with registered := false }
      rw [if_neg Bool.false_ne_true] at hcount
      have hpending := h.pending
      have hregistered := h.registered
      obtain ⟨hkey, hsound⟩ := h.peers peer record hlook
      refine steps_update write ?_ ?_
      · rw [heq]
        refine h.change hkey ?_ (by dsimp only at htotal; omega) (by omega)
        rw [hrecord]
        exact ⟨hsound.bound, hsound.nodup, hsound.readable, hsound.unhandled⟩
      · rw [heq]
        exact Records.keeps_change (fun _ h => h) fun _ h => .inl h
  unfold unregister
  split
  · exact .inl rfl
  · split
    · exact .inl rfl
    · exact hstep

/-! ## What has been received -/

/-- What the loop of `remember` has collected. -/
structure Sorted (existing : PeerRecord) (available : ℕ)
    (pending discarded : List ReceivedMessage) : Prop where
  room : pending.length ≤ available
  nodup : (pending.map ReceivedMessage.id).Nodup
  readable : ∀ message ∈ pending, message.message.isSome = true
  unhandled : ∀ message ∈ pending, isAcknowledged existing.acknowledged message.id = false
  new : ∀ message ∈ pending ++ discarded, ∀ old ∈ existing.pending, old.id ≠ message.id
  apart : ∀ message ∈ pending, ∀ other ∈ discarded, other.id ≠ message.id

/-- The messages are taken in the order in which they came: to what is pending as long as
there is room, to what is discarded if they are broken, and left alone beyond that.  By
induction on those that are left. -/
theorem sorted_sortReceived {existing : PeerRecord} {available : ℕ}
    (received : List ReceivedMessage) {pending discarded : List ReceivedMessage}
    (h : Sorted existing available pending discarded) :
    Sorted existing available (sortReceived existing available received pending discarded).1
      (sortReceived existing available received pending discarded).2 := by
  induction received generalizing pending discarded with
  | nil => exact h
  | cons message rest ih =>
      unfold sortReceived
      split
      · exact ih h
      case isFalse hnew =>
          obtain ⟨hacked, hexisting, hpending, hdiscarded⟩ :
              isAcknowledged existing.acknowledged message.id = false ∧
                (∀ old ∈ existing.pending, old.id ≠ message.id) ∧
                (∀ other ∈ pending, other.id ≠ message.id) ∧
                ∀ other ∈ discarded, other.id ≠ message.id := by
            simpa only [not_or, Bool.not_eq_true, List.any_eq_true, beq_iff_eq, not_exists,
              not_and] using hnew
          split
          · refine ih ⟨h.room, h.nodup, h.readable, h.unhandled, fun m hmem => ?_,
              fun m hmem other hother => ?_⟩
            · rw [← List.append_assoc] at hmem
              rcases List.mem_append.mp hmem with hmem | hmem
              · exact h.new m hmem
              · exact List.mem_singleton.mp hmem ▸ hexisting
            · rcases List.mem_append.mp hother with hother | hother
              · exact h.apart m hmem other hother
              · obtain rfl := List.mem_singleton.mp hother
                exact (hpending m hmem).symm
          case isFalse hreadable =>
              split
              case isTrue hroom =>
                  refine ih ⟨?_, ?_, fun m hmem => ?_, fun m hmem => ?_, fun m hmem => ?_,
                    fun m hmem other hother => ?_⟩
                  · rw [List.length_append, List.length_singleton]
                    exact hroom
                  · rw [List.map_append, List.nodup_append]
                    refine ⟨h.nodup, List.nodup_singleton _, fun id hid other hother heq => ?_⟩
                    obtain ⟨m, hmem, rfl⟩ := List.mem_map.mp hid
                    exact hpending m hmem (heq.trans (List.mem_singleton.mp hother))
                  · rcases List.mem_append.mp hmem with hmem | hmem
                    · exact h.readable m hmem
                    · obtain rfl := List.mem_singleton.mp hmem
                      exact Option.isSome_iff_ne_none.mpr fun hnone => hreadable (hnone ▸ rfl)
                  · rcases List.mem_append.mp hmem with hmem | hmem
                    · exact h.unhandled m hmem
                    · exact List.mem_singleton.mp hmem ▸ hacked
                  · rcases List.mem_append.mp hmem with hmem | hmem
                    · rcases List.mem_append.mp hmem with hmem | hmem
                      · exact h.new m (List.mem_append_left _ hmem)
                      · exact List.mem_singleton.mp hmem ▸ hexisting
                    · exact h.new m (List.mem_append_right _ hmem)
                  · rcases List.mem_append.mp hmem with hmem | hmem
                    · exact h.apart m hmem other hother
                    · exact List.mem_singleton.mp hmem ▸ hdiscarded other hother
              case isFalse => exact ih h

section

variable [LawfulReceiveStates]

/-- What a list of acknowledgments adds. -/
theorem isAcknowledged_foldl (messages : List ReceivedMessage) (state : ReceiveState)
    (id : MessageId) :
    isAcknowledged (messages.foldl ReceiveStates.acknowledge state) id = true ↔
      isAcknowledged state id = true ∨ ∃ message ∈ messages, message.id = id := by
  induction messages generalizing state with
  | nil => simp
  | cons message messages ih =>
      rw [List.foldl_cons, ih, LawfulReceiveStates.isAcknowledged_acknowledge, Bool.or_eq_true,
        beq_iff_eq, List.exists_mem_cons_iff]
      constructor
      · rintro ((heq | hold) | hlater)
        · exact .inr (.inl heq.symm)
        · exact .inl hold
        · exact .inr (.inr hlater)
      · rintro (hold | heq | hlater)
        · exact .inl (.inr hold)
        · exact .inl (.inl heq.symm)
        · exact .inr hlater

/-- **What has been received is remembered** before it is delivered, within the bounds, and
nothing that was pending is lost. -/
theorem remember_steps (h : journal.records.Sound owner) (write : Write)
    (received : List ReceivedMessage) :
    Steps owner (fun _ _ => False) journal (journal.remember write peer received).2 := by
  unfold remember
  split
  · exact .inl rfl
  case h_2 hadmits =>
      have hkey := publicKey_of_admits hadmits
      -- what is kept fits into the room that is left, of the peer and in all
      have hsorted : Sorted (journal.record peer) (journal.available peer) [] [] :=
        ⟨Nat.zero_le _, List.nodup_nil, fun _ hmem => (List.not_mem_nil hmem).elim,
          fun _ hmem => (List.not_mem_nil hmem).elim, fun _ hmem => (List.not_mem_nil hmem).elim,
          fun _ hmem => (List.not_mem_nil hmem).elim⟩
      replace hsorted := sorted_sortReceived received hsorted
      generalize sortReceived (journal.record peer) (journal.available peer) received [] [] =
        sorted at hsorted
      obtain ⟨pending, discarded⟩ := sorted
      dsimp only at hsorted ⊢
      split
      · exact .inl rfl
      · have hrecord := h.record peer
        have htotal := Records.pendingTotal_change journal.records peer fun record =>
          { record with
            pending := record.pending ++ pending
            acknowledged := discarded.foldl ReceiveStates.acknowledge record.acknowledged }
        have hcount := Records.registeredTotal_change journal.records peer fun record =>
          { record with
            pending := record.pending ++ pending
            acknowledged := discarded.foldl ReceiveStates.acknowledge record.acknowledged }
        have hpending := h.pending
        have hregistered := h.registered
        have hroom := hsorted.room
        have hbound := hrecord.bound
        unfold available at hroom
        rw [show journal.record peer = journal.records.record peer from rfl] at hroom hsorted
        refine steps_update write (h.change hkey ?_ ?_ ?_) (Records.keeps_change ?_ ?_)
        · refine ⟨?_, ?_, fun m hmem => ?_, fun m hmem => ?_⟩
          · rw [List.length_append]
            omega
          · rw [List.map_append, List.nodup_append]
            refine ⟨hrecord.nodup, hsorted.nodup, fun id hid other hother heq => ?_⟩
            obtain ⟨old, hold, rfl⟩ := List.mem_map.mp hid
            obtain ⟨m, hmem, rfl⟩ := List.mem_map.mp hother
            exact hsorted.new m (List.mem_append_left _ hmem) old hold heq
          · exact (List.mem_append.mp hmem).elim (hrecord.readable m) (hsorted.readable m)
          · have hold : isAcknowledged (journal.records.record peer).acknowledged m.id = false :=
              (List.mem_append.mp hmem).elim (hrecord.unhandled m) (hsorted.unhandled m)
            rw [← Bool.not_eq_true, isAcknowledged_foldl, hold]
            rintro (hfalse | ⟨other, hother, heq⟩)
            · cases hfalse
            · rcases List.mem_append.mp hmem with hmem | hmem
              · exact hsorted.new other (List.mem_append_right _ hother) m hmem heq.symm
              · exact hsorted.apart m hmem other hother heq
        · rw [List.length_append] at htotal
          omega
        · dsimp only at hcount
          omega
        · intro id hid
          exact (isAcknowledged_foldl _ _ id).mpr (.inl hid)
        · exact fun m hmem => .inl (List.mem_append_left _ hmem)

/-- **An acknowledgment** makes one change, after which the resources are handled. -/
theorem acknowledge_turns (h : journal.records.Sound owner) (write : Write)
    (ids : List MessageId) :
    (journal.acknowledge write peer ids).2 = journal ∧
        ((journal.acknowledge write peer ids).1.isOk = true → ids = []) ∨
      ∃ next, next.Sound owner ∧
        journal.records.Keeps (fun name id => name = peer ∧ id ∈ ids) next ∧
        (∀ id ∈ ids, next.Acked peer id) ∧
        Turns next journal (journal.acknowledge write peer ids).1.isOk
          (journal.acknowledge write peer ids).2 := by
  unfold acknowledge
  split
  · exact .inl ⟨rfl, fun hfalse => by cases hfalse⟩
  case h_2 hadmits =>
      have hkey := publicKey_of_admits hadmits
      split
      case isTrue hempty => exact .inl ⟨rfl, fun _ => List.isEmpty_iff.mp hempty⟩
      case isFalse =>
          let apply : PeerRecord → PeerRecord := fun record =>
            { record with
              acknowledged :=
                ids.foldl (fun state id => ReceiveStates.acknowledge state (acknowledgment id))
                  record.acknowledged
              pending := record.pending.filter fun message => message.id ∉ ids }
          -- the fold acknowledges each of the identifiers, and takes none back
          have hacked : ∀ id, isAcknowledged (apply (journal.records.record peer)).acknowledged id =
              true ↔ isAcknowledged (journal.records.record peer).acknowledged id = true ∨
                id ∈ ids := by
            intro id
            have hfold := isAcknowledged_foldl (ids.map acknowledgment)
              (journal.records.record peer).acknowledged id
            rw [List.foldl_map] at hfold
            refine hfold.trans (or_congr_right ⟨?_, fun hmem => ?_⟩)
            · rintro ⟨message, hmem, rfl⟩
              obtain ⟨id, hid, rfl⟩ := List.mem_map.mp hmem
              exact hid
            · exact ⟨acknowledgment id, List.mem_map_of_mem hmem, rfl⟩
          have hrecord := h.record peer
          have hlength : (apply (journal.records.record peer)).pending.length ≤
              (journal.records.record peer).pending.length := List.length_filter_le _ _
          have htotal := Records.pendingTotal_change journal.records peer apply
          have hcount := Records.registeredTotal_change journal.records peer apply
          have hregistered : (apply (journal.records.record peer)).registered =
            (journal.records.record peer).registered := rfl
          rw [hregistered] at hcount
          have hpendingBound := h.pending
          have hregisteredBound := h.registered
          have hsound : (journal.records.change peer apply).Sound owner := by
            refine h.change hkey ⟨hlength.trans hrecord.bound, ?_, fun m hmem => ?_,
              fun m hmem => ?_⟩ (by omega) (by omega)
            · exact hrecord.nodup.sublist (List.filter_sublist.map _)
            · exact hrecord.readable m (List.mem_filter.mp hmem).1
            · obtain ⟨hmem, hnot⟩ := List.mem_filter.mp hmem
              rw [← Bool.not_eq_true, hacked, hrecord.unhandled m hmem]
              rintro (hfalse | hin)
              · cases hfalse
              · exact absurd hin (of_decide_eq_true hnot)
          -- what leaves the pending messages is what has been acknowledged
          have hkeeps : journal.records.Keeps (fun name id => name = peer ∧ id ∈ ids)
              (journal.records.change peer apply) := by
            refine Records.keeps_change (fun id hid => (hacked id).mpr (.inl hid)) fun m hmem => ?_
            by_cases hin : m.id ∈ ids
            · exact .inr ⟨rfl, hin⟩
            · exact .inl (List.mem_filter.mpr ⟨hmem, decide_eq_true hin⟩)
          have hall : ∀ id ∈ ids, (journal.records.change peer apply).Acked peer id := by
            intro id hid
            rw [Records.Acked, Records.record_change_self]
            exact (hacked id).mpr (.inr hid)
          rcases update_turns write (Records.change peer apply) journal with
            ⟨hsame, hfailed⟩ | hturns
          · refine .inl ⟨hsame, fun hok => ?_⟩
            rw [hfailed] at hok
            cases hok
          · exact .inr ⟨_, hsound, hkeeps, hall, hturns⟩

end

end Journal

end

end Inbox

end PubkySwap
