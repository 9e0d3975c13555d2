import PubkySwap.Inboxes
import PubkySwap.ReceiveJournalRun

/-!
# What the inboxes deliver

Three things hold over all runs of a process and its restarts.  What has been delivered stays
pending, in memory and on disk, until an acknowledgment is asked for; what an acknowledgment
has been saved for is not delivered again; and of two deliveries of a resource at most one
holds its lease.

The invariant relates the journal to what has happened (`Records.Tracks`), and the leases to
the receipts that are held (`System.Sound`).  The journal in memory and the one on disk
differ only after a failed write, and satisfy it both.
-/

namespace PubkySwap

namespace Inbox

open Outbox (TransportError Write)
open ReceiveStates
open Journal (Turns Steps)

section

variable [ReceiveStates] {M : Type} {decode : String → Option M}

/-! ## The journal and what has happened -/

/-- The resource is pending with a body that is decoded as this message: it will be delivered. -/
def Records.Deliverable (decode : String → Option M) (id : MessageId) (m : M)
    (records : Records) : Prop :=
  ∃ message ∈ (records.record id.publisher).pending, message.id = id ∧
    ∃ body, message.message = some body ∧
      Inboxes.accepted decode id.publisher id body = some m

/-- The records account for everything that has happened. -/
structure Records.Tracks (decode : String → Option M) (log : List (Entry M)) (records : Records) :
    Prop where
  sound : ∃ owner, publicKey owner = some owner ∧ records.Sound owner
  acked : ∀ id, .acknowledged id true ∈ log → records.Acked id.publisher id
  kept : ∀ id m, .delivered id m ∈ log →
    (∃ saved, .acknowledged id saved ∈ log) ∨ records.Deliverable decode id m

/-- The journal, in memory and on disk, with nothing in doubt. -/
structure Journal.Healthy (decode : String → Option M) (log : List (Entry M)) (journal : Journal) :
    Prop where
  written : journal.writeFailed = false
  file : journal.file = some journal.records
  tracks : journal.records.Tracks decode log

/-- The journal in memory accounts for everything, and so does the one on disk. -/
structure Journal.Kept (decode : String → Option M) (log : List (Entry M)) (journal : Journal) :
    Prop where
  memory : journal.records.Tracks decode log
  file : ∃ records, journal.file = some records ∧ records.Tracks decode log ∧
    (journal.writeFailed = false → records = journal.records)

variable {log more : List (Entry M)} {records next : Records} {journal after : Journal}
  {gone : String → MessageId → Prop} {id : MessageId} {m : M} {peer : String}

/-- A kept journal with no failed write is healthy: the file holds what memory holds. -/
theorem Journal.Kept.healthy (h : journal.Kept decode log)
    (hwritten : journal.writeFailed = false) :
    journal.Healthy decode log := by
  obtain ⟨records, hfile, -, hsame⟩ := h.file
  exact ⟨hwritten, by rw [hfile, hsame hwritten], h.memory⟩

/-- A healthy journal is kept, since memory and file give one and the same account. -/
theorem Journal.Healthy.kept (h : journal.Healthy decode log) : journal.Kept decode log :=
  ⟨h.tracks, _, h.file, h.tracks, fun _ => rfl⟩

/-- The records of a fresh journal track the empty log. -/
theorem Records.Tracks.new {owner : String} (h : publicKey owner = some owner) :
    ({ owner := some owner } : Records).Tracks decode [] where
  sound := ⟨owner, h, Records.sound_new owner⟩
  acked _ hmem := (List.not_mem_nil hmem).elim
  kept _ _ hmem := (List.not_mem_nil hmem).elim

/-- A message waiting to be delivered still waits after a change that let go of others
only. -/
theorem Records.Keeps.deliverable (h : records.Keeps gone next)
    (hid : records.Deliverable decode id m) (hgone : ¬gone id.publisher id) :
    next.Deliverable decode id m := by
  obtain ⟨message, hmem, rfl, haccepted⟩ := hid
  exact ⟨message, (h.pending _ message hmem).resolve_right hgone, rfl, haccepted⟩

/-- A change keeps the account of what has happened since, if what it takes has been asked
for. -/
theorem Records.Tracks.change (h : records.Tracks decode log) {owner : String}
    (howner : publicKey owner = some owner) (hsound : next.Sound owner)
    (hkeeps : records.Keeps gone next)
    (hgone : ∀ id m, gone id.publisher id → records.Deliverable decode id m →
      ∃ saved, .acknowledged id saved ∈ more)
    (hacked : ∀ id, .acknowledged id true ∈ more → next.Acked id.publisher id)
    (hnew : ∀ id m, .delivered id m ∉ more) : next.Tracks decode (log ++ more) := by
  refine ⟨⟨owner, howner, hsound⟩, fun id hid => ?_, fun id m hid => ?_⟩
  · rcases List.mem_append.mp hid with hold | hmore
    · exact hkeeps.acked _ _ (h.acked id hold)
    · exact hacked id hmore
  · have hold := (List.mem_append.mp hid).resolve_right (hnew id m)
    rcases h.kept id m hold with ⟨saved, hasked⟩ | hpending
    · exact .inl ⟨saved, List.mem_append_left _ hasked⟩
    · by_cases hg : gone id.publisher id
      · obtain ⟨saved, hasked⟩ := hgone id m hg hpending
        exact .inl ⟨saved, List.mem_append_right _ hasked⟩
      · exact .inr (hkeeps.deliverable hpending hg)

/-- An acknowledgment that has not been saved is asked for all the same. -/
theorem Records.Tracks.asked (h : records.Tracks decode log) (id : MessageId) :
    records.Tracks decode (log ++ [.acknowledged id false]) := by
  obtain ⟨owner, howner, hsound⟩ := h.sound
  refine h.change howner hsound (.refl (fun _ _ => False) records)
    (fun _ _ hfalse _ => hfalse.elim) (fun other hmem => ?_) fun other m hmem => ?_
  · cases List.mem_singleton.mp hmem
  · cases List.mem_singleton.mp hmem

/-- What is deliverable may be delivered. -/
theorem Records.Tracks.delivered (h : records.Tracks decode log) {out : List (Inbound M)}
    (hout : ∀ inbound ∈ out, records.Deliverable decode inbound.receipt.id inbound.message) :
    records.Tracks decode
      (log ++ out.map fun inbound => .delivered inbound.receipt.id inbound.message) := by
  refine ⟨h.sound, fun id hid => ?_, fun id m hid => ?_⟩
  · refine h.acked id ((List.mem_append.mp hid).resolve_right fun hmem => ?_)
    obtain ⟨_, _, heq⟩ := List.mem_map.mp hmem
    cases heq
  · rcases List.mem_append.mp hid with hold | hnew
    · rcases h.kept id m hold with ⟨saved, hasked⟩ | hpending
      · exact .inl ⟨saved, List.mem_append_left _ hasked⟩
      · exact .inr hpending
    · obtain ⟨inbound, hmem, heq⟩ := List.mem_map.mp hnew
      cases heq
      exact .inr (hout inbound hmem)

/-- What has been handled is not deliverable. -/
theorem Records.Tracks.not_deliverable [LawfulReceiveStates] (h : records.Tracks decode log)
    (hasked : .acknowledged id true ∈ log) : ¬records.Deliverable decode id m := by
  rintro ⟨message, hmem, rfl, -⟩
  obtain ⟨owner, -, hsound⟩ := h.sound
  have hunhandled := (hsound.record message.id.publisher).unhandled message hmem
  have hacked : isAcknowledged (records.record message.id.publisher).acknowledged message.id =
    true := h.acked _ hasked
  rw [hacked] at hunhandled
  cases hunhandled

/-- **However a write ends**, both journals keep the account. -/
theorem Journal.Kept.turns (h : journal.Kept decode log) {saved : Bool}
    (hnext : next.Tracks decode log) (hturns : Turns next journal saved after) :
    after.Kept decode log := by
  cases hturns with
  | saved => exact ⟨hnext, next, rfl, hnext, fun _ => rfl⟩
  | failed file hfile =>
      obtain ⟨records, hold, htracks, -⟩ := h.file
      refine ⟨h.memory, ?_⟩
      rcases hfile with rfl | rfl
      · exact ⟨records, hold, htracks, fun hfalse => by cases hfalse⟩
      · exact ⟨next, rfl, hnext, fun hfalse => by cases hfalse⟩

/-- A call that takes nothing keeps the account. -/
theorem Journal.Kept.steps (h : journal.Kept decode log)
    (hsteps : ∀ owner, journal.records.Sound owner →
      Steps owner (fun _ _ => False) journal after) : after.Kept decode log := by
  obtain ⟨owner, howner, hsound⟩ := h.memory.sound
  rcases hsteps owner hsound with rfl | ⟨next, saved, hnext, hkeeps, hturns⟩
  · exact h
  · refine h.turns ?_ hturns
    have htracks : next.Tracks decode (log ++ []) := h.memory.change howner hnext hkeeps
      (fun _ _ hfalse _ => hfalse.elim) (fun _ hmem => (List.not_mem_nil hmem).elim)
      fun _ _ => List.not_mem_nil
    rwa [List.append_nil] at htracks

/-- The same account of more that has happened. -/
theorem Journal.Kept.extend (h : journal.Kept decode log)
    (hmore : ∀ records : Records, records.Tracks decode log → records.Tracks decode (log ++ more)) :
    journal.Kept decode (log ++ more) := by
  obtain ⟨records, hfile, htracks, hsame⟩ := h.file
  exact ⟨hmore _ h.memory, records, hfile, hmore _ htracks, hsame⟩

/-- **An acknowledgment** is accounted for, whether it is saved or not. -/
theorem Journal.Kept.acknowledge [LawfulReceiveStates] (h : journal.Kept decode log)
    (write : Write) (id : MessageId) :
    (journal.acknowledge write id.publisher [id]).2.Kept decode
      (log ++ [.acknowledged id (journal.acknowledge write id.publisher [id]).1.isOk]) := by
  obtain ⟨owner, howner, hsound⟩ := h.memory.sound
  rcases Journal.acknowledge_turns hsound write [id] with ⟨hsame, hempty⟩ |
    ⟨next, hnext, hkeeps, hacked, hturns⟩
  · have hfailed : (journal.acknowledge write id.publisher [id]).1.isOk = false :=
      Bool.eq_false_iff.mpr fun hok => List.cons_ne_nil _ _ (hempty hok)
    rw [hsame, hfailed]
    exact h.extend fun _ htracks => htracks.asked id
  · generalize (journal.acknowledge write id.publisher [id]).1.isOk = saved at hturns ⊢
    generalize (journal.acknowledge write id.publisher [id]).2 = after at hturns ⊢
    have htracks : next.Tracks decode (log ++ [.acknowledged id saved]) := by
      refine h.memory.change howner hnext hkeeps (fun other m hgone _ => ?_)
        (fun other hmem => ?_) fun other m hmem => ?_
      · obtain rfl := List.mem_singleton.mp hgone.2
        exact ⟨saved, List.mem_singleton_self _⟩
      · cases List.mem_singleton.mp hmem
        exact hacked _ (List.mem_singleton_self _)
      · cases List.mem_singleton.mp hmem
    cases hturns with
    | saved => exact ⟨htracks, next, rfl, htracks, fun _ => rfl⟩
    | failed file hfile =>
        exact (h.extend fun _ htracks => htracks.asked id).turns htracks (.failed file hfile)

/-! ## What is released -/

namespace Inboxes

variable {inboxes start now : Inboxes} {receipt : Receipt} {rest : List ReceivedMessage}
  {delivered : List (Inbound M)} {writes : MessageId → Write}

/-- Releasing a receipt touches the leases only, never the journal. -/
theorem release_journal : (inboxes.release receipt).journal = inboxes.journal := by
  unfold release
  split <;> rfl

/-- Releasing a receipt does not give its lease number out again. -/
theorem release_nextLease : (inboxes.release receipt).nextLease = inboxes.nextLease := by
  unfold release
  split <;> rfl

/-- The leases after a release: all but the one with both this receipt's message and its
number. -/
theorem lookup_release {lease : ℕ} :
    (inboxes.release receipt).leases.lookup id = some lease ↔
      inboxes.leases.lookup id = some lease ∧ ¬(id = receipt.id ∧ lease = receipt.lease) := by
  unfold release
  split
  case isTrue hholds =>
      rw [AList.lookup_erase_eq_some]
      refine ⟨fun ⟨hne, h⟩ => ⟨h, fun heq => hne heq.1⟩, fun ⟨h, hne⟩ => ⟨fun heq => ?_, h⟩⟩
      subst heq
      exact hne ⟨rfl, Option.some.inj (h.symm.trans hholds)⟩
  case isFalse hnot =>
      refine ⟨fun h => ⟨h, fun heq => hnot ?_⟩, fun h => h.1⟩
      rw [← heq.1, ← heq.2]
      exact h

/-- Deliveries that are dropped together. -/
def releaseAll (delivered : List (Inbound M)) (inboxes : Inboxes) : Inboxes :=
  delivered.foldl (fun inboxes inbound => inboxes.release inbound.receipt) inboxes

/-- Releasing what a failed delivery had leased leaves the journal and the next lease
number. -/
theorem releaseAll_keeps (delivered : List (Inbound M)) (inboxes : Inboxes) :
    (inboxes.releaseAll delivered).journal = inboxes.journal ∧
      (inboxes.releaseAll delivered).nextLease = inboxes.nextLease := by
  induction delivered generalizing inboxes with
  | nil => exact ⟨rfl, rfl⟩
  | cons inbound delivered ih =>
      have htail := ih (inboxes.release inbound.receipt)
      rw [release_journal, release_nextLease] at htail
      exact htail

/-- The leases after a failed delivery is undone: all but those it had taken itself, whatever
their order. -/
theorem lookup_releaseAll (delivered : List (Inbound M)) (inboxes : Inboxes) {lease : ℕ} :
    (inboxes.releaseAll delivered).leases.lookup id = some lease ↔
      inboxes.leases.lookup id = some lease ∧
        ∀ inbound ∈ delivered, ¬(id = inbound.receipt.id ∧ lease = inbound.receipt.lease) := by
  induction delivered generalizing inboxes with
  | nil => simp [releaseAll]
  | cons inbound delivered ih =>
      rw [List.forall_mem_cons, ← and_assoc, ← lookup_release]
      exact ih (inboxes.release inbound.receipt)

/-! ## The loop of a delivery -/

/-- What has been delivered so far, and what is left of what was pending. -/
structure Delivering (decode : String → Option M) (log : List (Entry M)) (start : Inboxes)
    (peer : String) (rest : List ReceivedMessage) (delivered : List (Inbound M))
    (now : Inboxes) : Prop where
  room : start.nextLease + (delivered.length + rest.length) < 2 ^ 64
  healthy : now.journal.Healthy decode log
  pending : ∀ message ∈ rest, message ∈ (now.journal.record peer).pending
  nodup : (delivered.map (·.receipt.id) ++ rest.map ReceivedMessage.id).Nodup
  peers : ∀ inbound ∈ delivered,
    inbound.receipt.peer = peer ∧ inbound.receipt.id.publisher = peer
  deliverable : ∀ inbound ∈ delivered,
    now.journal.records.Deliverable decode inbound.receipt.id inbound.message
  fresh : ∀ inbound ∈ delivered, inbound.receipt.id ∉ start.leases
  leases : ∀ id lease, now.leases.lookup id = some lease ↔
    start.leases.lookup id = some lease ∨
      ∃ inbound ∈ delivered, inbound.receipt.id = id ∧ inbound.receipt.lease = lease
  numbered : delivered.map (·.receipt.lease) = List.range' start.nextLease delivered.length
  next : now.nextLease = start.nextLease + delivered.length

/-- A delivery that has failed: nothing has been leased. -/
structure Abandoned (decode : String → Option M) (log : List (Entry M)) (start now : Inboxes) :
    Prop where
  kept : now.journal.Kept decode log
  leases : ∀ id lease, now.leases.lookup id = some lease ↔ start.leases.lookup id = some lease
  next : start.nextLease ≤ now.nextLease

/-- A delivery that has found nothing. -/
theorem Delivering.empty (h : Delivering (M := M) decode log start peer [] [] now) :
    Abandoned decode log start now where
  kept := h.healthy.kept
  leases id lease := by simp [h.leases]
  next := h.next.ge

omit [ReceiveStates] in
/-- A message is accepted from its publisher's own inbox only. -/
theorem accepted_publisher {body : DecryptedMessage}
    (h : accepted decode peer id body = some m) : id.publisher = peer := by
  unfold accepted at h
  split at h
  · cases h
  case isFalse hnot => exact not_not.mp fun hne => hnot (.inr (.inr hne))

/-- A resource that is passed over. -/
theorem Delivering.skip {resource : ReceivedMessage}
    (h : Delivering decode log start peer (resource :: rest) delivered now) :
    Delivering decode log start peer rest delivered now :=
  { h with
    room := (Nat.add_le_add_left (Nat.add_le_add_left (Nat.le_succ _) _) _).trans_lt h.room
    pending := fun message hmem => h.pending message (List.mem_cons_of_mem _ hmem)
    nodup := h.nodup.sublist ((List.Sublist.refl _).append ((List.sublist_cons_self _ _).map _)) }

/-- A resource that is delivered. -/
theorem Delivering.lease {resource : ReceivedMessage} {body : DecryptedMessage}
    (h : Delivering decode log start peer (resource :: rest) delivered now)
    (hfree : resource.id ∉ now.leases) (hbody : resource.message = some body)
    (haccepted : accepted decode peer resource.id body = some m) :
    Delivering decode log start peer rest
      (delivered ++ [⟨peer, m, ⟨peer, resource.id, now.nextLease⟩⟩]) (now.lease resource.id) := by
  have hpublisher := accepted_publisher haccepted
  have hpending := h.pending resource List.mem_cons_self
  have hroom := h.room
  rw [List.length_cons] at hroom
  refine ⟨?_, h.healthy, h.skip.pending, ?_, fun inbound hmem => ?_, fun inbound hmem => ?_,
    fun inbound hmem => ?_, fun id lease => ?_, ?_, ?_⟩
  · rw [List.length_append, List.length_singleton]
    omega
  · rw [List.map_append, List.append_assoc]
    exact h.nodup
  · rcases List.mem_append.mp hmem with hmem | hmem
    · exact h.peers inbound hmem
    · obtain rfl := List.mem_singleton.mp hmem
      exact ⟨rfl, hpublisher⟩
  · rcases List.mem_append.mp hmem with hmem | hmem
    · exact h.deliverable inbound hmem
    · obtain rfl := List.mem_singleton.mp hmem
      refine ⟨resource, ?_, rfl, body, hbody, ?_⟩ <;> dsimp only <;> rw [hpublisher]
      · exact hpending
      · exact haccepted
  · rcases List.mem_append.mp hmem with hmem | hmem
    · exact h.fresh inbound hmem
    · obtain rfl := List.mem_singleton.mp hmem
      intro hstart
      obtain ⟨lease, hlease⟩ := AList.mem_iff_lookup.mp hstart
      exact hfree (AList.mem_of_lookup ((h.leases _ lease).mpr (.inl hlease)))
  · rw [Inboxes.lease, AList.lookup_insert_eq_some, h.leases]
    constructor
    · rintro (⟨rfl, rfl⟩ | ⟨-, hold | ⟨inbound, hmem, heq⟩⟩)
      · exact .inr ⟨_, List.mem_append_right _ (List.mem_singleton_self _), rfl, rfl⟩
      · exact .inl hold
      · exact .inr ⟨inbound, List.mem_append_left _ hmem, heq⟩
    · rintro (hold | ⟨inbound, hmem, rfl, rfl⟩)
      · refine .inr ⟨fun heq => hfree ?_, .inl hold⟩
        exact heq ▸ AList.mem_of_lookup ((h.leases id lease).mpr (.inl hold))
      · rcases List.mem_append.mp hmem with hmem | hmem
        · refine .inr ⟨fun heq => hfree ?_, .inr ⟨inbound, hmem, rfl, rfl⟩⟩
          exact heq ▸ AList.mem_of_lookup
            ((h.leases _ inbound.receipt.lease).mpr (.inr ⟨inbound, hmem, rfl, rfl⟩))
        · obtain rfl := List.mem_singleton.mp hmem
          exact .inl ⟨rfl, rfl⟩
  · rw [List.map_append, h.numbered, List.length_append, List.length_singleton,
      List.range'_concat, List.map_singleton, h.next, Nat.one_mul]
  · -- the counter does not come round
    have hnext := h.next
    show (now.nextLease + 1) % 2 ^ 64 = _
    rw [List.length_append, List.length_singleton, Nat.mod_eq_of_lt (by omega)]
    omega

section

variable [LawfulReceiveStates] {resource : ReceivedMessage}

/-- **A resource that is rejected** is handled before it is passed over; what has been
delivered is not touched. -/
theorem Delivering.reject
    (h : Delivering decode log start peer (resource :: rest) delivered now)
    (hrejected : ∀ body m, resource.message = some body →
      accepted decode peer resource.id body ≠ some m) (write : Write) :
    ((now.journal.acknowledge write peer [resource.id]).1.isOk = true →
        Delivering decode log start peer rest delivered
          { now with journal := (now.journal.acknowledge write peer [resource.id]).2 }) ∧
      (now.journal.acknowledge write peer [resource.id]).2.Kept decode log := by
  obtain ⟨owner, howner, hsound⟩ := h.healthy.tracks.sound
  rcases Journal.acknowledge_turns hsound write [resource.id] with ⟨hsame, hempty⟩ |
    ⟨next, hnext, hkeeps, -, hturns⟩
  · refine ⟨fun hok => absurd (hempty hok) (List.cons_ne_nil _ _), ?_⟩
    rw [hsame]
    exact h.healthy.kept
  · generalize (now.journal.acknowledge write peer [resource.id]).1.isOk = saved at hturns ⊢
    generalize (now.journal.acknowledge write peer [resource.id]).2 = after at hturns ⊢
    have hpending := h.pending resource List.mem_cons_self
    have htracks : next.Tracks decode log := by
      rw [← List.append_nil log]
      refine h.healthy.tracks.change howner hnext hkeeps ?_
        (fun _ hmem => (List.not_mem_nil hmem).elim) fun _ _ => List.not_mem_nil
      -- what is rejected is not deliverable: ids are pending once
      rintro id m ⟨rfl, hid⟩ ⟨message, hmem, rfl, body, hbody, haccepted⟩
      have heq : message = resource := List.inj_on_of_nodup_map
        (hsound.record message.id.publisher).nodup hmem hpending (List.mem_singleton.mp hid)
      exact (hrejected body m (heq ▸ hbody) (heq ▸ haccepted)).elim
    refine ⟨fun hok => ?_, h.healthy.kept.turns htracks hturns⟩
    subst hok
    have hafter : after = { now.journal with records := next, file := some next } := by
      cases hturns
      rfl
    subst hafter
    have hother : ∀ inbound ∈ delivered, inbound.receipt.id ≠ resource.id := by
      intro inbound hmem heq
      exact (List.nodup_append.mp h.nodup).2.2 _ (List.mem_map_of_mem hmem) _
        (List.mem_map_of_mem List.mem_cons_self) heq
    refine { h.skip with
      healthy := ⟨h.healthy.written, rfl, htracks⟩
      pending := fun message hmem => ?_
      deliverable := fun inbound hmem => ?_ }
    · refine (hkeeps.pending peer message (h.skip.pending message hmem)).resolve_right
        fun hgone => ?_
      have hnodup := (List.nodup_append.mp h.nodup).2.1
      rw [List.map_cons, List.nodup_cons] at hnodup
      exact hnodup.1 (List.mem_singleton.mp hgone.2 ▸ List.mem_map_of_mem hmem)
    · exact hkeeps.deliverable (h.deliverable inbound hmem)
        fun hgone => hother inbound hmem (List.mem_singleton.mp hgone.2)

/-- **A delivery** leases exactly what it delivers, and nothing if it fails. -/
theorem deliverEach_spec (h : Delivering decode log start peer rest delivered now) :
    (∃ out after, deliverEach decode writes peer rest delivered now = (.ok out, after) ∧
        Delivering decode log start peer [] out after) ∨
      ∃ e after, deliverEach decode writes peer rest delivered now = (.error e, after) ∧
        Abandoned decode log start after := by
  induction rest generalizing delivered now with
  | nil => exact .inl ⟨delivered, now, rfl, h⟩
  | cons resource rest ih =>
      unfold deliverEach
      split
      · exact ih h.skip
      case isFalse hfree =>
          split
          · exact ih h.skip
          case h_2 body hbody =>
              split
              case h_1 hrejected =>
                  have hreject := h.reject (fun body' m hbody' haccepted => by
                    rw [hbody] at hbody'
                    cases hbody'
                    rw [hrejected] at haccepted
                    cases haccepted) (writes resource.id)
                  split
                  case h_1 e journal heq =>
                      rw [heq] at hreject
                      refine .inr ⟨e, _, rfl, ?_⟩
                      obtain ⟨hjournal, hnext⟩ := releaseAll_keeps delivered
                        { now with journal := journal }
                      refine ⟨hjournal.symm ▸ hreject.2, fun id lease => ?_, ?_⟩
                      · refine (lookup_releaseAll delivered _).trans ?_
                        dsimp only
                        rw [h.leases]
                        constructor
                        · rintro ⟨hold | ⟨inbound, hmem, hid, hlease⟩, hnone⟩
                          · exact hold
                          · exact absurd ⟨hid.symm, hlease.symm⟩ (hnone inbound hmem)
                        · refine fun hold => ⟨.inl hold, fun inbound hmem hheld => ?_⟩
                          exact h.fresh inbound hmem (hheld.1 ▸ AList.mem_of_lookup hold)
                      · refine le_of_le_of_eq ?_ hnext.symm
                        exact h.next ▸ Nat.le_add_right _ _
                  case h_2 journal heq =>
                      rw [heq] at hreject
                      exact ih (hreject.1 rfl)
              case h_2 m haccepted => exact ih (h.lease hfree hbody haccepted)

omit [LawfulReceiveStates] in
/-- The health check passes only while no write of the journal has failed. -/
theorem ok_of_ensureHealthy {journal : Journal} (h : journal.ensureHealthy = .ok ()) :
    journal.writeFailed = false := by
  unfold Journal.ensureHealthy at h
  split at h
  · cases h
  case isFalse hfalse => exact Bool.not_eq_true _ ▸ hfalse

/-- A delivery either answers what it leased, or answers an error with every lease it took
released. -/
theorem deliver_spec (h : inboxes.journal.Kept decode log)
    (hroom : inboxes.nextLease + maxPendingPerPeer < 2 ^ 64) (writes : MessageId → Write)
    (peer : String) :
    (∃ out after, deliver decode writes peer inboxes = (.ok out, after) ∧
        Delivering decode log inboxes peer [] out after) ∨
      ∃ e after, deliver decode writes peer inboxes = (.error e, after) ∧
        Abandoned decode log inboxes after := by
  unfold deliver
  split
  case h_1 e _ => exact .inr ⟨e, inboxes, rfl, h, fun _ _ => Iff.rfl, Nat.le_refl _⟩
  case h_2 hhealthy =>
      obtain ⟨owner, -, hsound⟩ := h.memory.sound
      have hbound : (inboxes.journal.record peer).pending.length ≤ maxPendingPerPeer :=
        (hsound.record peer).bound
      refine deliverEach_spec ⟨?_, h.healthy (ok_of_ensureHealthy hhealthy), fun _ hmem => hmem,
        (hsound.record peer).nodup, ?_, ?_, ?_, fun id lease => ?_, rfl, rfl⟩
      · rw [List.length_nil, Nat.zero_add]
        exact (Nat.add_le_add_left hbound _).trans_lt hroom
      iterate 3 exact fun _ hmem => (List.not_mem_nil hmem).elim
      simp

end

/-! ## What a delivery hands out -/

/-- What is to be delivered of one peer, in the order in which it was received. -/
def due (decode : String → Option M) (peer : String) (leased : MessageId → Bool)
    (pending : List ReceivedMessage) : List (MessageId × M) :=
  pending.filterMap fun resource =>
    if leased resource.id then none
    else resource.message.bind fun body =>
      (accepted decode peer resource.id body).map fun m => (resource.id, m)

omit [ReceiveStates] in
/-- What is due of a list of resources, one resource at a time: leased ones are passed over,
and the rest is decoded. -/
theorem due_cons (leased : MessageId → Bool) (resource : ReceivedMessage) :
    due decode peer leased (resource :: rest) =
      (if leased resource.id then none
        else resource.message.bind fun body =>
          (accepted decode peer resource.id body).map fun m => (resource.id, m)).toList ++
        due decode peer leased rest := by
  unfold due
  rw [List.filterMap_cons]
  split
  case h_1 heq => rw [heq]; rfl
  case h_2 b heq => rw [heq]; rfl

omit [ReceiveStates] in
/-- What is due looks at the leases of the listed messages only. -/
theorem due_congr {leased leased' : MessageId → Bool}
    (h : ∀ resource ∈ rest, leased resource.id = leased' resource.id) :
    due decode peer leased rest = due decode peer leased' rest :=
  List.filterMap_congr fun resource hmem => by rw [h resource hmem]

/-- **A delivery that succeeds** hands out all that is due, in order. -/
theorem deliverEach_delivers {out : List (Inbound M)} {after : Inboxes}
    (hnodup : (rest.map ReceivedMessage.id).Nodup)
    (h : deliverEach decode writes peer rest delivered now = (.ok out, after)) :
    out.map (fun inbound => (inbound.receipt.id, inbound.message)) =
      delivered.map (fun inbound => (inbound.receipt.id, inbound.message)) ++
        due decode peer (fun id => decide (id ∈ now.leases)) rest := by
  induction rest generalizing delivered now with
  | nil =>
      cases h
      rw [due, List.filterMap_nil, List.append_nil]
  | cons resource rest ih =>
      rw [List.map_cons, List.nodup_cons] at hnodup
      rw [due_cons]
      unfold deliverEach at h
      split at h
      case isTrue hleased =>
          rw [if_pos (decide_eq_true hleased)]
          exact ih hnodup.2 h
      case isFalse hfree =>
          rw [if_neg (fun hfalse => hfree (of_decide_eq_true hfalse))]
          split at h
          case h_1 hnone =>
              rw [hnone]
              exact ih hnodup.2 h
          case h_2 body hbody =>
              rw [hbody, Option.bind_some]
              split at h
              case h_1 hrejected =>
                  rw [hrejected]
                  split at h
                  · cases h
                  · have htail := ih hnodup.2 h
                    exact htail
              case h_2 m haccepted =>
                  have htail := ih hnodup.2 h
                  rw [List.map_append, List.append_assoc] at htail
                  rw [htail, haccepted]
                  refine congrArg _ (congrArg _ (due_congr fun other hmem => ?_))
                  have hne : other.id ≠ resource.id := fun heq =>
                    hnodup.1 (heq ▸ List.mem_map_of_mem hmem)
                  simp only [lease, AList.mem_insert, hne, false_or]

/-- A delivery that succeeds hands out what is due, no more and in the order of the record. -/
theorem deliver_delivers {out : List (Inbound M)} {after : Inboxes}
    (hnodup : ((inboxes.journal.record peer).pending.map ReceivedMessage.id).Nodup)
    (h : deliver decode writes peer inboxes = (.ok out, after)) :
    out.map (fun inbound => (inbound.receipt.id, inbound.message)) =
      due decode peer (fun id => decide (id ∈ inboxes.leases))
        (inboxes.journal.record peer).pending := by
  unfold deliver at h
  split at h
  · cases h
  · exact deliverEach_delivers hnodup h

/-- With a journal that can be written, nothing stops a delivery. -/
theorem deliverEach_succeeds (hwrites : ∀ id, writes id = .saved)
    (hkey : publicKey peer = some peer) (rest : List ReceivedMessage)
    (hwritten : now.journal.writeFailed = false) :
    ∃ out after, deliverEach decode writes peer rest delivered now = (.ok out, after) := by
  induction rest generalizing delivered now with
  | nil => exact ⟨_, _, rfl⟩
  | cons resource rest ih =>
      unfold deliverEach
      split
      · exact ih hwritten
      · split
        · exact ih hwritten
        · split
          · obtain ⟨journal, heq, hjournal⟩ :=
              Journal.acknowledge_saved hwritten hkey resource.id
            rw [hwrites, heq]
            exact ih hjournal
          · exact ih hwritten

/-- A delivery succeeds when every write lands, none has failed before, and the records are
those of real peers. -/
theorem deliver_succeeds (decode : String → Option M) (hwrites : ∀ id, writes id = .saved)
    (hwritten : inboxes.journal.writeFailed = false)
    (hkeys : ∀ peer record, inboxes.journal.records.peers.lookup peer = some record →
      publicKey peer = some peer) (peer : String) :
    ∃ out after, deliver decode writes peer inboxes = (.ok out, after) := by
  have hhealthy : inboxes.journal.ensureHealthy = .ok () := by
    unfold Journal.ensureHealthy
    rw [hwritten]
    rfl
  unfold deliver
  rw [hhealthy]
  cases hlook : inboxes.journal.records.peers.lookup peer with
  | none =>
      have hnone : (inboxes.journal.record peer).pending = [] := by
        rw [Journal.record, Records.record, hlook]
        rfl
      rw [hnone]
      exact ⟨_, _, rfl⟩
  | some record => exact deliverEach_succeeds hwrites (hkeys peer record hlook) _ hwritten

end Inboxes

end

end Inbox

end PubkySwap
