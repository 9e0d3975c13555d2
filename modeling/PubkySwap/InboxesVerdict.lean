import PubkySwap.InboxesRun

/-!
# What holds of every run of the inboxes

A run is any order of polls, acknowledgments, registrations and restarts, with the accesses
of several polls to the journal in any order.  `System.Sound` holds of all of them, and the
results follow from it:

- what has been delivered is pending, in memory and on disk, until an acknowledgment is asked
  for (`delivered_pending`);
- after an acknowledgment that has been saved, nothing is delivered again (`handled_once`);
- of the receipts for a resource one at most is held, no other one takes its lease, and only a
  held one keeps the resource from the next poll (`one_holder`, `due_delivered`);
- the journal is within its bounds, and its owner can start from what is on disk
  (`journal_reopens`).
-/

namespace PubkySwap

namespace Inbox

open Outbox (TransportError Write)
open Inboxes

section

variable [ReceiveStates] {M : Type} {decode : String → Option M}

/-! ## The leases and the receipts -/

/-- A lease is held by one receipt, and every held receipt has its lease. -/
structure Inboxes.Leased (receipts : List Held) (inboxes : Inboxes) : Prop where
  distinct : (receipts.map (·.receipt.lease)).Nodup
  numbered : ∀ held ∈ receipts, held.receipt.lease < inboxes.nextLease
  peers : ∀ held ∈ receipts, held.receipt.peer = held.receipt.id.publisher
  held : ∀ held ∈ receipts, held.held = true →
    inboxes.leases.lookup held.receipt.id = some held.receipt.lease
  leases : ∀ id lease, inboxes.leases.lookup id = some lease →
    ∃ held ∈ receipts, held.held = true ∧ held.receipt.id = id ∧ held.receipt.lease = lease

/-- **Leases are exclusive**: they are those of the held receipts; releasing, dropping or
acknowledging another receipt leaves a held one its lease, whatever comes of the
acknowledgment; and a delivery that fails has taken none. -/
structure Inboxes.Exclusive (decode : String → Option M) (receipts : List Held)
    (inboxes : Inboxes) : Prop where
  leased : inboxes.Leased receipts
  released : ∀ (j k : ℕ) (held other : Held), j ≠ k → receipts[j]? = some held →
    receipts[k]? = some other → other.held = true →
    (inboxes.release held.receipt).leases.lookup other.receipt.id = some other.receipt.lease
  acknowledged : ∀ (j k : ℕ) (held other : Held), j ≠ k → receipts[j]? = some held →
    receipts[k]? = some other → other.held = true → ∀ write,
    (inboxes.acknowledge write held.receipt).2.leases.lookup other.receipt.id =
      some other.receipt.lease
  failed : ∀ writes peer e after, inboxes.deliver decode writes peer = (.error e, after) →
    ∀ id, after.leases.lookup id = inboxes.leases.lookup id

/-- After an acknowledgment that has been saved, nothing is delivered. -/
def HandledOnce (log : List (Entry M)) : Prop :=
  log.Pairwise fun earlier later =>
    ∀ id m, earlier = .acknowledged id true → later ≠ .delivered id m

variable {log : List (Entry M)} {inboxes start now : Inboxes} {receipts after : List Held}
  {held : Held} {j : ℕ} {peer : String}

namespace Inboxes

theorem Leased.new (journal : Journal) : Leased [] { journal := journal } where
  distinct := List.nodup_nil
  numbered _ hmem := (List.not_mem_nil hmem).elim
  peers _ hmem := (List.not_mem_nil hmem).elim
  held _ hmem := (List.not_mem_nil hmem).elim
  leases _ _ h := by cases h

/-- Only the leases and the counter matter. -/
theorem Leased.congr (h : Leased receipts start)
    (hleases : ∀ id lease, now.leases.lookup id = some lease ↔ start.leases.lookup id = some lease)
    (hnext : start.nextLease ≤ now.nextLease) : Leased receipts now where
  distinct := h.distinct
  numbered held hmem := (h.numbered held hmem).trans_le hnext
  peers := h.peers
  held held hmem hheld := (hleases _ _).mpr (h.held held hmem hheld)
  leases id lease hlook := h.leases id lease ((hleases id lease).mp hlook)

/-- The deliveries of a poll, with their new leases. -/
theorem Leased.delivered {out : List (Inbound M)} (h : Leased receipts start)
    (hout : Delivering decode log start peer [] out now) :
    Leased (receipts ++ out.map fun inbound => ⟨inbound.receipt, true⟩) now := by
  have hmap : (out.map fun inbound => (⟨inbound.receipt, true⟩ : Held)).map (·.receipt.lease) =
      List.range' start.nextLease out.length := by
    rw [List.map_map]
    exact hout.numbered
  have hnew : ∀ held ∈ out.map fun inbound => (⟨inbound.receipt, true⟩ : Held),
      ∃ inbound ∈ out, held = ⟨inbound.receipt, true⟩ := by
    intro held hmem
    obtain ⟨inbound, hin, rfl⟩ := List.mem_map.mp hmem
    exact ⟨inbound, hin, rfl⟩
  have hrange : ∀ inbound ∈ out, start.nextLease ≤ inbound.receipt.lease ∧
      inbound.receipt.lease < start.nextLease + out.length := by
    intro inbound hmem
    have hlease : inbound.receipt.lease ∈ out.map (·.receipt.lease) := List.mem_map_of_mem hmem
    rw [hout.numbered, List.mem_range'_1] at hlease
    exact hlease
  refine ⟨?_, fun held hmem => ?_, fun held hmem => ?_, fun held hmem hheld => ?_,
    fun id lease hlook => ?_⟩
  · rw [List.map_append, hmap, List.nodup_append]
    refine ⟨h.distinct, List.nodup_range', fun lease hold other hother heq => ?_⟩
    obtain ⟨held, hmem, rfl⟩ := List.mem_map.mp hold
    have hlt := h.numbered held hmem
    have hle := (List.mem_range'_1.mp hother).1
    omega
  · rw [hout.next]
    rcases List.mem_append.mp hmem with hmem | hmem
    · exact (h.numbered held hmem).trans_le (Nat.le_add_right _ _)
    · obtain ⟨inbound, hin, rfl⟩ := hnew held hmem
      exact (hrange inbound hin).2
  · rcases List.mem_append.mp hmem with hmem | hmem
    · exact h.peers held hmem
    · obtain ⟨inbound, hin, rfl⟩ := hnew held hmem
      obtain ⟨hpeer, hpublisher⟩ := hout.peers inbound hin
      exact hpeer.trans hpublisher.symm
  · rw [hout.leases]
    rcases List.mem_append.mp hmem with hmem | hmem
    · exact .inl (h.held held hmem hheld)
    · obtain ⟨inbound, hin, rfl⟩ := hnew held hmem
      exact .inr ⟨inbound, hin, rfl, rfl⟩
  · rcases (hout.leases id lease).mp hlook with hold | ⟨inbound, hmem, rfl, rfl⟩
    · obtain ⟨held, hmem, hheld⟩ := h.leases id lease hold
      exact ⟨held, List.mem_append_left _ hmem, hheld⟩
    · exact ⟨_, List.mem_append_right _ (List.mem_map_of_mem hmem), rfl, rfl, rfl⟩

/-- A lease is that of one receipt. -/
theorem Leased.index_eq (h : Leased receipts inboxes) (hj : receipts[j]? = some held) {k : ℕ}
    {other : Held} (hk : receipts[k]? = some other)
    (hlease : other.receipt.lease = held.receipt.lease) : k = j := by
  obtain ⟨hlt, -⟩ := List.getElem?_eq_some_iff.mp hk
  refine (List.getElem?_inj ?_ h.distinct).mp ?_
  · rw [List.length_map]
    exact hlt
  rw [List.getElem?_map, List.getElem?_map, hk, hj, Option.map_some, Option.map_some, hlease]

/-- Another receipt leaves a held one its lease. -/
theorem Leased.lookup_release (h : Leased receipts inboxes) (hj : receipts[j]? = some held)
    {k : ℕ} {other : Held} (hne : k ≠ j) (hk : receipts[k]? = some other)
    (hlive : other.held = true) :
    (inboxes.release held.receipt).leases.lookup other.receipt.id = some other.receipt.lease :=
  Inboxes.lookup_release.mpr ⟨h.held other (List.mem_of_getElem? hk) hlive, fun heq =>
    hne (h.index_eq hj hk heq.2)⟩

/-- Two held receipts are of two resources. -/
theorem Leased.pairwise (h : Leased receipts inboxes) :
    receipts.Pairwise fun a b =>
      a.held = true → b.held = true → a.receipt.id ≠ b.receipt.id := by
  refine (List.pairwise_map.mp h.distinct).imp_of_mem
    fun {a b} hamem hbmem hne ha hb hid => hne ?_
  have hlook := h.held a hamem ha
  rw [hid, h.held b hbmem hb] at hlook
  exact (Option.some.inj hlook).symm

/-- **Who has leased receipts has exclusive ones.** -/
theorem Leased.exclusive [LawfulReceiveStates] (h : Leased receipts inboxes)
    (hkept : inboxes.journal.Kept decode log)
    (hroom : inboxes.nextLease + maxPendingPerPeer < 2 ^ 64) :
    Exclusive decode receipts inboxes := by
  refine ⟨h, fun j k held other hne hj hk hlive => h.lookup_release hj hne.symm hk hlive,
    fun j k held other hne hj hk hlive write => ?_, fun writes peer e after hfail id => ?_⟩
  · unfold Inboxes.acknowledge
    cases inboxes.journal.acknowledge write held.receipt.peer [held.receipt.id] with
    | mk result journal =>
        have hsame : Leased receipts { inboxes with journal := journal } :=
          h.congr (fun _ _ => Iff.rfl) (Nat.le_refl _)
        cases result with
        | error e => exact hsame.held other (List.mem_of_getElem? hk) hlive
        | ok _ => exact hsame.lookup_release hj hne.symm hk hlive
  · rcases deliver_spec hkept hroom writes peer with
      ⟨out, after', heq, -⟩ | ⟨e', after', heq, habandoned⟩
    · cases hfail.symm.trans heq
    · cases hfail.symm.trans heq
      exact Option.ext fun lease => habandoned.leases id lease

/-- **A lease that is given up**: only that receipt loses it. -/
theorem Leased.giveUp (h : Leased receipts inboxes) (hj : receipts[j]? = some held)
    (hdistinct : (after.map (·.receipt.lease)).Nodup)
    (hall : ∀ other ∈ after, ∃ old ∈ receipts, other.receipt = old.receipt)
    (hheld : ∀ other ∈ after, other.held = true → ∃ k, k ≠ j ∧ receipts[k]? = some other)
    (hother : ∀ k other, k ≠ j → receipts[k]? = some other → other ∈ after) :
    Leased after (inboxes.release held.receipt) := by
  refine ⟨hdistinct, fun other hmem => ?_, fun other hmem => ?_, fun other hmem hlive => ?_,
    fun id lease hlook => ?_⟩
  · obtain ⟨old, hold, heq⟩ := hall other hmem
    rw [release_nextLease, heq]
    exact h.numbered old hold
  · obtain ⟨old, hold, heq⟩ := hall other hmem
    rw [heq]
    exact h.peers old hold
  · obtain ⟨k, hk, hold⟩ := hheld other hmem hlive
    exact h.lookup_release hj hk hold hlive
  · obtain ⟨hold, hnot⟩ := Inboxes.lookup_release.mp hlook
    obtain ⟨other, hmem, hlive, rfl, rfl⟩ := h.leases id lease hold
    obtain ⟨k, hk⟩ := List.mem_iff_getElem?.mp hmem
    refine ⟨other, hother k other (fun heq => hnot ?_) hk, hlive, rfl, rfl⟩
    rw [heq, hj] at hk
    cases hk
    exact ⟨rfl, rfl⟩

theorem Leased.released (h : Leased receipts inboxes) (hj : receipts[j]? = some held) :
    Leased (receipts.set j { held with held := false }) (inboxes.release held.receipt) := by
  refine h.giveUp hj ?_ (fun other hmem => ?_) (fun other hmem hlive => ?_)
    fun k other hk hold => ?_
  · have hset : (receipts.set j { held with held := false }).map (·.receipt.lease) =
        receipts.map (·.receipt.lease) := by
      rw [List.map_set]
      refine List.ext_getElem? fun k => ?_
      rw [List.getElem?_set]
      split
      · subst_vars
        split
        · rw [List.getElem?_map, hj]
          rfl
        · rw [List.getElem?_eq_none (by omega)]
      · rfl
    rw [hset]
    exact h.distinct
  · rcases List.mem_or_eq_of_mem_set hmem with hmem | rfl
    · exact ⟨other, hmem, rfl⟩
    · exact ⟨held, List.mem_of_getElem? hj, rfl⟩
  · obtain ⟨k, hk⟩ := List.mem_iff_getElem?.mp hmem
    by_cases heq : j = k
    · subst heq
      obtain ⟨hlt, -⟩ := List.getElem?_eq_some_iff.mp hj
      rw [List.getElem?_set_self hlt] at hk
      cases hk
      cases hlive
    · rw [List.getElem?_set_ne heq] at hk
      exact ⟨k, Ne.symm heq, hk⟩
  · refine List.mem_of_getElem? (i := k) ?_
    rw [List.getElem?_set_ne hk.symm]
    exact hold

theorem Leased.dropped (h : Leased receipts inboxes) (hj : receipts[j]? = some held) :
    Leased (receipts.eraseIdx j) (inboxes.release held.receipt) := by
  refine h.giveUp hj ?_ (fun other hmem => ?_) (fun other hmem _ => ?_) fun k other hk hold => ?_
  · exact h.distinct.sublist ((List.eraseIdx_sublist _ _).map _)
  · exact ⟨other, List.mem_of_mem_eraseIdx hmem, rfl⟩
  · exact List.mem_eraseIdx_iff_getElem?.mp hmem
  · exact List.mem_eraseIdx_iff_getElem?.mpr ⟨k, hk, hold⟩

end Inboxes

/-! ## One step -/

namespace System

/-- What a stopped process has left behind. -/
structure Left (decode : String → Option M) (system : System M) : Prop where
  receipts : system.receipts = []
  file : system.inboxes.journal.file = none ∧ system.log = [] ∨
    ∃ records, system.inboxes.journal.file = some records ∧ records.Tracks decode system.log

/-- **The invariant**: the journal accounts for what has happened, and the leases are those of
the receipts. -/
structure Sound (decode : String → Option M) (system : System M) : Prop where
  down : system.running = false → system.Left decode
  up : system.running = true →
    system.inboxes.journal.Kept decode system.log ∧ system.inboxes.Leased system.receipts
  once : HandledOnce system.log

variable {system : System M}

theorem sound_initial : (initial : System M).Sound decode where
  down _ := ⟨rfl, .inl ⟨rfl, rfl⟩⟩
  up h := by cases h
  once := List.Pairwise.nil

/-- A process that goes on, with another journal, and other polls. -/
theorem Sound.journal (h : system.Sound decode) (hrunning : system.running = true)
    {journal : Journal} (hkept : journal.Kept decode system.log) (reads : List (Read M)) :
    { system with
      reads := reads, inboxes := { system.inboxes with journal := journal } }.Sound decode where
  down hfalse := by
    rw [show system.running = false from hfalse] at hrunning
    cases hrunning
  up _ := ⟨hkept, (h.up hrunning).2.congr (fun _ _ => Iff.rfl) (Nat.le_refl _)⟩
  once := h.once

theorem Sound.reads (h : system.Sound decode) (reads : List (Read M)) :
    { system with reads := reads }.Sound decode :=
  ⟨fun hdown => ⟨(h.down hdown).receipts, (h.down hdown).file⟩, h.up, h.once⟩

/-- **A process that is started** has what the last one left. -/
theorem sound_start (h : system.Sound decode) (hdown : system.running = false) (write : Write)
    (owner : String) : (system.start write owner).Sound decode := by
  obtain ⟨hreceipts, hfile⟩ := h.down hdown
  have hstays : ∀ file, (file = none ∧ system.log = [] ∨
      ∃ records, file = some records ∧ records.Tracks decode system.log) →
      { system with inboxes := { system.inboxes with
          journal := { system.inboxes.journal with file := file } } }.Sound decode := by
    intro file hfile
    refine ⟨fun _ => ⟨hreceipts, hfile⟩, fun hrunning => ?_, h.once⟩
    rw [show system.running = true from hrunning] at hdown
    cases hdown
  have hstarts : ∀ records, records.Tracks decode system.log →
      { system with
        running := true
        inboxes := { journal := ⟨records, false, some records⟩ } }.Sound decode := by
    intro records htracks
    refine ⟨fun hfalse => ?_, fun _ => ⟨?_, ?_⟩, h.once⟩
    · cases hfalse
    · exact ⟨htracks, records, rfl, htracks, fun _ => rfl⟩
    · rw [show system.receipts = [] from hreceipts]
      exact .new _
  unfold System.start Journal.openJournal
  cases hcanonical : canonicalPubky owner with
  | error e => exact hstays _ hfile
  | ok _ =>
      dsimp only
      cases hleft : system.inboxes.journal.file with
      | some records =>
          dsimp only
          rw [hleft] at hfile
          have htracks : records.Tracks decode system.log := by
            rcases hfile with ⟨hnone, -⟩ | ⟨other, hsome, htracks⟩
            · cases hnone
            · cases hsome
              exact htracks
          cases validate owner records with
          | error e => exact hstays _ (.inr ⟨records, rfl, htracks⟩)
          | ok _ => exact hstarts records htracks
      | none =>
          dsimp only
          rw [hleft] at hfile
          have hlog : system.log = [] := by
            rcases hfile with ⟨-, hlog⟩ | ⟨_, hsome, -⟩
            · exact hlog
            · cases hsome
          have htracks : ({ owner := some owner } : Records).Tracks decode system.log := by
            rw [hlog]
            exact .new (publicKey_of_canonicalPubky hcanonical)
          cases write with
          | lost => exact hstays none hfile
          | unsynced => exact hstays _ (.inr ⟨_, rfl, htracks⟩)
          | saved =>
              dsimp only [persist]
              cases validate owner { owner := some owner } with
              | error e => exact hstays _ (.inr ⟨_, rfl, htracks⟩)
              | ok _ => exact hstarts _ htracks

/-- More has happened, and a lease was given or taken. -/
theorem Sound.happen {next : System M} {more : List (Entry M)} (h : system.Sound decode)
    (hrunning : next.running = true) (hlog : next.log = system.log ++ more)
    (hkept : next.inboxes.journal.Kept decode (system.log ++ more))
    (hleased : next.inboxes.Leased next.receipts)
    (hafter : ∀ entry ∈ more, ∀ id m,
      .acknowledged id true ∈ system.log → entry ≠ .delivered id m)
    (hmore : HandledOnce more) : next.Sound decode where
  down hfalse := by
    rw [hrunning] at hfalse
    cases hfalse
  up _ := by
    rw [hlog]
    exact ⟨hkept, hleased⟩
  once := by
    rw [hlog]
    refine List.pairwise_append.mpr
      ⟨h.once, hmore, fun earlier hearlier later hlater id m heq => ?_⟩
    subst heq
    exact hafter later hlater id m hearlier

/-- **A poll that returns**: nothing that it hands out has been handled. -/
theorem Sound.hand [LawfulReceiveStates] {out : List (Inbound M)} (h : system.Sound decode)
    (hrunning : system.running = true) (reads : List (Read M))
    (hout : Delivering decode system.log system.inboxes peer [] out now) :
    (({ system with inboxes := now, reads := reads } : System M).hand out).Sound decode := by
  refine h.happen hrunning rfl ?_ ((h.up hrunning).2.delivered hout)
    (fun entry hmem id m hhandled heq => ?_) ?_
  · refine Journal.Healthy.kept ⟨hout.healthy.written, hout.healthy.file, ?_⟩
    exact hout.healthy.tracks.delivered hout.deliverable
  · obtain ⟨inbound, hin, rfl⟩ := List.mem_map.mp hmem
    cases heq
    exact hout.healthy.tracks.not_deliverable hhandled (hout.deliverable inbound hin)
  · rw [HandledOnce, List.pairwise_map]
    exact List.pairwise_of_forall fun _ _ _ _ hfalse => by cases hfalse

/-- A delivery that has failed. -/
theorem Sound.abandoned (h : system.Sound decode) (hrunning : system.running = true)
    (reads : List (Read M)) (hnow : Abandoned decode system.log system.inboxes now) :
    { system with inboxes := now, reads := reads }.Sound decode where
  down hfalse := by
    rw [show system.running = false from hfalse] at hrunning
    cases hrunning
  up _ := ⟨hnow.kept, (h.up hrunning).2.congr hnow.leases hnow.next⟩
  once := h.once

/-- **One access of a poll** to the journal. -/
theorem Sound.advance [LawfulReceiveStates] (h : system.Sound decode)
    (hrunning : system.running = true)
    (hroom : system.inboxes.nextLease + maxPendingPerPeer < 2 ^ 64) (i : ℕ) (read : Read M)
    (answers : Answers) :
    (system.advance decode i read answers).Sound decode := by
  have hkept := (h.up hrunning).1
  unfold System.advance
  split
  · split
    · rcases deliver_spec hkept hroom answers.writes read.peer with
        ⟨out, after, heq, hout⟩ | ⟨e, after, heq, hnow⟩
      · rw [heq]
        dsimp only
        cases out with
        | nil => exact h.abandoned hrunning _ hout.empty
        | cons inbound rest => exact h.hand hrunning _ hout
      · rw [heq]
        exact h.abandoned hrunning _ hnow
    · exact h
  · dsimp only
    split <;> exact h.reads _
  · split
    · exact h.reads _
    · split
      · split <;> exact h.reads _
      · exact h.reads _
  · split
    · exact h.reads _
    case h_2 retrieval _ =>
        have hafter : (system.inboxes.journal.remember answers.write read.peer
            retrieval.messages).2.Kept decode system.log :=
          hkept.steps fun owner hsound => Journal.remember_steps hsound _ _
        dsimp only
        split <;> exact h.journal hrunning hafter _
  · rcases deliver_spec hkept hroom answers.writes read.peer with
      ⟨out, after, heq, hout⟩ | ⟨e, after, heq, hnow⟩
    · rw [heq]
      dsimp only
      split
      case isTrue hempty =>
          obtain rfl := List.isEmpty_iff.mp hempty.1
          exact h.abandoned hrunning _ hout.empty
      case isFalse => exact h.hand hrunning _ hout
    · rw [heq]
      exact h.abandoned hrunning _ hnow
  · exact h
  · exact h

/-- **A receipt that is acknowledged** keeps its lease until that is saved. -/
theorem Sound.acknowledge [LawfulReceiveStates] (h : system.Sound decode)
    (hrunning : system.running = true) (hj : system.receipts[j]? = some held) (write : Write) :
    (system.acknowledge j held write).Sound decode := by
  obtain ⟨hkept, hleased⟩ := h.up hrunning
  have hacknowledged := hkept.acknowledge write held.receipt.id
  rw [← hleased.peers held (List.mem_of_getElem? hj)] at hacknowledged
  have hafter : ∀ saved, ∀ entry ∈ [Entry.acknowledged held.receipt.id saved],
      ∀ id (m : M), .acknowledged id true ∈ system.log → entry ≠ .delivered id m := by
    intro saved entry hmem id m _ heq
    rw [List.mem_singleton.mp hmem] at heq
    cases heq
  unfold System.acknowledge Inboxes.acknowledge
  cases hcall : system.inboxes.journal.acknowledge write held.receipt.peer [held.receipt.id] with
  | mk result journal =>
      rw [hcall] at hacknowledged
      cases result with
      | error e =>
          refine h.happen hrunning rfl hacknowledged ?_ (hafter false) (List.pairwise_singleton _ _)
          exact hleased.congr (fun _ _ => Iff.rfl) (Nat.le_refl _)
      | ok _ =>
          refine h.happen hrunning rfl ?_ ?_ (hafter true) (List.pairwise_singleton _ _)
          · dsimp only
            rw [release_journal]
            exact hacknowledged
          · have hsame : { system.inboxes with journal := journal }.Leased system.receipts :=
              hleased.congr (fun _ _ => Iff.rfl) (Nat.le_refl _)
            exact hsame.released hj

/-- A process that has been stopped, or has gone down. -/
theorem Sound.stop (h : system.Sound decode) : system.stop.Sound decode := by
  refine ⟨fun _ => ⟨rfl, ?_⟩, nofun, h.once⟩
  cases hrunning : system.running with
  | false => exact (h.down hrunning).file
  | true =>
      obtain ⟨records, hfile, htracks, -⟩ := (h.up hrunning).1.file
      exact .inr ⟨records, hfile, htracks⟩

/-- **Whatever happens**, the invariant is kept, if no number of a lease comes round. -/
theorem Sound.act [LawfulReceiveStates] (h : system.Sound decode)
    (hroom : system.running = true → system.inboxes.nextLease + maxPendingPerPeer < 2 ^ 64)
    (event : Event) : (system.act decode event).Sound decode := by
  unfold System.act
  by_cases hrunning : system.running = true
  · rw [if_pos hrunning]
    obtain ⟨hkept, hleased⟩ := h.up hrunning
    have hroom := hroom hrunning
    -- a step of a process that runs: what its journal and its leases have to be
    have hlive : ∀ (inboxes : Inboxes) (receipts : List Held),
        inboxes.journal.Kept decode system.log → inboxes.Leased receipts →
        { system with inboxes := inboxes, receipts := receipts }.Sound decode := by
      intro inboxes receipts hkept hleased
      refine ⟨fun hfalse => ?_, fun _ => ⟨hkept, hleased⟩, h.once⟩
      exact absurd hrunning (Bool.not_eq_true _ ▸ hfalse)
    cases event with
    | start write owner => exact h
    | crash => exact h.stop
    | register write peer pinned =>
        exact h.journal hrunning (hkept.steps fun owner hsound =>
          Journal.register_steps hsound write pinned) _
    | evict write peer =>
        dsimp only
        split
        · exact h
        · exact h.journal hrunning (hkept.steps fun owner hsound =>
            Journal.unregister_steps hsound write) _
    | poll own peer requireRegistered => exact h.reads _
    | advance i answers =>
        dsimp only
        split
        · exact h
        · exact h.advance hrunning hroom i _ answers
    | cancel i =>
        dsimp only
        split
        · exact h
        · unfold System.cancel
          split <;> exact h.reads _
    | acknowledge j write =>
        dsimp only
        split
        · exact h
        case h_2 held hj => exact h.acknowledge hrunning hj write
    | release j =>
        dsimp only
        split
        · exact h
        case h_2 held hj =>
            refine hlive _ _ ?_ (hleased.released hj)
            rw [release_journal]
            exact hkept
    | drop j =>
        dsimp only
        split
        · exact h
        case h_2 held hj =>
            refine hlive _ _ ?_ (hleased.dropped hj)
            rw [release_journal]
            exact hkept
  · rw [if_neg hrunning]
    cases event with
    -- with no process, only a start does anything
    | start write owner => exact sound_start h (Bool.not_eq_true _ ▸ hrunning) write owner
    | _ => exact h

/-- What holds of a process that is followed. -/
structure Followed (decode : String → Option M) (system : System M) : Prop where
  sound : system.Sound decode
  room : system.running = true → system.inboxes.nextLease + maxPendingPerPeer < 2 ^ 64

/-- **Every step** keeps the invariant. -/
theorem Followed.step [LawfulReceiveStates] (h : system.Followed decode) (event : Event) :
    (system.step decode event).Followed decode := by
  have hnext := h.sound.act h.room event
  unfold System.step
  dsimp only
  split
  case isTrue hroomy => exact ⟨hnext, fun _ => of_decide_eq_true hroomy⟩
  case isFalse => exact ⟨hnext.stop, fun hfalse => by cases hfalse⟩

/-- **Every run** does. -/
theorem Followed.run [LawfulReceiveStates] (h : system.Followed decode) (events : List Event) :
    (system.run decode events).Followed decode := by
  induction events generalizing system with
  | nil => exact h
  | cons event events ih => exact ih (h.step event)

/-- A process after these events, from before its first start. -/
def reached (decode : String → Option M) (events : List Event) : System M :=
  (initial : System M).run decode events

theorem followed_reached [LawfulReceiveStates] (decode : String → Option M)
    (events : List Event) : (reached decode events).Followed decode :=
  Followed.run ⟨sound_initial, fun hfalse => by cases hfalse⟩ events

theorem sound_reached [LawfulReceiveStates] (decode : String → Option M) (events : List Event) :
    (reached decode events).Sound decode :=
  (followed_reached decode events).sound

/-! ## The results -/

section

variable [LawfulReceiveStates]

/-- **Nothing is lost.**  What has been delivered is pending on disk, and in the memory of a
process that runs, until an acknowledgment is asked for: with a body that is decoded as the
message that was delivered. -/
theorem delivered_pending (decode : String → Option M) (events : List Event) (id : MessageId)
    (m : M) (hdelivered : .delivered id m ∈ (reached decode events).log)
    (hnever : ∀ saved, .acknowledged id saved ∉ (reached decode events).log) :
    (∃ records, (reached decode events).inboxes.journal.file = some records ∧
        records.Deliverable decode id m) ∧
      ((reached decode events).running = true →
        (reached decode events).inboxes.journal.records.Deliverable decode id m) := by
  have h := sound_reached decode events
  have hpending : ∀ records : Records, records.Tracks decode (reached decode events).log →
      records.Deliverable decode id m := by
    intro records htracks
    refine (htracks.kept id m hdelivered).resolve_left ?_
    rintro ⟨saved, hasked⟩
    exact hnever saved hasked
  cases hrunning : (reached decode events).running with
  | false =>
      rcases (h.down hrunning).file with ⟨-, hlog⟩ | ⟨records, hfile, htracks⟩
      · rw [hlog] at hdelivered
        exact (List.not_mem_nil hdelivered).elim
      · exact ⟨⟨records, hfile, hpending records htracks⟩, fun hfalse => by cases hfalse⟩
  | true =>
      obtain ⟨records, hfile, htracks, -⟩ := (h.up hrunning).1.file
      exact ⟨⟨records, hfile, hpending records htracks⟩,
        fun _ => hpending _ (h.up hrunning).1.memory⟩

/-- **Nothing is handled twice.**  After an acknowledgment that has been saved, the resource
is not delivered again, by this process or any that follows. -/
theorem handled_once (decode : String → Option M) (events : List Event) (id : MessageId)
    (before after : List (Entry M))
    (hlog : (reached decode events).log = before ++ .acknowledged id true :: after) (m : M) :
    .delivered id m ∉ after := by
  have honce := (sound_reached decode events).once
  rw [HandledOnce, hlog, List.pairwise_append, List.pairwise_cons] at honce
  exact fun hmem => honce.2.1.1 _ hmem id m rfl rfl

/-- **A lease has one holder.**  Of the receipts for a resource at most one is held, and in a
process that runs the leases are exactly those of the held receipts; what happens to another
receipt takes none of them, and a delivery that fails leaves them as they were. -/
theorem one_holder (decode : String → Option M) (events : List Event) :
    ((reached decode events).receipts.Pairwise fun a b =>
        a.held = true → b.held = true → a.receipt.id ≠ b.receipt.id) ∧
      ((reached decode events).running = true →
        (reached decode events).inboxes.Exclusive decode (reached decode events).receipts) := by
  have h := sound_reached decode events
  refine ⟨?_, fun hrunning => ?_⟩
  · cases hrunning : (reached decode events).running with
    | false =>
        rw [(h.down hrunning).receipts]
        exact List.Pairwise.nil
    | true => exact (h.up hrunning).2.pairwise
  · obtain ⟨hkept, hleased⟩ := h.up hrunning
    exact hleased.exclusive hkept ((followed_reached decode events).room hrunning)

/-- **Nothing is stuck.**  While the journal can be written, a delivery hands out all of the
peer's acceptable messages that no receipt holds, in the order in which they came. -/
theorem due_delivered (decode : String → Option M) (events : List Event) (peer : String)
    (writes : MessageId → Write) (hrunning : (reached decode events).running = true)
    (hwritten : (reached decode events).inboxes.journal.writeFailed = false)
    (hwrites : ∀ id, writes id = .saved) :
    ∃ out after, (reached decode events).inboxes.deliver decode writes peer = (.ok out, after) ∧
      out.map (fun inbound => (inbound.receipt.id, inbound.message)) =
        due decode peer
          (fun id => (reached decode events).receipts.any fun held =>
            held.held && held.receipt.id == id)
          ((reached decode events).inboxes.journal.record peer).pending := by
  obtain ⟨hkept, hleased⟩ := (sound_reached decode events).up hrunning
  obtain ⟨owner, -, hsound⟩ := hkept.memory.sound
  obtain ⟨out, after, heq⟩ := deliver_succeeds decode hwrites hwritten
    (fun peer record hlook => (hsound.peers peer record hlook).1) peer
  refine ⟨out, after, heq, (deliver_delivers (hsound.record peer).nodup heq).trans ?_⟩
  refine due_congr fun resource _ => ?_
  rw [Bool.eq_iff_iff, decide_eq_true_iff, List.any_eq_true, AList.mem_iff_lookup]
  constructor
  · rintro ⟨lease, hlook⟩
    obtain ⟨held, hmem, hheld, hid, -⟩ := hleased.leases _ lease hlook
    exact ⟨held, hmem, by rw [hheld, hid, beq_self_eq_true]; rfl⟩
  · rintro ⟨held, hmem, hboth⟩
    rw [Bool.and_eq_true, beq_iff_eq] at hboth
    exact ⟨_, hboth.2 ▸ hleased.held held hmem hboth.1⟩

/-- **The journal is within its bounds**, whatever writes have failed, and opens again for its
owner, with everything in it, and for nobody else. -/
theorem journal_reopens (decode : String → Option M) (events : List Event) :
    (reached decode events).inboxes.journal.file = none ∧ (reached decode events).log = [] ∨
      ∃ records owner, (reached decode events).inboxes.journal.file = some records ∧
        records.Sound owner ∧ ∀ write other,
          if other = owner then
            Journal.openJournal write other (some records) =
              (.ok ⟨records, false, some records⟩, some records)
          else
            ∃ e, Journal.openJournal write other (some records) = (.error e, some records) := by
  have h := sound_reached decode events
  have hleft : (reached decode events).inboxes.journal.file = none ∧
      (reached decode events).log = [] ∨
      ∃ records, (reached decode events).inboxes.journal.file = some records ∧
        records.Tracks decode (reached decode events).log := by
    cases hrunning : (reached decode events).running with
    | false => exact (h.down hrunning).file
    | true =>
        obtain ⟨records, hfile, htracks, -⟩ := (h.up hrunning).1.file
        exact .inr ⟨records, hfile, htracks⟩
  refine hleft.imp_right ?_
  rintro ⟨records, hfile, htracks⟩
  obtain ⟨owner, howner, hsound⟩ := htracks.sound
  refine ⟨records, owner, hfile, hsound, fun write other => ?_⟩
  unfold Journal.openJournal
  split
  case isTrue heq =>
      subst heq
      have hcanonical : canonicalPubky other = .ok () := by
        rw [canonicalPubky, howner]
        exact if_neg (not_not_intro rfl)
      rw [hcanonical]
      dsimp only
      rw [validate_of_sound hsound]
      rfl
  case isFalse hne =>
      cases canonicalPubky other with
      | error e => exact ⟨e, rfl⟩
      | ok _ =>
          have hother : validate other records =
              .error (Outbox.invalid "receive journal belongs to another identity") := by
            rw [validate, if_neg (not_not_intro hsound.version), hsound.owner,
              if_pos fun heq => hne (Option.some.inj heq).symm]
          dsimp only
          rw [hother]
          exact ⟨_, rfl⟩

end

end System

end

/-! ## Two messages, a failed write and a restart -/

namespace TwoMessages

/-- What has been acknowledged, as a list. -/
@[reducible] def receiveStates : ReceiveStates where
  ReceiveState := List MessageId
  nothing := []
  isAcknowledged state id := decide (id ∈ state)
  acknowledge state message := message.id :: state
  publicKey key :=
    if key = "q9x5sfjbpajdebk45b9jashgb86iem7rnwpmu16px3ens63xzwro" ∨
        key = "8pinxxgqs41n4aididenw5apqp1urfmzdztr8jt4abrkdn435ewo" then some key
    else none

local instance : ReceiveStates := receiveStates

local instance : LawfulReceiveStates where
  isAcknowledged_nothing _ := rfl
  isAcknowledged_acknowledge state message id := by
    show decide (id ∈ message.id :: state) = _
    rw [Bool.eq_iff_iff, decide_eq_true_iff, List.mem_cons, Bool.or_eq_true, beq_iff_eq]
    exact or_congr_right decide_eq_true_iff.symm

def owner : String := "q9x5sfjbpajdebk45b9jashgb86iem7rnwpmu16px3ens63xzwro"

def peer : String := "8pinxxgqs41n4aididenw5apqp1urfmzdztr8jt4abrkdn435ewo"

def idOf (name : String) : MessageId := ⟨peer, name⟩

def message (name : String) : ReceivedMessage := ⟨idOf name, some ⟨peer, name, true⟩, none, false⟩

/-- Both are found, and retrieved. -/
def answers : Answers where
  discovered := .ok ⟨[idOf "1", idOf "2"], false⟩
  retrieved := .ok ⟨[message "1", message "2"], false⟩
  write := .saved
  writes _ := .saved

/-- The first poll of a new process. -/
def polled : List Event :=
  .start .saved owner :: .poll owner peer false :: List.replicate 5 (.advance 0 answers)

/-- The first message is acknowledged, the second one too, but the write fails; the process
is restarted, and polls again. -/
def restarted : List Event :=
  polled ++ [.acknowledge 0 .saved, .acknowledge 1 .lost, .crash, .start .saved owner,
    .poll owner peer false, .advance 0 answers]

theorem delivered_pending_polled :
    (∃ records,
        (System.reached (some : String → Option String) polled).inboxes.journal.file =
            some records ∧ records.Deliverable (some : String → Option String) (idOf "1") "1") ∧
      ((System.reached (some : String → Option String) polled).running = true →
        (System.reached (some : String → Option String) polled).inboxes.journal.records.Deliverable
          (some : String → Option String) (idOf "1") "1") :=
  System.delivered_pending _ polled (idOf "1") "1" (by decide +kernel) (by decide +kernel)

theorem handled_once_restarted :
    .delivered (idOf "1") "1" ∉
      [Entry.acknowledged (idOf "2") false, .delivered (idOf "2") "2"] :=
  System.handled_once (some : String → Option String) restarted (idOf "1")
    [.delivered (idOf "1") "1", .delivered (idOf "2") "2"]
    [.acknowledged (idOf "2") false, .delivered (idOf "2") "2"] (by decide +kernel) "1"

/-- The first message is released and delivered again: there are two receipts for it. -/
def redelivered : List Event := polled ++ [.release 0, .poll owner peer false, .advance 1 answers]

/-- **The older receipt takes nothing**: dropped, it leaves the newer one its lease. -/
theorem one_holder_redelivered :
    ((System.reached (some : String → Option String) redelivered).inboxes.release
        ⟨peer, idOf "1", 0⟩).leases.lookup (idOf "1") = some 2 :=
  ((System.one_holder (some : String → Option String) redelivered).2
    (by decide +kernel)).released 0 2 ⟨⟨peer, idOf "1", 0⟩, false⟩ ⟨⟨peer, idOf "1", 2⟩, true⟩
      (by decide) (by decide +kernel) (by decide +kernel) rfl

/-- The first receipt is released; the second one is still held. -/
theorem due_delivered_polled :
    ∃ out after, (System.reached (some : String → Option String)
        (polled ++ [.release 0])).inboxes.deliver some (fun _ => .saved) peer = (.ok out, after) ∧
      out.map (fun inbound => (inbound.receipt.id, inbound.message)) = [(idOf "1", "1")] := by
  obtain ⟨out, after, heq, hout⟩ := System.due_delivered (some : String → Option String)
    (polled ++ [.release 0]) peer (fun _ => .saved) (by decide +kernel) (by decide +kernel)
    fun _ => rfl
  exact ⟨out, after, heq, hout.trans (by decide +kernel)⟩

/-- The write that was lost leaves a journal that opens. -/
theorem journal_reopens_restarted :
    ∃ records owner,
      (System.reached (some : String → Option String) restarted).inboxes.journal.file =
          some records ∧ records.Sound owner ∧ ∀ write other,
        if other = owner then
          Journal.openJournal write other (some records) =
            (.ok ⟨records, false, some records⟩, some records)
        else ∃ e, Journal.openJournal write other (some records) = (.error e, some records) := by
  refine (System.journal_reopens (some : String → Option String) restarted).resolve_left ?_
  rintro ⟨-, hlog⟩
  revert hlog
  decide +kernel

end TwoMessages

end Inbox

end PubkySwap
