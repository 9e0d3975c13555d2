import PubkySwap.Deliveries
import PubkySwap.OutboxJournal

/-!
# What deliveries keep

What is stored on the homeserver is recorded in the journal, in memory and on disk, so that
it can be found and deleted after any crash; and what the journal has as published, with no
deadline, is stored.  Both hold through every interleaving of requests, calls and restarts
(`Depot.Sound`): a resource is recorded before its first request, and forgotten only after
its deletion has had its effect; and a scope that is reopened while a deletion is under way
has its messages unpublished.

What a call may make of one entry is said once (`Op.Alters`).
-/

namespace PubkySwap

open Messenger (PreparedMessage)

namespace Outbox

section

variable [Messenger]

/-! ## What a call makes of an entry -/

/-- The entry, after a call. -/
structure Op.Alters (op : Op) (entry after : Entry) : Prop where
  core : after.core = entry.core
  published : after.published = true → entry.published = true ∨ op = .markPublished entry.id
  reopened : after.published = true → after.cleanupAfter = none → entry.cleanupAfter = none
  completed : entry.cleanupAfter = none → after.cleanupAfter = none ∨
    (∃ eligibleAfter, op = .completeScope entry.peer entry.scope eligibleAfter) ∨
      ∃ content eligibleAfter prepared,
        op = .prepare entry.peer entry.scope content (some eligibleAfter) prepared

/-- A call alters nothing of most entries. -/
theorem Op.Alters.refl (op : Op) (entry : Entry) : op.Alters entry entry :=
  ⟨rfl, .inl, fun _ h => h, .inl⟩

/-- A change that leaves alone what matters here. -/
theorem Op.Alters.of_eq {op : Op} {entry after : Entry} (hcore : after.core = entry.core)
    (hpublished : after.published = entry.published)
    (hcleanup : after.cleanupAfter = entry.cleanupAfter) : op.Alters entry after := by
  refine ⟨hcore, fun h => .inl ?_, fun _ h => ?_, fun h => .inl ?_⟩
  · rwa [← hpublished]
  · rwa [← hcleanup]
  · rwa [hcleanup]

/-- A change of the first entry that matches leaves the others. -/
theorem mem_changeFirst {p : Entry → Bool} {f : Entry → Entry} {entries : List Entry}
    {found entry : Entry} (hfind : entries.find? p = some found)
    (h : entry ∈ changeFirst p f entries) : entry ∈ entries ∨ entry = f found := by
  obtain ⟨before, rest, hentries, hchanged⟩ := changeFirst_of_find? (f := f) hfind
  rw [hchanged, List.mem_append, List.mem_cons] at h
  rw [hentries, List.mem_append, List.mem_cons]
  rcases h with h | rfl | h
  · exact .inl (.inl h)
  · exact .inr rfl
  · exact .inl (.inr (.inr h))

/-- A call that changes the entry with an id alters of it what its own change does, and
nothing else. -/
theorem alters_changeEntry {op : Op} {id : String}
    {f : Entry → Except TransportError (Entry × Bool)} {journal after : Journal} {changed : Bool}
    (hf : ∀ entry after changed, entry.id = id → f entry = .ok (after, changed) →
      op.Alters entry after)
    (h : changeEntry id f journal = .ok ((), after, changed)) :
    ∀ entry ∈ after.entries, ∃ old ∈ journal.entries, op.Alters old entry := by
  intro entry hentry
  unfold changeEntry at h
  cases hfind : journal.entries.find? fun entry => entry.id == id with
  | none => simp [hfind] at h
  | some found =>
      simp only [hfind] at h
      cases hresult : f found with
      | error e => simp [hresult, Except.map] at h
      | ok result =>
          rw [hresult] at h
          cases h
          rcases mem_changeFirst hfind hentry with hmem | rfl
          · exact ⟨entry, hmem, .refl op entry⟩
          · have hid : found.id = id := by simpa using List.find?_some hfind
            exact ⟨found, List.mem_of_find?_eq_some hfind, hf found _ _ hid hresult⟩

/-- The same of a call that changes every entry that matches. -/
theorem alters_changeAll {op : Op} {p : Entry → Bool} {f : Entry → Entry}
    {journal after : Journal} {changed : Bool}
    (hf : ∀ entry, p entry = true → op.Alters entry (f entry))
    (h : changeAll p f journal = .ok ((), after, changed)) :
    ∀ entry ∈ after.entries, ∃ old ∈ journal.entries, op.Alters old entry := by
  intro entry hentry
  cases h
  obtain ⟨old, hold, rfl⟩ := List.mem_map.mp hentry
  refine ⟨old, hold, ?_⟩
  split
  · exact hf old ‹_›
  · exact .refl op old

/-- What every call but a new reservation makes of the entries that it leaves. -/
theorem alters_of_unanswered {op : Op} {journal after : Journal} {changed : Bool}
    {answer : Option PreparedMessage}
    {change : Journal → Except TransportError (Unit × Journal × Bool)}
    (hchange : ∀ after changed, change journal = .ok ((), after, changed) →
      ∀ entry ∈ after.entries, ∃ old ∈ journal.entries, op.Alters old entry)
    (h : unanswered change journal = .ok (answer, after, changed)) :
    ∀ entry ∈ after.entries, ∃ old ∈ journal.entries, op.Alters old entry := by
  unfold unanswered at h
  cases hresult : change journal with
  | error e => simp [hresult, Except.map] at h
  | ok result =>
      rw [hresult] at h
      cases h
      exact hchange _ _ hresult

/-- A reservation: the entries are as they were but for the one that reserves this content,
which may get its first deadline; or there is none, and a new one is added. -/
theorem alters_reserve {peer scope content : String} {eligibleAfter : Option UInt64}
    {prepared : Option PreparedMessage} {journal after : Journal} {message : PreparedMessage}
    {changed : Bool} (h : reserve peer scope (Messenger.contentHash content) eligibleAfter prepared
      journal = .ok (message, after, changed)) :
    ∀ entry ∈ after.entries,
      (∃ old ∈ journal.entries,
        Op.Alters (.prepare peer scope content eligibleAfter prepared) old entry) ∨
      ∃ message, prepared = some message ∧
        entry = .new peer scope (Messenger.contentHash content) eligibleAfter message := by
  intro entry hentry
  cases hfind : journal.entries.find?
      (Entry.reserves peer scope (Messenger.contentHash content)) with
  | none =>
      obtain ⟨rfl, -, rfl, -⟩ := (reserve_new hfind).mp h
      rcases List.mem_append.mp hentry with hmem | hmem
      · exact .inl ⟨entry, hmem, .refl _ _⟩
      · exact .inr ⟨_, rfl, List.mem_singleton.mp hmem⟩
  | some found =>
      have hfound := List.find?_some hfind
      simp only [Entry.reserves, Bool.and_eq_true, beq_iff_eq] at hfound
      obtain ⟨⟨rfl, rfl⟩, -⟩ := hfound
      simp only [reserve, hfind] at h
      split at h
      case isTrue hfills =>
          cases h
          rcases mem_changeFirst hfind hentry with hmem | rfl
          · exact .inl ⟨entry, hmem, .refl _ _⟩
          · rw [Bool.and_eq_true, Option.isNone_iff_eq_none] at hfills
            refine .inl ⟨found, List.mem_of_find?_eq_some hfind, rfl, .inl,
              fun _ _ => hfills.1, fun _ => ?_⟩
            cases eligibleAfter with
            | none => exact .inl rfl
            | some eligibleAfter => exact .inr (.inr ⟨_, _, _, rfl⟩)
      case isFalse =>
          cases h
          exact .inl ⟨entry, hentry, .refl _ _⟩

/-- **What a call makes of the entries**: each is an old one, altered, or the new
reservation. -/
theorem alters_of_change {op : Op} {journal after : Journal} {answer : Option PreparedMessage}
    {changed : Bool} (h : op.change journal = .ok (answer, after, changed)) :
    ∀ entry ∈ after.entries, (∃ old ∈ journal.entries, op.Alters old entry) ∨
      ∃ peer scope content eligibleAfter prepared,
        op = .prepare peer scope content eligibleAfter (some prepared) ∧
          entry = .new peer scope (Messenger.contentHash content) eligibleAfter prepared := by
  cases op with
  | markPublished id =>
      refine fun entry hentry => .inl (alters_of_unanswered (fun _ _ => alters_changeEntry ?_) h
        entry hentry)
      rintro entry after changed rfl hentry
      cases hentry
      exact ⟨rfl, fun _ => .inr rfl, fun _ h => h, .inl⟩
  | markFailed id now failure =>
      refine fun entry hentry => .inl (alters_of_unanswered (fun _ _ => alters_changeEntry ?_) h
        entry hentry)
      intro entry after changed _ hentry
      dsimp only at hentry
      split at hentry
      · cases hentry
        exact .refl _ _
      · split at hentry <;> cases hentry <;> exact .of_eq rfl rfl rfl
  | completeScope peer scope eligibleAfter =>
      refine fun entry hentry => .inl (alters_of_unanswered (fun _ _ => alters_changeAll ?_) h
        entry hentry)
      intro entry hentry
      simp only [Bool.and_eq_true, beq_iff_eq] at hentry
      obtain ⟨⟨rfl, rfl⟩, -⟩ := hentry
      exact ⟨rfl, .inl, fun _ h => (Option.some_ne_none _ h).elim,
        fun _ => .inr (.inl ⟨eligibleAfter, rfl⟩)⟩
  | reopenScope peer scope =>
      refine fun entry hentry => .inl (alters_of_unanswered (fun _ _ => alters_changeAll ?_) h
        entry hentry)
      exact fun entry _ => ⟨rfl, fun h => (Bool.false_ne_true h).elim,
        fun h => (Bool.false_ne_true h).elim, fun _ => .inl rfl⟩
  | markCleanupFailed id now failure =>
      refine fun entry hentry => .inl (alters_of_unanswered (fun _ _ => alters_changeEntry ?_) h
        entry hentry)
      intro entry after changed _ hentry
      dsimp only at hentry
      split at hentry
      · cases hentry
        exact .refl _ _
      · split at hentry <;> cases hentry <;> exact .of_eq rfl rfl rfl
  | retry id operation now =>
      refine fun entry hentry => .inl (alters_of_unanswered (fun _ _ => alters_changeEntry ?_) h
        entry hentry)
      intro entry after changed _ hentry
      cases operation <;> dsimp only at hentry <;> split at hentry <;> cases hentry
      · exact ⟨rfl, fun h => (Bool.false_ne_true h).elim,
          fun h => (Bool.false_ne_true h).elim, .inl⟩
      · exact .of_eq rfl rfl rfl
  | removeDeleted ids now =>
      refine fun entry hentry => .inl (alters_of_unanswered (fun after changed hafter => ?_) h
        entry hentry)
      unfold Outbox.removeDeleted at hafter
      split at hafter
      · cases hafter
      · cases hafter
        exact fun entry hentry => ⟨entry, List.mem_of_mem_filter hentry, .refl _ _⟩
  | prepare peer scope content eligibleAfter prepared =>
      intro entry hentry
      simp only [Op.change] at h
      cases hresult : reserve peer scope (Messenger.contentHash content) eligibleAfter prepared
          journal with
      | error e => simp [hresult, Except.map] at h
      | ok result =>
          obtain ⟨message, after', changed'⟩ := result
          rw [hresult] at h
          cases h
          rcases alters_reserve hresult entry hentry with hold | ⟨message, rfl, hnew⟩
          · exact .inl hold
          · exact .inr ⟨peer, scope, content, eligibleAfter, message, rfl, hnew⟩

/-! ## Both journals -/

/-- It holds of the journal on disk, and of the one in memory. -/
def System.All (P : Journal → Prop) (system : System) : Prop :=
  (∀ journal ∈ system.file, P journal) ∧ ∀ state ∈ system.process, P state.journal

variable {P Q : Journal → Prop} {system : System}

/-- What follows from it holds of both journals too. -/
theorem System.All.imp (h : system.All P) (hPQ : ∀ journal, P journal → Q journal) :
    system.All Q :=
  ⟨fun journal hjournal => hPQ _ (h.1 journal hjournal),
    fun state hstate => hPQ _ (h.2 state hstate)⟩

/-- **However the write ends**, both journals are the old one or the changed one. -/
theorem System.All.call {op : Op} (h : system.All P)
    (hchange : ∀ state ∈ system.process, ∀ answer after changed,
      op.change state.journal = .ok (answer, after, changed) → P after) (write : Write) :
    (system.step (.call op write)).All P := by
  obtain ⟨file, process⟩ := system
  cases process with
  | none => exact h
  | some state =>
      have hstate := h.2 state rfl
      simp only [System.step, Op.run]
      cases op.check with
      | error e => exact h
      | ok u =>
          have hupdates := updates_update write op.change state file
          generalize update write op.change state file = result at hupdates ⊢
          cases hupdates with
          | failed e hfailed => exact h
          | refused hrefused => exact h
          | unchanged hfailed hok => exact h
          | saved hfailed hok =>
              have hafter := hchange state rfl _ _ _ hok
              exact ⟨by simpa using hafter, by simpa using hafter⟩
          | unsaved e hfailed hok hleft =>
              have hafter := hchange state rfl _ _ _ hok
              refine ⟨?_, by simpa using hstate⟩
              rcases hleft with rfl | rfl
              · exact h.1
              · simpa using hafter

/-- **A start reads the journal that is there**, or writes a new one, of which nothing but
what holds of an empty journal is asked. -/
theorem System.All.start (h : system.All P) (hsound : system.Sound)
    (hnew : system.file = none → system.process = none → P .new) (write : Write) :
    (system.step (.start write)).All P := by
  obtain ⟨file, process⟩ := system
  cases process with
  | some state => exact h
  | none =>
      cases file with
      | some journal =>
          have hjournal := h.1 journal rfl
          simp only [System.step, openAt_of_good (hsound.file journal rfl)]
          exact ⟨h.1, by simpa [Except.toOption] using hjournal⟩
      | none =>
          have hjournal := hnew rfl rfl
          simp only [System.step, openAt, readJournal]
          rcases persist_cases write .new none with hpersist | ⟨e, left, hleft, hpersist⟩
          · simp only [hpersist, validate_eq_ok_iff.mpr Journal.new_good.valid, Except.map]
            exact ⟨by simpa using hjournal, by simpa [Except.toOption] using hjournal⟩
          · simp only [hpersist]
            refine ⟨?_, by simp [Except.toOption]⟩
            rcases hleft with rfl | rfl
            · exact h.1
            · simpa using hjournal

/-- A process that ends leaves the journal on disk. -/
theorem System.All.stop (h : system.All P) : (system.step .stop).All P := by
  obtain ⟨file, process⟩ := system
  cases process with
  | none => exact h
  | some state => exact ⟨h.1, by simp [System.step]⟩

/-- A journal that is there is read and not written, whether it is accepted or refused. -/
theorem openAt_some_file (write : Write) (journal : Journal) :
    (openAt write (some journal)).2 = some journal := by
  by_cases hfits : maxBytes < journal.byteLength
  · simp only [openAt, readJournal, if_pos hfits]
  · simp only [openAt, readJournal, if_neg hfits]

/-- A journal that has been written is not lost. -/
theorem System.file_isSome_step (h : system.file.isSome = true) (event : Event) :
    (system.step event).file.isSome = true := by
  obtain ⟨file, process⟩ := system
  obtain ⟨journal, rfl⟩ := Option.isSome_iff_exists.mp h
  cases event with
  | start write =>
      cases process with
      | some state => rfl
      | none =>
          have hfile := openAt_some_file write journal
          simp only [System.step, hfile, Option.isSome_some]
  | stop => cases process <;> rfl
  | call op write =>
      cases process with
      | none => rfl
      | some state =>
          simp only [System.step, Op.run]
          cases op.check with
          | error e => rfl
          | ok u =>
              have hupdates := updates_update write op.change state (some journal)
              generalize update write op.change state (some journal) = result at hupdates ⊢
              cases hupdates with
              | unsaved e hfailed hok hleft => rcases hleft with rfl | rfl <;> rfl
              | _ => rfl

/-- Only a stop ends a process. -/
theorem System.process_eq_none_of_step {event : Event} (hevent : event ≠ .stop)
    (h : (system.step event).process = none) : system.process = none := by
  obtain ⟨file, process⟩ := system
  cases process with
  | none => rfl
  | some state =>
      cases event with
      | start write => exact h
      | call op write => cases h
      | stop => exact (hevent rfl).elim

/-- A process that has created no journal has not started. -/
theorem System.process_eq_none_of_start {write : Write} (hfile : system.file = none)
    (hprocess : system.process = none) (h : (system.step (.start write)).file = none) :
    (system.step (.start write)).process = none := by
  obtain ⟨file, process⟩ := system
  obtain rfl : file = none := hfile
  obtain rfl : process = none := hprocess
  simp only [System.step, openAt, readJournal] at h ⊢
  rcases persist_cases write .new none with hpersist | ⟨e, left, -, hpersist⟩
  · simp [hpersist] at h
  · simp [hpersist, Except.toOption]

/-- The bytes of an entry belong to what no call changes. -/
theorem Entry.prepared_of_core {entry after : Entry} (h : after.core = entry.core) :
    after.prepared = entry.prepared := by
  have hprepared : after.core.prepared = entry.core.prepared := by rw [h]
  exact hprepared

/-! ## What the journals account for -/

/-- What the messenger's documentation says of identifiers: each is that of one message. -/
class LawfulMessenger : Prop where
  id_injective : Function.Injective (Messenger.id : PreparedMessage → String)

/-- An entry for this message is in the journal. -/
def Journal.Has (message : PreparedMessage) (journal : Journal) : Prop :=
  ∃ entry ∈ journal.entries, entry.prepared = message

/-- What the homeserver stores, by the identifiers of the messages. -/
abbrev Storage := AList fun _ : String => PreparedMessage

/-- What a journal says of the storage, while this work goes on. -/
structure Journal.Accounts (storage : Storage) (works : List Work) (journal : Journal) :
    Prop where
  /-- Nothing is stored that is not recorded. -/
  stored : ∀ id message, storage.lookup id = some message → journal.Has message
  publishing : ∀ work ∈ works, work.phase.inside = true → work.operation = .publication →
    journal.Has work.prepared
  /-- What is published, and not to be deleted, is stored. -/
  published : ∀ entry ∈ journal.entries, entry.published = true → entry.cleanupAfter = none →
    storage.lookup entry.id = some entry.prepared
  deleting : ∀ work ∈ works, work.phase.inside = true → work.operation = .cleanup →
    ∀ entry ∈ journal.entries, entry.id = work.id → entry.published = true →
      entry.cleanupAfter ≠ none

variable {storage : Storage} {works after : List Work} {work : Work} {i : ℕ}

/-- Only the work that has a lock matters. -/
theorem Journal.Accounts.mono {journal : Journal} (h : journal.Accounts storage works)
    (hworks : ∀ work ∈ after, work.phase.inside = true → ∃ old ∈ works,
      old.phase.inside = true ∧ old.operation = work.operation ∧ old.prepared = work.prepared) :
    journal.Accounts storage after where
  stored := h.stored
  publishing work hwork hinside hoperation := by
    obtain ⟨old, hold, holdInside, heq, hprepared⟩ := hworks work hwork hinside
    exact hprepared ▸ h.publishing old hold holdInside (heq.trans hoperation)
  published := h.published
  deleting work hwork hinside hoperation entry hentry hid := by
    obtain ⟨old, hold, holdInside, heq, hprepared⟩ := hworks work hwork hinside
    refine h.deleting old hold holdInside (heq.trans hoperation) entry hentry (hid.trans ?_)
    exact congrArg Messenger.id hprepared.symm

/-- **A change keeps the account**: what it forgets is not stored, and what it has published
is. -/
theorem Journal.Accounts.change {op : Op} {journal journal' : Journal}
    {answer : Option PreparedMessage} {changed : Bool} (h : journal.Accounts storage works)
    (hkeys : ∀ id message, storage.lookup id = some message → Messenger.id message = id)
    (hchange : op.change journal = .ok (answer, journal', changed))
    (hforgets : ∀ ids now, op = .removeDeleted ids now → ∀ id ∈ ids,
      storage.lookup id = none ∧ ∀ work ∈ works, work.phase.inside = true →
        work.operation = .publication → work.id ≠ id)
    (hpublishes : ∀ id, op = .markPublished id → ∀ entry ∈ journal.entries, entry.id = id →
      storage.lookup id = some entry.prepared ∧ ∀ work ∈ works, work.phase.inside = true →
        work.operation = .cleanup → work.id ≠ id) :
    journal'.Accounts storage works := by
  have hhas : ∀ message, journal.Has message →
      (∀ ids now, op = .removeDeleted ids now → Messenger.id message ∉ ids) →
      journal'.Has message := by
    rintro message ⟨entry, hentry, rfl⟩ hstays
    rcases (changes_of_change hchange).mem_or_removed hentry with
      ⟨kept, hkept, hcore⟩ | ⟨ids, now, hop, hid, -⟩
    · exact ⟨kept, hkept, Entry.prepared_of_core hcore⟩
    · exact (hstays ids now hop hid).elim
  have hold : ∀ entry ∈ journal'.entries, entry.published = true → entry.cleanupAfter = none →
      ∃ old ∈ journal.entries, old.id = entry.id ∧ old.prepared = entry.prepared ∧
        old.cleanupAfter = none ∧ (old.published = true ∨ op = .markPublished old.id) := by
    intro entry hentry hpublished hnone
    rcases alters_of_change hchange entry hentry with ⟨old, hold, halters⟩ | ⟨_, _, _, _, _, -, rfl⟩
    · have hprepared := Entry.prepared_of_core halters.core
      exact ⟨old, hold, (congrArg Messenger.id hprepared).symm, hprepared.symm,
        halters.reopened hpublished hnone, halters.published hpublished⟩
    · cases hpublished
  refine ⟨fun id message hlook => ?_, fun work hwork hinside hoperation => ?_,
    fun entry hentry hpublished hnone => ?_,
    fun work hwork hinside hoperation entry hentry hid hpublished hnone => ?_⟩
  · refine hhas message (h.stored id message hlook) fun ids now hop hmem => ?_
    have hgone := (hforgets ids now hop _ hmem).1
    rw [hkeys id message hlook, hlook] at hgone
    cases hgone
  · refine hhas work.prepared (h.publishing work hwork hinside hoperation)
      fun ids now hop hmem => ?_
    exact (hforgets ids now hop _ hmem).2 work hwork hinside hoperation rfl
  · obtain ⟨old, hmem, hid, hprepared, hopen, hwas | hmarks⟩ := hold entry hentry hpublished hnone
    · rw [← hid, ← hprepared]
      exact h.published old hmem hwas hopen
    · rw [← hid, ← hprepared]
      exact (hpublishes old.id hmarks old hmem rfl).1
  · obtain ⟨old, hmem, hid', -, hopen, hwas | hmarks⟩ := hold entry hentry hpublished hnone
    · exact h.deleting work hwork hinside hoperation old hmem (hid'.trans hid) hwas hopen
    · exact (hpublishes old.id hmarks old hmem rfl).2 work hwork hinside hoperation
        (hid'.trans hid).symm

/-! ## A scope that is not completed -/

/-- The message is in the journal, in this scope and with no deadline. -/
def Journal.Shelves (peer scope : String) (message : PreparedMessage) (journal : Journal) :
    Prop :=
  ∃ entry ∈ journal.entries, entry.prepared = message ∧ entry.peer = peer ∧
    entry.scope = scope ∧ entry.cleanupAfter = none

/-- A call that completes nothing of the scope. -/
structure Op.Spares (op : Op) (peer scope : String) (message : PreparedMessage) : Prop where
  completes : ∀ eligibleAfter, op ≠ .completeScope peer scope eligibleAfter
  expires : ∀ content eligibleAfter prepared,
    op ≠ .prepare peer scope content (some eligibleAfter) prepared
  removes : ∀ ids now, op = .removeDeleted ids now → Messenger.id message ∉ ids

/-- **A call that completes nothing of the scope leaves the message in it**, with no deadline.
The entry is found again by what no call changes of it; what could have given it a deadline is
excluded. -/
theorem Journal.Shelves.change {op : Op} {journal after : Journal} {peer scope : String}
    {message : PreparedMessage} {answer : Option PreparedMessage} {changed : Bool}
    (h : journal.Shelves peer scope message) (hids : (journal.entries.map Entry.id).Nodup)
    (hchange : op.change journal = .ok (answer, after, changed))
    (hop : op.Spares peer scope message) : after.Shelves peer scope message := by
  obtain ⟨entry, hentry, rfl, rfl, rfl, hopen⟩ := h
  rcases (changes_of_change hchange).mem_or_removed hentry with
    ⟨kept, hkept, hcore⟩ | ⟨ids, now, hremoves, hid, -⟩
  · have hprepared := Entry.prepared_of_core hcore
    have hpeer : kept.core.peer = entry.core.peer := by rw [hcore]
    have hscope : kept.core.scope = entry.core.scope := by rw [hcore]
    refine ⟨kept, hkept, hprepared, hpeer, hscope, ?_⟩
    rcases alters_of_change hchange kept hkept with
      ⟨old, hold, halters⟩ | ⟨peer, scope, content, eligibleAfter, prepared, rfl, rfl⟩
    · obtain rfl : old = entry := by
        refine List.inj_on_of_nodup_map hids hold hentry (congrArg Messenger.id ?_)
        exact (Entry.prepared_of_core halters.core).symm.trans hprepared
      rcases halters.completed hopen with hnone | ⟨eligibleAfter, hcompletes⟩ |
        ⟨content, eligibleAfter, prepared, hexpires⟩
      · exact hnone
      · exact (hop.completes eligibleAfter hcompletes).elim
      · exact (hop.expires content eligibleAfter prepared hexpires).elim
    · cases eligibleAfter with
      | none => rfl
      | some eligibleAfter =>
          obtain rfl : peer = entry.peer := hpeer
          obtain rfl : scope = entry.scope := hscope
          exact (hop.expires content eligibleAfter (some prepared) rfl).elim
  · exact (hop.removes ids now hremoves hid).elim

end

end Outbox

end PubkySwap
