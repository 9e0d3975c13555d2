import PubkySwap.Outbox
import PubkySwap.Swap

/-!
# What the outbox keeps

Every call but a new reservation leaves of each entry all that does not change, its
`Entry.core`, and takes entries away at most (`Journal.Tended`).  A text differs from that
of its core by less than the room a reservation leaves for it, so a journal that was
accepted once stays within the limit of its file whatever happens to its entries.
-/

namespace PubkySwap

open CanonicalJson (Value memberLength quoted utf8Length)
open Messenger (PreparedMessage)

namespace Outbox

section

variable [Messenger]

/-! ## The size of an entry -/

/-- The entry with the shortest texts for all that may change. -/
def Entry.core (entry : Entry) : Entry :=
  { entry with
    published := true
    attempts := 0
    nextRetryAt := 0
    cleanupAfter := some 0
    cleanupAttempts := 0
    nextCleanupAt := 0
    publicationFailure := none
    publicationPaused := false
    cleanupFailure := none
    cleanupPaused := false }

/-- The size of an entry's text. -/
def Entry.byteLength (entry : Entry) : ℕ := entry.toValue.byteLength

omit [Messenger] in
/-- A recorded failure is a short word: 24 bytes hold the longest with its quotes. -/
theorem DeliveryFailure.byteLength_le (failure : DeliveryFailure) :
    failure.toValue.byteLength ≤ 24 := by
  have hobject (key : String) (status : UInt16) (h : utf8Length (quoted key) ≤ 16) :
      (Value.object [(key, natural status.toNat)]).byteLength ≤ 24 := by
    have hstatus : (natural status.toNat).byteLength ≤ 5 :=
      Value.byteLength_natural_le (by decide) (lt_trans status.toNat_lt (by decide))
    rw [Value.byteLength_object]
    simp only [List.map_cons, List.map_nil, List.sum_cons, List.sum_nil, memberLength]
    omega
  cases failure with
  | temporaryHttp status => exact hobject _ status (by decide)
  | transportUnavailable => decide
  | timedOut => decide
  | authentication status => exact hobject _ status (by decide)
  | permanentHttp status => exact hobject _ status (by decide)
  | invalidRequest => decide

omit [Messenger] in
/-- A 32-bit number is written in one to ten digits. -/
theorem byteLength_u32 (n : UInt32) :
    1 ≤ (natural n.toNat).byteLength ∧ (natural n.toNat).byteLength ≤ 10 :=
  ⟨Value.byteLength_natural_pos _,
    Value.byteLength_natural_le (by decide) (lt_trans n.toNat_lt (by decide))⟩

omit [Messenger] in
/-- A 64-bit number is written in one to twenty digits. -/
theorem byteLength_u64 (n : UInt64) :
    1 ≤ (natural n.toNat).byteLength ∧ (natural n.toNat).byteLength ≤ 20 :=
  ⟨Value.byteLength_natural_pos _,
    Value.byteLength_natural_le (by decide) (lt_trans n.toNat_lt (by decide))⟩

omit [Messenger] in
/-- A deadline is null or a 64-bit number, and so at most twenty bytes. -/
theorem byteLength_deadline (deadline : Option UInt64) :
    1 ≤ (deadline.elim Value.null fun after => natural after.toNat).byteLength ∧
      (deadline.elim Value.null fun after => natural after.toNat).byteLength ≤ 20 := by
  cases deadline with
  | none => decide
  | some after => exact byteLength_u64 after

omit [Messenger] in
/-- A failure member takes its key and 26 bytes at most, and nothing when it is absent. -/
theorem sum_failure_le (key : String) (failure : Option DeliveryFailure) :
    ((CanonicalJson.optional key (failure.map DeliveryFailure.toValue)).map memberLength).sum ≤
      utf8Length (quoted key) + 26 := by
  cases failure with
  | none => exact Nat.zero_le _
  | some failure =>
      have hle := failure.byteLength_le
      show utf8Length (quoted key) + failure.toValue.byteLength + 2 ≤ _
      omega

omit [Messenger] in
/-- A flag that is set takes its key and six bytes, and a clear one is not written. -/
theorem sum_flag_le (key : String) (b : Bool) :
    ((flag key b).map memberLength).sum ≤ utf8Length (quoted key) + 6 := by
  cases b with
  | false => exact Nat.zero_le _
  | true => exact le_rfl

/-- What an entry says beyond its core takes 214 bytes at most. -/
theorem Entry.byteLength_bounds (entry : Entry) :
    entry.core.byteLength ≤ entry.byteLength ∧ entry.byteLength ≤ entry.core.byteLength + 214 := by
  have hzero32 : (natural (UInt32.toNat 0)).byteLength = 1 := Value.byteLength_zero
  have hzero64 : (natural (UInt64.toNat 0)).byteLength = 1 := Value.byteLength_zero
  have htrue : (Value.bool true).byteLength = 4 := Value.byteLength_bool true
  have hpublished : 4 ≤ (Value.bool entry.published).byteLength ∧
      (Value.bool entry.published).byteLength ≤ 5 := by
    cases entry.published <;> decide
  have hattempts := byteLength_u32 entry.attempts
  have hretry := byteLength_u64 entry.nextRetryAt
  have hafter := byteLength_deadline entry.cleanupAfter
  have hcleanups := byteLength_u32 entry.cleanupAttempts
  have hcleanup := byteLength_u64 entry.nextCleanupAt
  have hfailure := sum_failure_le "publication_failure" entry.publicationFailure
  have hpaused := sum_flag_le "publication_paused" entry.publicationPaused
  have hfailure' := sum_failure_le "cleanup_failure" entry.cleanupFailure
  have hpaused' := sum_flag_le "cleanup_paused" entry.cleanupPaused
  rw [show utf8Length (quoted "publication_failure") = 21 by decide] at hfailure
  rw [show utf8Length (quoted "publication_paused") = 20 by decide] at hpaused
  rw [show utf8Length (quoted "cleanup_failure") = 17 by decide] at hfailure'
  rw [show utf8Length (quoted "cleanup_paused") = 16 by decide] at hpaused'
  have hnone (key : String) : ((CanonicalJson.optional key none).map memberLength).sum = 0 := rfl
  have hunset (key : String) : ((flag key false).map memberLength).sum = 0 := rfl
  simp only [Entry.byteLength, Entry.toValue, Entry.core, Value.byteLength_object,
    List.map_append, List.sum_append, List.map_cons, List.map_nil, List.sum_cons, List.sum_nil,
    memberLength, Option.map_none, Option.elim_some, hnone, hunset]
  omega

/-! ## The size of a journal -/

/-- The size of a journal without entries. -/
def Journal.headLength (journal : Journal) : ℕ := { journal with entries := [] }.byteLength

/-- The length of a journal: its head and its entries, with a comma between two entries. -/
theorem Journal.byteLength_eq (journal : Journal) :
    journal.byteLength = journal.headLength +
      ((journal.entries.map fun entry => entry.byteLength + 1).sum - 1) := by
  have hentries : ((journal.entries.map Entry.toValue).map fun v => v.byteLength + 1) =
      journal.entries.map fun entry => entry.byteLength + 1 := by
    rw [List.map_map]
    rfl
  simp only [Journal.headLength, Journal.byteLength, Journal.toValue, Value.byteLength_object,
    List.map_cons, List.map_nil, List.sum_cons, List.sum_nil, memberLength,
    Value.byteLength_array, hentries]
  omega

/-- The size of a journal of which only the cores are left. -/
def Journal.coreLength (journal : Journal) : ℕ :=
  journal.headLength + ((journal.entries.map fun entry => entry.core.byteLength + 1).sum - 1)

/-- The marks add between nothing and 214 bytes for each entry to the shortest form of the
journal. -/
theorem Journal.byteLength_bounds (journal : Journal) :
    journal.coreLength ≤ journal.byteLength ∧
      journal.byteLength ≤ journal.coreLength + journal.entries.length * 214 := by
  have hsums (entries : List Entry) :
      (entries.map fun entry => entry.core.byteLength + 1).sum ≤
          (entries.map fun entry => entry.byteLength + 1).sum ∧
        (entries.map fun entry => entry.byteLength + 1).sum ≤
          (entries.map fun entry => entry.core.byteLength + 1).sum + entries.length * 214 := by
    induction entries with
    | nil => simp
    | cons entry entries ih =>
        have hentry := entry.byteLength_bounds
        simp only [List.map_cons, List.sum_cons, List.length_cons]
        omega
  have hpos : journal.entries ≠ [] →
      1 ≤ (journal.entries.map fun entry => entry.core.byteLength + 1).sum := by
    intro hne
    obtain ⟨entry, rest, heq⟩ := List.exists_cons_of_ne_nil hne
    rw [heq, List.map_cons, List.sum_cons]
    omega
  have hentries := hsums journal.entries
  rw [Journal.byteLength_eq, Journal.coreLength]
  by_cases hnil : journal.entries = []
  · simp [hnil]
  · have hone := hpos hnil
    omega

/-- The journal leaves the room for its entries that a reservation asks for. -/
def Journal.Roomy (journal : Journal) : Prop :=
  journal.coreLength + journal.entries.length * 512 ≤ maxBytes

/-- **The room is enough**, whatever has happened to the entries. -/
theorem Journal.Roomy.byteLength_le {journal : Journal} (h : journal.Roomy) :
    journal.byteLength ≤ maxBytes := by
  have hbounds := journal.byteLength_bounds
  unfold Journal.Roomy at h
  omega

/-- A journal whose reserved length fits the bound has room for whatever marks its entries
still get. -/
theorem Journal.roomy_of_reservedLength {journal : Journal}
    (h : journal.reservedLength ≤ maxBytes) : journal.Roomy := by
  have hbounds := journal.byteLength_bounds
  unfold Journal.reservedLength at h
  unfold Journal.Roomy
  omega

/-! ## Journals that can be opened -/

/-- Nothing is paused without a failure that needs attention. -/
structure Entry.PausedSoundly (entry : Entry) : Prop where
  publication : pausedInvalidly entry.publicationPaused entry.publicationFailure = false
  cleanup : pausedInvalidly entry.cleanupPaused entry.cleanupFailure = false

/-- The entry's message is authentic, and one of this owner to this peer. -/
def Entry.Associated (owner : Option String) (entry : Entry) : Prop :=
  validateScope entry.peer entry.scope = .ok () ∧ Messenger.authentic entry.prepared = true ∧
    Messenger.version entry.prepared = 1 ∧ Messenger.recipient entry.prepared = entry.peer ∧
    some (Messenger.owner entry.prepared) = owner ∧
    (Messenger.payload entry.prepared).isEmpty = false ∧
    (Messenger.payload entry.prepared).length ≤ maxPayload ∧ entry.id.isEmpty = false ∧
    entry.id.utf8ByteSize ≤ 128 ∧ entry.id.toList.all (fun c => c.isAlphanum || c == '-') = true

/-- What `validate` checks. -/
structure Journal.Valid (journal : Journal) : Prop where
  version : journal.version = 1
  bounded : journal.entries.length ≤ maxEntries
  owner : journal.owner.elim (.ok ()) canonicalPeer = .ok ()
  associated : ∀ entry ∈ journal.entries, entry.Associated journal.owner
  paused : ∀ entry ∈ journal.entries, entry.PausedSoundly
  ids : (journal.entries.map Entry.id).Nodup
  reservations : (journal.entries.map Entry.reservation).Nodup

/-- The checks of one entry. -/
theorem validateEntries_cons_eq_ok_iff {owner : Option String} {ids : List String}
    {reservations : List (String × String × Bytes32)} {entry : Entry} {rest : List Entry} :
    validateEntries owner ids reservations (entry :: rest) = .ok () ↔
      entry.Associated owner ∧ entry.PausedSoundly ∧ entry.id ∉ ids ∧
        entry.reservation ∉ reservations ∧
        validateEntries owner (entry.id :: ids) (entry.reservation :: reservations) rest =
          .ok () := by
  have hpaused : entry.PausedSoundly ↔
      ¬(pausedInvalidly entry.publicationPaused entry.publicationFailure = true ∨
        pausedInvalidly entry.cleanupPaused entry.cleanupFailure = true) := by
    rw [not_or, Bool.not_eq_true, Bool.not_eq_true]
    exact ⟨fun h => ⟨h.1, h.2⟩, fun h => ⟨h.1, h.2⟩⟩
  rw [validateEntries, Entry.Associated, hpaused]
  cases validateScope entry.peer entry.scope with
  | error e => exact iff_of_false nofun fun h => nomatch h.1.1
  | ok u =>
      simp only [ite_error_eq_ok, not_or, not_not, not_lt, Bool.not_eq_true, Bool.not_eq_false,
        ne_eq, true_and, and_assoc]
      tauto

/-- The loop over the entries accepts when each entry is sound by itself and neither an
identifier nor a reservation comes twice, counting those seen before. -/
theorem validateEntries_eq_ok_iff {owner : Option String} (entries : List Entry) :
    ∀ ids reservations, validateEntries owner ids reservations entries = .ok () ↔
      (∀ entry ∈ entries, entry.Associated owner) ∧ (∀ entry ∈ entries, entry.PausedSoundly) ∧
        ((entries.map Entry.id).Nodup ∧ ∀ id ∈ ids, id ∉ entries.map Entry.id) ∧
        ((entries.map Entry.reservation).Nodup ∧
          ∀ reservation ∈ reservations, reservation ∉ entries.map Entry.reservation) := by
  have hcons {α : Type} (a : α) (as bs : List α) :
      ((a :: bs).Nodup ∧ ∀ x ∈ as, x ∉ a :: bs) ↔
        a ∉ as ∧ (bs.Nodup ∧ ∀ x ∈ a :: as, x ∉ bs) := by
    rw [List.nodup_cons, List.forall_mem_cons]
    simp only [List.mem_cons, not_or]
    constructor
    · rintro ⟨⟨hbs, hnodup⟩, hall⟩
      exact ⟨fun ha => (hall a ha).1 rfl, hnodup, hbs, fun x hx => (hall x hx).2⟩
    · rintro ⟨has, hnodup, hbs, hall⟩
      exact ⟨⟨hbs, hnodup⟩, fun x hx => ⟨fun heq => has (heq ▸ hx), hall x hx⟩⟩
  induction entries with
  | nil => simp [validateEntries]
  | cons entry rest ih =>
      intro ids reservations
      rw [validateEntries_cons_eq_ok_iff, ih, List.map_cons, List.map_cons, hcons, hcons]
      constructor
      · rintro ⟨ha, hp, hid, hres, has, hps, hids, hress⟩
        exact ⟨List.forall_mem_cons.mpr ⟨ha, has⟩, List.forall_mem_cons.mpr ⟨hp, hps⟩,
          ⟨hid, hids⟩, hres, hress⟩
      · rintro ⟨hassociated, hpaused, ⟨hid, hids⟩, hres, hress⟩
        obtain ⟨ha, has⟩ := List.forall_mem_cons.mp hassociated
        obtain ⟨hp, hps⟩ := List.forall_mem_cons.mp hpaused
        exact ⟨ha, hp, hid, hres, has, hps, hids, hress⟩

/-- What `validate` accepts is the valid journals. -/
theorem validate_eq_ok_iff {journal : Journal} : validate journal = .ok () ↔ journal.Valid := by
  have hentries : validateEntries journal.owner [] [] journal.entries = .ok () ↔ _ :=
    validateEntries_eq_ok_iff journal.entries [] []
  rw [validate, ite_error_eq_ok, not_or, not_not, not_lt]
  constructor
  · rintro ⟨⟨hversion, hbounded⟩, h⟩
    cases howner : journal.owner.elim (.ok ()) canonicalPeer with
    | error e =>
        rw [howner] at h
        cases h
    | ok u =>
        rw [howner] at h
        obtain ⟨hassociated, hpaused, ⟨hids, -⟩, hreservations, -⟩ := hentries.mp h
        exact ⟨hversion, hbounded, howner, hassociated, hpaused, hids, hreservations⟩
  · intro h
    refine ⟨⟨h.version, h.bounded⟩, ?_⟩
    rw [h.owner]
    exact hentries.mpr ⟨h.associated, h.paused, ⟨h.ids, nofun⟩, h.reservations, nofun⟩

/-! ## Journals that are tended -/

/-- A change of what may change of an entry. -/
structure Entry.Tended (entry after : Entry) : Prop where
  core : after.core = entry.core
  paused : entry.PausedSoundly → after.PausedSoundly

/-- An entry left as it was is tended. -/
theorem Entry.Tended.refl (entry : Entry) : entry.Tended entry := ⟨rfl, fun h => h⟩

/-- What every change but a new reservation does to a journal. -/
structure Journal.Tended (journal after : Journal) : Prop where
  version : after.version = journal.version
  owner : after.owner = journal.owner
  cores : (after.entries.map Entry.core).Sublist (journal.entries.map Entry.core)
  paused : (∀ entry ∈ journal.entries, entry.PausedSoundly) →
    ∀ entry ∈ after.entries, entry.PausedSoundly

/-- The number of entries of read-only traffic. -/
def Journal.ephemerals (journal : Journal) : ℕ :=
  (journal.entries.filter fun entry => isEphemeral entry.scope).length

/-- A journal that can be opened, with the room it needs and the entries it may have. -/
structure Journal.Good (journal : Journal) : Prop where
  valid : journal.Valid
  roomy : journal.Roomy
  reserved : journal.ephemerals ≤ maxEphemeralEntries

namespace Journal.Tended

variable {journal after : Journal}

/-- What is a function of the core is kept of every entry that is left. -/
theorem sublist_map {α : Type} (h : journal.Tended after) {f : Entry → α}
    (hf : ∀ entry : Entry, f entry.core = f entry) :
    (after.entries.map f).Sublist (journal.entries.map f) := by
  have hmap (entries : List Entry) : (entries.map Entry.core).map f = entries.map f := by
    rw [List.map_map]
    exact List.map_congr_left fun entry _ => hf entry
  rw [← hmap after.entries, ← hmap journal.entries]
  exact h.cores.map f

/-- Tending a journal adds no entry. -/
theorem length_le (h : journal.Tended after) : after.entries.length ≤ journal.entries.length := by
  simpa using h.cores.length_le

/-- What holds of a core of the journal holds of every entry that is left. -/
theorem forall_mem (h : journal.Tended after) {P : Entry → Prop}
    (hP : ∀ entry : Entry, P entry.core ↔ P entry) (hall : ∀ entry ∈ journal.entries, P entry) :
    ∀ entry ∈ after.entries, P entry := by
  intro entry hentry
  have hmem := h.cores.subset (List.mem_map_of_mem hentry)
  obtain ⟨before, hbefore, hcore⟩ := List.mem_map.mp hmem
  rw [← hP entry, ← hcore, hP before]
  exact hall before hbefore

/-- A tended journal stays valid: what validity reads of an entry is its core and its
pauses. -/
theorem valid (h : journal.Tended after) (hvalid : journal.Valid) : after.Valid where
  version := h.version.trans hvalid.version
  bounded := h.length_le.trans hvalid.bounded
  owner := h.owner ▸ hvalid.owner
  associated := h.owner ▸ h.forall_mem (fun _ => Iff.rfl) hvalid.associated
  paused := h.paused hvalid.paused
  ids := hvalid.ids.sublist (h.sublist_map fun _ => rfl)
  reservations := hvalid.reservations.sublist (h.sublist_map fun _ => rfl)

/-- A tended journal keeps its room, since it has no other cores than before. -/
theorem roomy (h : journal.Tended after) (hroomy : journal.Roomy) : after.Roomy := by
  have hhead : after.headLength = journal.headLength := by
    unfold Journal.headLength
    rw [h.version, h.owner]
  have hsum : (after.entries.map fun entry => entry.core.byteLength + 1).sum ≤
      (journal.entries.map fun entry => entry.core.byteLength + 1).sum :=
    (h.sublist_map fun _ => rfl).sum_le_sum fun _ _ => Nat.zero_le _
  have hlength := h.length_le
  unfold Journal.Roomy Journal.coreLength at hroomy ⊢
  omega

/-- Tending adds no ephemeral entry, so their bound stays. -/
theorem ephemerals_le (h : journal.Tended after) : after.ephemerals ≤ journal.ephemerals := by
  have hcount (journal : Journal) : journal.ephemerals =
      ((journal.entries.map Entry.scope).filter isEphemeral).length := by
    rw [List.filter_map, List.length_map]
    rfl
  rw [hcount, hcount]
  exact ((h.sublist_map fun _ => rfl).filter isEphemeral).length_le

/-- Tending a good journal leaves a good one. -/
theorem good (h : journal.Tended after) (hgood : journal.Good) : after.Good :=
  ⟨h.valid hgood.valid, h.roomy hgood.roomy, h.ephemerals_le.trans hgood.reserved⟩

end Journal.Tended

/-- A journal that is tended and keeps all of its entries. -/
structure Journal.Kept (journal after : Journal) : Prop where
  version : after.version = journal.version
  owner : after.owner = journal.owner
  cores : after.entries.map Entry.core = journal.entries.map Entry.core
  paused : (∀ entry ∈ journal.entries, entry.PausedSoundly) →
    ∀ entry ∈ after.entries, entry.PausedSoundly

/-- A journal left as it was is kept. -/
theorem Journal.Kept.refl (journal : Journal) : journal.Kept journal :=
  ⟨rfl, rfl, rfl, fun h => h⟩

/-- A journal that has kept the core of every entry is tended. -/
theorem Journal.Kept.tended {journal after : Journal} (h : journal.Kept after) :
    journal.Tended after :=
  ⟨h.version, h.owner, h.cores ▸ List.Sublist.refl _, h.paused⟩

/-- Every entry is still there. -/
theorem Journal.Kept.exists_core {journal after : Journal} (h : journal.Kept after) {entry : Entry}
    (hentry : entry ∈ journal.entries) : ∃ kept ∈ after.entries, kept.core = entry.core := by
  have hmem : entry.core ∈ after.entries.map Entry.core :=
    h.cores ▸ List.mem_map_of_mem hentry
  exact List.mem_map.mp hmem

/-! ## What each change does -/

section

omit [Messenger]

/-- The first element with a property is changed, and nothing else. -/
theorem changeFirst_of_find? {α : Type} {p : α → Bool} {f : α → α} {as : List α} {a : α}
    (h : as.find? p = some a) :
    ∃ before rest, as = before ++ a :: rest ∧ changeFirst p f as = before ++ f a :: rest := by
  induction as with
  | nil => cases h
  | cons b as ih =>
      rw [List.find?_cons] at h
      unfold changeFirst
      cases hb : p b with
      | true =>
          rw [hb] at h
          obtain rfl := Option.some.inj h
          exact ⟨[], as, rfl, rfl⟩
      | false =>
          rw [hb] at h
          obtain ⟨before, rest, has, hchanged⟩ := ih h
          refine ⟨b :: before, rest, congrArg (b :: ·) has, ?_⟩
          exact congrArg (b :: ·) hchanged

end

/-- One entry is tended, and the others stay as they are. -/
theorem Journal.kept_of_changeFirst {journal : Journal} {p : Entry → Bool} {f : Entry → Entry}
    {entry : Entry} (hfind : journal.entries.find? p = some entry) (h : entry.Tended (f entry)) :
    journal.Kept { journal with entries := changeFirst p f journal.entries } := by
  obtain ⟨before, rest, hentries, hchanged⟩ := changeFirst_of_find? (f := f) hfind
  refine ⟨rfl, rfl, ?_, ?_⟩
  · rw [hchanged, hentries, List.map_append, List.map_append, List.map_cons, List.map_cons, h.core]
  · intro hpaused other hother
    rw [hentries] at hpaused
    rw [hchanged] at hother
    rcases List.mem_append.mp hother with hmem | hmem
    · exact hpaused other (List.mem_append_left _ hmem)
    · rcases List.mem_cons.mp hmem with rfl | hmem
      · exact h.paused (hpaused entry (List.mem_append_right _ List.mem_cons_self))
      · exact hpaused other (List.mem_append_right _ (List.mem_cons_of_mem _ hmem))

/-- A change that succeeds keeps all entries of the journal. -/
def Keeps (change : Journal → Except TransportError (Unit × Journal × Bool)) : Prop :=
  ∀ journal after changed, change journal = .ok ((), after, changed) → journal.Kept after

/-- Changing the entry of one identifier keeps the journal, when the change tends that
entry. -/
theorem keeps_changeEntry {id : String} {f : Entry → Except TransportError (Entry × Bool)}
    (hf : ∀ entry after changed, f entry = .ok (after, changed) → entry.Tended after) :
    Keeps (changeEntry id f) := by
  intro journal after changed h
  unfold changeEntry at h
  cases hfind : journal.entries.find? fun entry => entry.id == id with
  | none =>
      rw [hfind] at h
      cases h
  | some entry =>
      simp only [hfind] at h
      cases hf' : f entry with
      | error e =>
          rw [hf'] at h
          cases h
      | ok result =>
          rw [hf'] at h
          cases h
          exact Journal.kept_of_changeFirst hfind (hf entry _ _ hf')

/-- Changing every entry that a predicate picks keeps the journal, when the change tends each
of them. -/
theorem keeps_changeAll {p : Entry → Bool} {f : Entry → Entry}
    (hf : ∀ entry : Entry, entry.Tended (f entry)) : Keeps (changeAll p f) := by
  intro journal after changed h
  cases h
  have hstep (entry : Entry) : entry.Tended (if p entry then f entry else entry) := by
    split
    · exact hf entry
    · exact .refl entry
  have hcores : (journal.entries.map fun entry => if p entry then f entry else entry).map
      Entry.core = journal.entries.map Entry.core := by
    rw [List.map_map]
    exact List.map_congr_left fun entry _ => (hstep entry).core
  refine ⟨rfl, rfl, hcores, fun hpaused entry hentry => ?_⟩
  obtain ⟨before, hbefore, rfl⟩ := List.mem_map.mp hentry
  exact (hstep before).paused (hpaused before hbefore)

/-- Marking an entry published keeps the journal: the mark and the lifted pause are no part of
its core. -/
theorem keeps_markPublished (id : String) : Keeps (markPublished id) := by
  refine keeps_changeEntry fun entry after changed h => ?_
  cases h
  exact ⟨rfl, fun hpaused => ⟨rfl, hpaused.cleanup⟩⟩

omit [Messenger] in
/-- An operation is paused for the failure it has just met. -/
theorem pausedInvalidly_of_failure (failure : DeliveryFailure) :
    pausedInvalidly (!failure.isRetryable) (some failure) = false := by
  cases failure <;> rfl

/-- Recording a failed publication keeps the journal. -/
theorem keeps_markFailed (id : String) (now : UInt64) (failure : DeliveryFailure) :
    Keeps (markFailed id now failure) := by
  refine keeps_changeEntry fun entry after changed h => ?_
  have hpauses (h : entry.PausedSoundly) :
      pausedInvalidly (!failure.isRetryable) (some failure) = false ∧
        pausedInvalidly entry.cleanupPaused entry.cleanupFailure = false :=
    ⟨pausedInvalidly_of_failure failure, h.cleanup⟩
  dsimp only at h
  split at h
  · cases h
    exact .refl entry
  · split at h <;> cases h
    · exact ⟨rfl, fun hpaused => ⟨(hpauses hpaused).1, (hpauses hpaused).2⟩⟩
    · exact ⟨rfl, fun hpaused => ⟨(hpauses hpaused).1, (hpauses hpaused).2⟩⟩

/-- Recording a failed cleanup keeps the journal. -/
theorem keeps_markCleanupFailed (id : String) (now : UInt64) (failure : DeliveryFailure) :
    Keeps (markCleanupFailed id now failure) := by
  refine keeps_changeEntry fun entry after changed h => ?_
  dsimp only at h
  split at h
  · cases h
    exact .refl entry
  · split at h <;> cases h
    · exact ⟨rfl, fun hpaused => ⟨hpaused.publication, pausedInvalidly_of_failure failure⟩⟩
    · exact ⟨rfl, fun hpaused => ⟨hpaused.publication, pausedInvalidly_of_failure failure⟩⟩

/-- Resuming a paused delivery keeps the journal: a lifted pause is a sound one. -/
theorem keeps_resume (id : String) (operation : DeliveryOperation) (now : UInt64) :
    Keeps (resume id operation now) := by
  refine keeps_changeEntry fun entry after changed h => ?_
  cases operation with
  | publication =>
      dsimp only at h
      split at h
      · cases h
      · cases h
        exact ⟨rfl, fun hpaused => ⟨rfl, hpaused.cleanup⟩⟩
  | cleanup =>
      dsimp only at h
      split at h
      · cases h
      · cases h
        exact ⟨rfl, fun hpaused => ⟨hpaused.publication, rfl⟩⟩

/-- Completing a scope keeps the journal: the time from which an entry may go is no part of
its core. -/
theorem keeps_completeScope (peer scope : String) (eligibleAfter : UInt64) :
    Keeps (completeScope peer scope eligibleAfter) :=
  keeps_changeAll fun _ => ⟨rfl, fun hpaused => ⟨hpaused.publication, hpaused.cleanup⟩⟩

/-- Reopening a scope keeps the journal, though it takes that time away again and starts the
deliveries anew. -/
theorem keeps_reopenScope (peer scope : String) : Keeps (reopenScope peer scope) :=
  keeps_changeAll fun _ => ⟨rfl, fun hpaused => ⟨hpaused.publication, hpaused.cleanup⟩⟩

/-- Only entries whose deadline has come are removed. -/
theorem removeDeleted_eq_ok {ids : List String} {now : UInt64} {journal after : Journal}
    {changed : Bool} (h : removeDeleted ids now journal = .ok ((), after, changed)) :
    journal.Tended after ∧ ∀ entry ∈ journal.entries, entry ∈ after.entries ∨
      entry.id ∈ ids ∧ cleanupDue entry now = true := by
  unfold removeDeleted at h
  split at h
  · cases h
  · rename_i hdue
    cases h
    refine ⟨⟨rfl, rfl, List.filter_sublist.map _, fun hpaused entry hentry => ?_⟩,
      fun entry hentry => ?_⟩
    · exact hpaused entry (List.mem_of_mem_filter hentry)
    · simp only [List.any_eq_true, not_exists, not_and, Bool.and_eq_true, Bool.not_eq_true',
        Bool.not_eq_false, List.contains_iff_mem] at hdue
      by_cases hid : entry.id ∈ ids
      · exact .inr ⟨hid, hdue entry hentry hid⟩
      · refine .inl (List.mem_filter.mpr ⟨hentry, ?_⟩)
        simpa using hid

/-! ## Reservations -/

/-- An entry gets the deadline that it has not had. -/
theorem Entry.tended_cleanupAfter (entry : Entry) (eligibleAfter : Option UInt64) :
    entry.Tended { entry with cleanupAfter := eligibleAfter } :=
  ⟨rfl, fun hpaused => ⟨hpaused.publication, hpaused.cleanup⟩⟩

/-- A reservation of content that has been reserved. -/
theorem reserve_again {peer scope : String} {digest : Bytes32} {eligibleAfter : Option UInt64}
    {prepared : Option PreparedMessage} {journal : Journal} {entry : Entry}
    (hfind : journal.entries.find? (Entry.reserves peer scope digest) = some entry) :
    ∃ after changed, reserve peer scope digest eligibleAfter prepared journal =
        .ok (entry.prepared, after, changed) ∧ journal.Kept after := by
  unfold reserve
  simp only [hfind]
  split
  · exact ⟨_, true, rfl,
      Journal.kept_of_changeFirst hfind (entry.tended_cleanupAfter eligibleAfter)⟩
  · exact ⟨journal, false, rfl, .refl journal⟩

/-- The journal takes a new entry for the message. -/
structure Journal.Takes (journal : Journal) (peer scope : String) (digest : Bytes32)
    (eligibleAfter : Option UInt64) (prepared : PreparedMessage) : Prop where
  ephemeral : isEphemeral scope = true → journal.ephemerals < maxEphemeralEntries
  bounded : journal.entries.length < maxEntries
  opened : ∀ entry ∈ journal.entries, entry.peer = peer → entry.scope = scope →
    entry.cleanupAfter = none
  recipient : Messenger.recipient prepared = peer
  owner : ∀ owner ∈ journal.owner, owner = Messenger.owner prepared
  valid : (journal.push (.new peer scope digest eligibleAfter prepared)).Valid
  length : (journal.push (.new peer scope digest eligibleAfter prepared)).reservedLength ≤
    maxBytes

/-- A reservation of new content. -/
theorem reserve_new {peer scope : String} {digest : Bytes32} {eligibleAfter : Option UInt64}
    {prepared : Option PreparedMessage} {journal : Journal}
    (hfind : journal.entries.find? (Entry.reserves peer scope digest) = none)
    {message : PreparedMessage} {after : Journal} {changed : Bool} :
    reserve peer scope digest eligibleAfter prepared journal = .ok (message, after, changed) ↔
      prepared = some message ∧ journal.Takes peer scope digest eligibleAfter message ∧
        after = journal.push (.new peer scope digest eligibleAfter message) ∧ changed = true := by
  have hcompleted : ¬(journal.entries.any fun entry =>
      entry.peer == peer && entry.scope == scope && entry.cleanupAfter.isSome) = true ↔
      ∀ entry ∈ journal.entries, entry.peer = peer → entry.scope = scope →
        entry.cleanupAfter = none := by
    simp
  unfold reserve
  simp only [hfind, ite_error_eq_ok, hcompleted, not_and, not_le]
  cases prepared with
  | none => exact iff_of_false (fun h => nomatch h.2.2.2) fun h => nomatch h.1
  | some prepared =>
      have howner : ¬(journal.owner.any (· ≠ Messenger.owner prepared)) = true ↔
          ∀ owner ∈ journal.owner, owner = Messenger.owner prepared := by
        cases journal.owner <;> simp
      have hvalid : validate (journal.push (.new peer scope digest eligibleAfter prepared)) =
          .ok () ↔ _ := validate_eq_ok_iff
      simp only [ite_error_eq_ok, howner, ne_eq, not_not]
      constructor
      · rintro ⟨hephemeral, hbounded, hopened, hrecipient, howner, h⟩
        cases hvalidate :
          validate (journal.push (.new peer scope digest eligibleAfter prepared)) with
        | error e =>
            rw [hvalidate] at h
            cases h
        | ok u =>
            simp only [hvalidate, ite_error_eq_ok, not_lt] at h
            obtain ⟨hlength, h⟩ := h
            cases h
            exact ⟨rfl, ⟨hephemeral, hbounded, hopened, hrecipient, howner, hvalid.mp hvalidate,
              hlength⟩, rfl, rfl⟩
      · rintro ⟨hmessage, htakes, rfl, rfl⟩
        obtain rfl := Option.some.inj hmessage
        refine ⟨htakes.ephemeral, htakes.bounded, htakes.opened, htakes.recipient, htakes.owner, ?_⟩
        rw [hvalid.mpr htakes.valid]
        exact if_neg (not_lt.mpr htakes.length)

/-- A journal that takes a new entry is good with it. -/
theorem Journal.Takes.good {journal : Journal} {peer scope : String} {digest : Bytes32}
    {eligibleAfter : Option UInt64} {prepared : PreparedMessage}
    (h : journal.Takes peer scope digest eligibleAfter prepared)
    (hreserved : journal.ephemerals ≤ maxEphemeralEntries) :
    (journal.push (.new peer scope digest eligibleAfter prepared)).Good := by
  refine ⟨h.valid, Journal.roomy_of_reservedLength h.length, ?_⟩
  have hcount : (journal.push (.new peer scope digest eligibleAfter prepared)).ephemerals =
      journal.ephemerals + if isEphemeral scope then 1 else 0 := by
    unfold Journal.ephemerals Journal.push
    rw [List.filter_append, List.length_append, List.filter_singleton]
    by_cases hscope : isEphemeral scope = true <;> simp [Entry.new, hscope]
  rw [hcount]
  split
  · exact h.ephemeral ‹_›
  · exact hreserved

/-- What a call may make of a journal. -/
inductive Changes (op : Op) (journal : Journal) : Option PreparedMessage → Journal → Prop where
  | kept {answer : Option PreparedMessage} {after : Journal} (h : journal.Kept after) :
      Changes op journal answer after
  | removed {after : Journal} (ids : List String) (now : UInt64) (hop : op = .removeDeleted ids now)
      (h : journal.Tended after) (hdue : ∀ entry ∈ journal.entries, entry ∈ after.entries ∨
        entry.id ∈ ids ∧ cleanupDue entry now = true) :
      Changes op journal none after
  | reserved {peer scope content : String} {eligibleAfter : Option UInt64}
      {prepared : PreparedMessage}
      (hop : op = .prepare peer scope content eligibleAfter (some prepared))
      (h : journal.Takes peer scope (Messenger.contentHash content) eligibleAfter prepared) :
      Changes op journal (some prepared)
        (journal.push (.new peer scope (Messenger.contentHash content) eligibleAfter prepared))

/-- **What each call does**: it keeps all entries, or it removes some whose deadline has
come, or it reserves a new one. -/
theorem changes_of_change {op : Op} {journal after : Journal} {answer : Option PreparedMessage}
    {changed : Bool} (h : op.change journal = .ok (answer, after, changed)) :
    Changes op journal answer after := by
  have hkept {change : Journal → Except TransportError (Unit × Journal × Bool)}
      (hchange : Keeps change) (h : unanswered change journal = .ok (answer, after, changed)) :
      Changes op journal answer after := by
    unfold unanswered at h
    cases hresult : change journal with
    | error e =>
        rw [hresult] at h
        cases h
    | ok result =>
        rw [hresult] at h
        cases h
        exact .kept (hchange journal _ _ hresult)
  cases op with
  | prepare peer scope content eligibleAfter prepared =>
      simp only [Op.change] at h
      cases hresult : reserve peer scope (Messenger.contentHash content) eligibleAfter prepared
          journal with
      | error e =>
          rw [hresult] at h
          cases h
      | ok result =>
          obtain ⟨message, result, changed'⟩ := result
          rw [hresult] at h
          cases h
          cases hfind : journal.entries.find?
              (Entry.reserves peer scope (Messenger.contentHash content)) with
          | none =>
              obtain ⟨rfl, htakes, rfl, -⟩ := (reserve_new hfind).mp hresult
              exact .reserved rfl htakes
          | some entry =>
              obtain ⟨after', changed'', hagain, hafter⟩ := reserve_again hfind
              cases hresult.symm.trans hagain
              exact .kept hafter
  | markPublished id => exact hkept (keeps_markPublished id) h
  | markFailed id now failure => exact hkept (keeps_markFailed id now failure) h
  | completeScope peer scope eligibleAfter =>
      exact hkept (keeps_completeScope peer scope eligibleAfter) h
  | reopenScope peer scope => exact hkept (keeps_reopenScope peer scope) h
  | markCleanupFailed id now failure => exact hkept (keeps_markCleanupFailed id now failure) h
  | retry id operation now => exact hkept (keeps_resume id operation now) h
  | removeDeleted ids now =>
      simp only [Op.change, unanswered] at h
      cases hresult : Outbox.removeDeleted ids now journal with
      | error e =>
          rw [hresult] at h
          cases h
      | ok result =>
          rw [hresult] at h
          cases h
          obtain ⟨htended, hdue⟩ := removeDeleted_eq_ok hresult
          exact .removed ids now rfl htended hdue

/-- **What a call makes of a good journal** is a good one. -/
theorem Changes.good {op : Op} {journal after : Journal} {answer : Option PreparedMessage}
    (h : Changes op journal answer after) (hgood : journal.Good) : after.Good := by
  cases h with
  | kept h => exact h.tended.good hgood
  | removed ids now hop h hdue => exact h.good hgood
  | reserved hop h => exact h.good hgood.reserved

/-! ## Runs -/

/-- The outbox at large: its file, and the process that has opened it, if there is one. -/
structure System where
  file : Option Journal
  process : Option State

/-- What happens to it. -/
inductive Event where
  | start (write : Write)
  | call (op : Op) (write : Write)
  | stop

/-- One event.  A process that stops while it writes is one whose write is lost or not
synchronized. -/
def System.step : Event → System → System
  | .start write, ⟨file, none⟩ => ⟨(openAt write file).2, (openAt write file).1.toOption⟩
  | .call op write, ⟨file, some state⟩ =>
      ⟨(op.run write state file).2.2, some (op.run write state file).2.1⟩
  | .stop, ⟨file, some _⟩ => ⟨file, none⟩
  | _, system => system

/-- What the events of a run leave of the outbox. -/
def System.run (events : List Event) (system : System) : System :=
  events.foldl (fun system event => system.step event) system

/-- An outbox that has not been created. -/
def System.initial : System := ⟨none, none⟩

/-- What holds of the outbox throughout. -/
structure System.Sound (system : System) : Prop where
  file : ∀ journal ∈ system.file, journal.Good
  journal : ∀ state ∈ system.process, state.journal.Good
  agrees : ∀ state ∈ system.process, state.writeFailed = false →
    system.file = some state.journal

/-- What a write leaves: the file as it was, or the candidate, which it leaves if it
succeeds. -/
theorem persist_cases (write : Write) (candidate : Journal) (file : Option Journal) :
    persist write candidate file = (.ok (), some candidate) ∨
      ∃ e left, (left = file ∨ left = some candidate) ∧
        persist write candidate file = (.error e, left) := by
  unfold persist
  split
  · exact .inr ⟨_, file, .inl rfl, rfl⟩
  · cases write with
    | saved => exact .inl rfl
    | lost => exact .inr ⟨_, file, .inl rfl, rfl⟩
    | unsynced => exact .inr ⟨_, some candidate, .inr rfl, rfl⟩

/-- What an update may come to. -/
inductive Updates {α : Type} (change : Journal → Except TransportError (α × Journal × Bool))
    (state : State) (file : Option Journal) :
    Except TransportError α × State × Option Journal → Prop where
  | failed (e : TransportError) (h : state.writeFailed = true) :
      Updates change state file (.error e, state, file)
  | refused {e : TransportError} (h : change state.journal = .error e) :
      Updates change state file (.error e, state, file)
  | unchanged {answer : α} {after : Journal} (hfailed : state.writeFailed = false)
      (h : change state.journal = .ok (answer, after, false)) :
      Updates change state file (.ok answer, state, file)
  | saved {answer : α} {after : Journal} (hfailed : state.writeFailed = false)
      (h : change state.journal = .ok (answer, after, true)) :
      Updates change state file (.ok answer, { state with journal := after }, some after)
  | unsaved {answer : α} {after : Journal} {left : Option Journal} (e : TransportError)
      (hfailed : state.writeFailed = false)
      (h : change state.journal = .ok (answer, after, true))
      (hleft : left = file ∨ left = some after) :
      Updates change state file (.error e, { state with writeFailed := true }, left)

/-- An update refuses and leaves everything, or answers what its change answers and saves it,
or fails to write and blocks the process. -/
theorem updates_update {α : Type} (write : Write)
    (change : Journal → Except TransportError (α × Journal × Bool)) (state : State)
    (file : Option Journal) : Updates change state file (update write change state file) := by
  unfold update
  split
  · exact .failed _ ‹_›
  · rename_i hnotFailed
    have hfailed := Bool.eq_false_of_not_eq_true hnotFailed
    cases hresult : change state.journal with
    | error e => exact .refused hresult
    | ok result =>
        obtain ⟨answer, after, changed⟩ := result
        cases changed with
        | false => exact .unchanged hfailed hresult
        | true =>
            rcases persist_cases write after file with hpersist | ⟨e, left, hleft, hpersist⟩
            · simp only [if_true, hpersist]
              exact .saved hfailed hresult
            · simp only [if_true, hpersist]
              exact .unsaved e hfailed hresult hleft

/-- The size of a new journal's file. -/
theorem Journal.byteLength_new : Journal.new.byteLength = 39 := by
  have hvalue : Journal.new.toValue =
      .object [("version", .number (.int 1)), ("owner", .null), ("entries", .array [])] := rfl
  rw [Journal.byteLength, hvalue]
  decide

/-- A new journal is good: it has no entries, and its head is short. -/
theorem Journal.new_good : Journal.new.Good where
  valid := ⟨rfl, Nat.zero_le _, rfl, by simp [Journal.new], by simp [Journal.new],
    List.nodup_nil, List.nodup_nil⟩
  roomy := by
    refine Journal.roomy_of_reservedLength ?_
    rw [Journal.reservedLength, Journal.byteLength_new]
    show 39 + 0 * 512 ≤ maxBytes
    decide
  reserved := Nat.zero_le _

/-- A good journal can be opened. -/
theorem openAt_of_good {write : Write} {journal : Journal} (h : journal.Good) :
    openAt write (some journal) = (.ok ⟨journal, false⟩, some journal) := by
  have hfits := not_lt.mpr h.roomy.byteLength_le
  simp only [openAt, readJournal, if_neg hfits, validate_eq_ok_iff.mpr h.valid, Except.map]

/-- An update keeps a sound system sound, when its change leads to a good journal. -/
theorem Updates.sound {α : Type} {state : State} {file : Option Journal}
    {change : Journal → Except TransportError (α × Journal × Bool)}
    {result : Except TransportError α × State × Option Journal}
    (hresult : Updates change state file result)
    (hchange : ∀ answer after changed, change state.journal = .ok (answer, after, changed) →
      after.Good) (h : System.Sound ⟨file, some state⟩) :
    System.Sound ⟨result.2.2, some result.2.1⟩ := by
  cases hresult with
  | failed e hfailed => exact h
  | refused hrefused => exact h
  | unchanged hfailed hok => exact h
  | saved hfailed hok =>
      have hafter := hchange _ _ _ hok
      refine ⟨fun journal hjournal => ?_, fun s hs => ?_, fun s hs _ => ?_⟩
      · obtain rfl := Option.some.inj hjournal
        exact hafter
      · obtain rfl := Option.some.inj hs
        exact hafter
      · obtain rfl := Option.some.inj hs
        rfl
  | unsaved e hfailed hok hleft =>
      refine ⟨fun journal hjournal => ?_, fun s hs => ?_, fun s hs hsaved => ?_⟩
      · rcases hleft with rfl | rfl
        · exact h.file journal hjournal
        · obtain rfl := Option.some.inj hjournal
          exact hchange _ _ _ hok
      · obtain rfl := Option.some.inj hs
        exact h.journal state rfl
      · obtain rfl := Option.some.inj hs
        cases hsaved

/-- **What a step preserves.** -/
theorem System.Sound.step {system : System} (h : system.Sound) (event : Event) :
    (system.step event).Sound := by
  obtain ⟨file, process⟩ := system
  cases event with
  | start write =>
      cases process with
      | some state => exact h
      | none =>
          cases file with
          | some journal =>
              have hgood := h.file journal rfl
              simp only [System.step, openAt_of_good hgood]
              refine ⟨h.file, fun s hs => ?_, fun s hs _ => ?_⟩
              · obtain rfl := Option.some.inj hs
                exact hgood
              · obtain rfl := Option.some.inj hs
                rfl
          | none =>
              simp only [System.step, openAt, readJournal]
              rcases persist_cases write .new none with hpersist | ⟨e, left, hleft, hpersist⟩
              · simp only [hpersist, validate_eq_ok_iff.mpr Journal.new_good.valid, Except.map]
                refine ⟨fun journal hjournal => ?_, fun s hs => ?_, fun s hs _ => ?_⟩
                · obtain rfl := Option.some.inj hjournal
                  exact Journal.new_good
                · obtain rfl := Option.some.inj hs
                  exact Journal.new_good
                · obtain rfl := Option.some.inj hs
                  rfl
              · simp only [hpersist]
                refine ⟨fun journal hjournal => ?_, by simp [Except.toOption],
                  by simp [Except.toOption]⟩
                rcases hleft with rfl | rfl
                · cases hjournal
                · obtain rfl := Option.some.inj hjournal
                  exact Journal.new_good
  | call op write =>
      cases process with
      | none => exact h
      | some state =>
          simp only [System.step, Op.run]
          cases op.check with
          | error e => exact h
          | ok u =>
              exact (updates_update write op.change state file).sound
                (fun _ _ _ hresult => (changes_of_change hresult).good (h.journal state rfl)) h
  | stop =>
      cases process with
      | none => exact h
      | some state => exact ⟨h.file, by simp [System.step], by simp [System.step]⟩

/-- Every event keeps a sound system sound, and so does any list of them. -/
theorem System.Sound.run {system : System} (h : system.Sound) (events : List Event) :
    (system.run events).Sound := by
  induction events generalizing system with
  | nil => exact h
  | cons event events ih => exact ih (h.step event)

/-- Every outbox is sound, whatever happens to it. -/
theorem System.sound (events : List Event) : (System.initial.run events).Sound :=
  System.Sound.run ⟨by simp [initial], by simp [initial], by simp [initial]⟩ events

/-! ## The answers of a sound outbox -/

/-- A change is answered once it is written. -/
theorem update_saved {α : Type} {state : State} {file : Option Journal} {answer : α}
    {after : Journal} {changed : Bool}
    {change : Journal → Except TransportError (α × Journal × Bool)}
    (hfailed : state.writeFailed = false)
    (hchange : change state.journal = .ok (answer, after, changed))
    (hfits : after.byteLength ≤ maxBytes) :
    update .saved change state file = (.ok answer,
      if changed then ({ state with journal := after }, some after) else (state, file)) := by
  unfold update
  rw [hfailed, hchange]
  cases changed with
  | false => rfl
  | true => simp only [Bool.false_eq_true, if_false, if_true, persist, if_neg (not_lt.mpr hfits)]

/-- The answer of a call on a good journal is that of the change it makes. -/
theorem run_saved_eq_ok_iff {op : Op} {state : State} {file : Option Journal}
    {answer : Option PreparedMessage} (hgood : state.journal.Good) :
    (op.run .saved state file).1 = .ok answer ↔ op.check = .ok () ∧ state.writeFailed = false ∧
      ∃ after changed, op.change state.journal = .ok (answer, after, changed) := by
  constructor
  · intro h
    unfold Op.run at h
    cases hcheck : op.check with
    | error e =>
        rw [hcheck] at h
        cases h
    | ok u =>
        simp only [hcheck] at h
        have hupdates := updates_update .saved op.change state file
        generalize update .saved op.change state file = result at h hupdates
        cases hupdates with
        | failed e hfailed => cases h
        | refused hrefused => cases h
        | unchanged hfailed hok =>
            cases h
            exact ⟨rfl, hfailed, _, _, hok⟩
        | saved hfailed hok =>
            cases h
            exact ⟨rfl, hfailed, _, _, hok⟩
        | unsaved e hfailed hok hleft => cases h
  · rintro ⟨hcheck, hfailed, after, changed, hchange⟩
    unfold Op.run
    rw [hcheck]
    have hfits := ((changes_of_change hchange).good hgood).roomy.byteLength_le
    exact congrArg Prod.fst (update_saved hfailed hchange hfits)

/-- What a reservation answers. -/
theorem change_prepare_eq_ok_iff {peer scope content : String} {eligibleAfter : Option UInt64}
    {journal : Journal} {prepared answer : Option PreparedMessage} :
    (∃ after changed, (Op.prepare peer scope content eligibleAfter prepared).change journal =
        .ok (answer, after, changed)) ↔
      ∃ message, answer = some message ∧
        ((∃ entry, journal.entries.find?
            (Entry.reserves peer scope (Messenger.contentHash content)) = some entry ∧
          message = entry.prepared) ∨
        (journal.entries.find? (Entry.reserves peer scope (Messenger.contentHash content)) = none ∧
          prepared = some message ∧
          journal.Takes peer scope (Messenger.contentHash content) eligibleAfter message)) := by
  have hmap : (∃ after changed, (Op.prepare peer scope content eligibleAfter prepared).change
      journal = .ok (answer, after, changed)) ↔
      ∃ message, answer = some message ∧ ∃ after changed, reserve peer scope
        (Messenger.contentHash content) eligibleAfter prepared journal =
          .ok (message, after, changed) := by
    simp only [Op.change]
    cases reserve peer scope (Messenger.contentHash content) eligibleAfter prepared journal with
    | error e => exact iff_of_false (fun ⟨_, _, h⟩ => nomatch h) fun ⟨_, _, _, _, h⟩ => nomatch h
    | ok result =>
        obtain ⟨message, after, changed⟩ := result
        constructor
        · rintro ⟨after', changed', h⟩
          cases h
          exact ⟨message, rfl, after, changed, rfl⟩
        · rintro ⟨message', rfl, after', changed', h⟩
          cases h
          exact ⟨after, changed, rfl⟩
  rw [hmap]
  refine exists_congr fun message => and_congr_right fun _ => ?_
  cases hfind :
    journal.entries.find? (Entry.reserves peer scope (Messenger.contentHash content)) with
  | none =>
      simp only [reserve_new hfind]
      constructor
      · rintro ⟨after, changed, hprepared, htakes, -, -⟩
        exact .inr ⟨trivial, hprepared, htakes⟩
      · rintro (⟨entry, h, -⟩ | ⟨-, hprepared, htakes⟩)
        · cases h
        · exact ⟨_, _, hprepared, htakes, rfl, rfl⟩
  | some entry =>
      obtain ⟨after, changed, hagain, -⟩ : ∃ after changed, reserve peer scope
          (Messenger.contentHash content) eligibleAfter prepared journal =
            .ok (entry.prepared, after, changed) ∧ _ := reserve_again hfind
      rw [hagain]
      constructor
      · rintro ⟨after', changed', h⟩
        cases h
        exact .inl ⟨entry, rfl, rfl⟩
      · rintro (⟨entry', h, rfl⟩ | ⟨h, -⟩)
        · cases h
          exact ⟨after, changed, rfl⟩
        · cases h

end

end Outbox

end PubkySwap
