import PubkySwap.OutboxRun

/-!
# Read-only traffic and creation replies

The journal has two limits, on its entries and on its bytes.  Of the entries a quarter is
kept free of read-only traffic, of the bytes nothing is.  So a message that the outbox
would take if it held no read-only traffic is refused exactly if the bytes of that traffic
are too many (`prepare_durable_iff`), and the messages that fill the journal need not be
many.
-/

namespace PubkySwap

open CanonicalJson (Value memberLength quoted utf8Length)
open Messenger (PreparedMessage)

namespace Outbox

section

variable [Messenger]

/-! ## The journal without read-only traffic -/

/-- The journal without its entries of read-only traffic. -/
def Journal.durable (journal : Journal) : Journal :=
  { journal with entries := journal.entries.filter fun entry => !isEphemeral entry.scope }

/-- The entries of read-only traffic. -/
def Journal.ephemeral (journal : Journal) : List Entry :=
  journal.entries.filter fun entry => isEphemeral entry.scope

/-- The bytes of the entries of read-only traffic, each with a comma and the room that is
left for it. -/
def Journal.ephemeralLength (journal : Journal) : ℕ :=
  (journal.ephemeral.map fun entry => entry.byteLength + 1 + 512).sum

variable {journal : Journal} {peer scope : String} {digest : Bytes32}
  {eligibleAfter : Option UInt64} {prepared : PreparedMessage}

theorem Journal.mem_durable {entry : Entry} :
    entry ∈ journal.durable.entries ↔
      entry ∈ journal.entries ∧ isEphemeral entry.scope = false := by
  simp [durable]

theorem Journal.mem_ephemeral {entry : Entry} :
    entry ∈ journal.ephemeral ↔ entry ∈ journal.entries ∧ isEphemeral entry.scope = true := by
  simp [ephemeral]

/-- Every entry is of one kind. -/
theorem Journal.sum_map_entries (f : Entry → ℕ) :
    (journal.entries.map f).sum =
      (journal.durable.entries.map f).sum + (journal.ephemeral.map f).sum := by
  unfold durable ephemeral
  induction journal.entries with
  | nil => rfl
  | cons entry rest ih =>
      by_cases hscope : isEphemeral entry.scope = true <;>
        simp only [List.filter_cons, hscope, List.map_cons, List.sum_cons, ih, Bool.not_true,
          Bool.not_false, if_true, if_false, Bool.false_eq_true] <;> omega

theorem Journal.length_entries :
    journal.entries.length = journal.durable.entries.length + journal.ephemerals := by
  have hsum := journal.sum_map_entries fun _ => 1
  simpa [Journal.ephemerals, Journal.ephemeral] using hsum

/-- The bytes that a journal needs with a new entry. -/
theorem Journal.reservedLength_push (entry : Entry) :
    (journal.push entry).reservedLength + 1 = (journal.push entry).headLength +
      ((journal.entries.map fun entry => entry.byteLength + 1 + 512).sum +
        (entry.byteLength + 1 + 512)) := by
  have hsum : (journal.entries.map fun entry => entry.byteLength + 1 + 512).sum =
      (journal.entries.map fun entry => entry.byteLength + 1).sum +
        journal.entries.length * 512 := by
    induction journal.entries with
    | nil => simp
    | cons entry rest ih =>
        simp only [List.map_cons, List.sum_cons, List.length_cons, ih]
        omega
  rw [reservedLength, byteLength_eq, hsum]
  simp only [push, List.map_append, List.sum_append, List.map_cons, List.map_nil, List.sum_cons,
    List.sum_nil, List.length_append, List.length_cons, List.length_nil]
  omega

/-- Read-only traffic takes its own bytes and nothing else. -/
theorem Journal.reservedLength_push_eq (entry : Entry) :
    (journal.push entry).reservedLength =
      (journal.durable.push entry).reservedLength + journal.ephemeralLength := by
  have hhead : (journal.push entry).headLength = (journal.durable.push entry).headLength := rfl
  have hfull := journal.reservedLength_push entry
  have hdurable := journal.durable.reservedLength_push entry
  have hsum := journal.sum_map_entries fun entry => entry.byteLength + 1 + 512
  unfold ephemeralLength
  omega

theorem Journal.tended_durable (journal : Journal) : journal.Tended journal.durable :=
  ⟨rfl, rfl, List.filter_sublist.map _, fun h entry hentry => h entry (mem_durable.mp hentry).1⟩

/-- A durable reservation is among the durable entries. -/
theorem Journal.find?_durable (hdurable : isEphemeral scope = false) :
    journal.durable.entries.find? (Entry.reserves peer scope digest) =
      journal.entries.find? (Entry.reserves peer scope digest) := by
  rw [durable, List.find?_filter]
  congr 1
  funext entry
  rw [Bool.eq_iff_iff, decide_eq_true_iff]
  refine and_iff_right_of_imp fun hreserves => ?_
  simp only [Entry.reserves, Bool.and_eq_true, beq_iff_eq] at hreserves
  rw [hreserves.1.2, hdurable]
  rfl

omit [Messenger] in
theorem nodup_map_concat {α β : Type} {f : α → β} {as : List α} {a : α}
    (h : (as.map f).Nodup) (hnew : ∀ b ∈ as, f b ≠ f a) : ((as ++ [a]).map f).Nodup := by
  rw [List.map_append, List.nodup_append]
  refine ⟨h, List.nodup_singleton _, fun x hx y hy => ?_⟩
  obtain ⟨b, hb, rfl⟩ := List.mem_map.mp hx
  obtain rfl := List.mem_singleton.mp hy
  exact hnew b hb

/-- What keeps a journal from taking what it takes without its read-only traffic. -/
theorem Journal.takes_iff_durable_takes (hgood : journal.Good)
    (hdurable : isEphemeral scope = false)
    (hcount : journal.durable.entries.length < maxEntries - maxEphemeralEntries)
    (hfind : journal.entries.find? (Entry.reserves peer scope digest) = none)
    (htakes : journal.durable.Takes peer scope digest eligibleAfter prepared) :
    journal.Takes peer scope digest eligibleAfter prepared ↔
      (journal.durable.push (.new peer scope digest eligibleAfter prepared)).reservedLength +
          journal.ephemeralLength ≤ maxBytes ∧
        ∀ entry ∈ journal.ephemeral, entry.id ≠ Messenger.id prepared := by
  have hreserves : ∀ entry ∈ journal.entries, entry.reservation ≠ (peer, scope, digest) := by
    intro entry hentry heq
    refine List.find?_eq_none.mp hfind entry hentry ?_
    simp only [Entry.reservation, Prod.mk.injEq] at heq
    simp [Entry.reserves, heq]
  -- the entries of read-only traffic have their own bound, which leaves room for this one
  have hlength : journal.entries.length + 1 ≤ maxEntries := by
    have hsplit := journal.length_entries
    have hephemerals := hgood.reserved
    have hmax : maxEntries = 1024 := rfl
    have hmaxEphemeral : maxEphemeralEntries = 768 := rfl
    omega
  constructor
  · intro h
    refine ⟨journal.reservedLength_push_eq _ ▸ h.length, fun entry hentry heq => ?_⟩
    -- an identifier in use is that of a durable entry, or of the traffic, which is the condition
    have hids := h.valid.ids
    simp only [push, List.map_append, List.map_cons, List.map_nil] at hids
    have hdisjoint := (List.nodup_append.mp hids).2.2
    exact hdisjoint _ (List.mem_map_of_mem (mem_ephemeral.mp hentry).1) _
      (List.mem_singleton_self _) heq
  · rintro ⟨hbytes, hfresh⟩
    have hnew := htakes.valid
    have hmem : Entry.new peer scope digest eligibleAfter prepared ∈
        (journal.durable.push (.new peer scope digest eligibleAfter prepared)).entries :=
      List.mem_append_right _ (List.mem_singleton_self _)
    have hids : ∀ entry ∈ journal.entries, entry.id ≠ Messenger.id prepared := by
      intro entry hentry
      cases hscope : isEphemeral entry.scope with
      | true => exact hfresh entry (mem_ephemeral.mpr ⟨hentry, hscope⟩)
      | false =>
          have hnodup := hnew.ids
          simp only [push, List.map_append, List.map_cons, List.map_nil] at hnodup
          exact fun heq => (List.nodup_append.mp hnodup).2.2 _
            (List.mem_map_of_mem (mem_durable.mpr ⟨hentry, hscope⟩)) _
            (List.mem_singleton_self _) heq
    have howner : (journal.push (.new peer scope digest eligibleAfter prepared)).owner =
        some (Messenger.owner prepared) := rfl
    refine ⟨fun h => ?_, hlength, fun entry hentry hpeer hscope => ?_, htakes.recipient,
      htakes.owner, ⟨hgood.valid.version, ?_, hnew.owner, ?_, ?_, ?_, ?_⟩, ?_⟩
    · rw [hdurable] at h
      cases h
    · exact htakes.opened entry (mem_durable.mpr ⟨hentry, hscope ▸ hdurable⟩) hpeer hscope
    · simpa [push] using hlength
    · intro entry hentry
      rcases List.mem_append.mp hentry with hmem' | hmem'
      · have hassociated := hgood.valid.associated entry hmem'
        have hkept : journal.owner = some (Messenger.owner prepared) := by
          rw [← hassociated.2.2.2.2.1, htakes.owner _ hassociated.2.2.2.2.1.symm]
        show entry.Associated (some (Messenger.owner prepared))
        rw [← hkept]
        exact hassociated
      · obtain rfl := List.mem_singleton.mp hmem'
        exact hnew.associated _ hmem
    · intro entry hentry
      rcases List.mem_append.mp hentry with hmem' | hmem'
      · exact hgood.valid.paused entry hmem'
      · obtain rfl := List.mem_singleton.mp hmem'
        exact hnew.paused _ hmem
    · exact nodup_map_concat hgood.valid.ids hids
    · exact nodup_map_concat hgood.valid.reservations hreserves
    · rw [reservedLength_push_eq]
      exact hbytes

/-! ## Reservations of an outbox -/

/-- **What read-only traffic refuses.**  In every outbox there is, take a durable
reservation that would be answered if no read-only traffic were held, and few enough
durable entries.  It is answered if and only if its content is reserved already, or the
read-only traffic leaves it the bytes that it needs (and its identifier). -/
theorem prepare_durable_iff {events : List Event} {state : State} {content : String}
    {prepared : Option PreparedMessage} {message : PreparedMessage}
    (hprocess : (System.initial.run events).process = some state)
    (hdurable : isEphemeral scope = false)
    (hcount : state.journal.durable.entries.length < maxEntries - maxEphemeralEntries)
    (halone : ((Op.prepare peer scope content eligibleAfter prepared).run .saved
      { state with journal := state.journal.durable } (System.initial.run events).file).1 =
        .ok (some message)) :
    ((Op.prepare peer scope content eligibleAfter prepared).run .saved state
        (System.initial.run events).file).1 = .ok (some message) ↔
      (∃ entry ∈ state.journal.entries,
          entry.reserves peer scope (Messenger.contentHash content)) ∨
        (state.journal.durable.push (.new peer scope (Messenger.contentHash content)
            eligibleAfter message)).reservedLength + state.journal.ephemeralLength ≤ maxBytes ∧
          ∀ entry ∈ state.journal.ephemeral, entry.id ≠ Messenger.id message := by
  have hgood := (System.sound events).journal state hprocess
  have hgoodDurable := state.journal.tended_durable.good hgood
  obtain ⟨hcheck, hfailed, hchange⟩ := (run_saved_eq_ok_iff hgoodDurable).mp halone
  obtain ⟨message', heq, hreserved⟩ := change_prepare_eq_ok_iff.mp hchange
  obtain rfl := Option.some.inj heq
  rw [Journal.find?_durable hdurable] at hreserved
  rw [run_saved_eq_ok_iff hgood, change_prepare_eq_ok_iff]
  rcases hreserved with ⟨entry, hfind, rfl⟩ | ⟨hfind, hprepared, htakes⟩
  · refine iff_of_true ⟨hcheck, hfailed, _, rfl, .inl ⟨entry, hfind, rfl⟩⟩ (.inl ⟨entry, ?_, ?_⟩)
    · exact List.mem_of_find?_eq_some hfind
    · exact List.find?_some hfind
  · have hnew : ¬∃ entry ∈ state.journal.entries,
        entry.reserves peer scope (Messenger.contentHash content) := by
      rintro ⟨entry, hentry, hreserves⟩
      exact List.find?_eq_none.mp hfind entry hentry hreserves
    rw [or_iff_right hnew,
      ← Journal.takes_iff_durable_takes hgood hdurable hcount hfind htakes]
    constructor
    · rintro ⟨-, -, message, heq, ⟨entry, hfound, -⟩ | ⟨-, -, h⟩⟩
      · rw [hfind] at hfound
        cases hfound
      · obtain rfl := Option.some.inj heq
        exact h
    · exact fun h => ⟨hcheck, hfailed, _, rfl, .inr ⟨hfind, hprepared, h⟩⟩

end

/-! ## Thirty-one messages -/

namespace CrowdedOutbox

/-- A message of the full size; its payload is written as an array of numbers. -/
structure Message where
  number : ℕ

def text (start : String) (number : ℕ) : String :=
  String.ofList (start.toList ++ List.replicate (number + 1) 'q')

def key : String := "yyyyyyyyyyyyyyyyyyyyyyyyyyyyyyyyyyyyyyyyyyyyyyyyyyyy"

/-- The text of a payload. -/
def payloadValue : Value := .array (List.replicate maxPayload (natural 100))

def messageValue (number : ℕ) (payload : Value) : Value :=
  .object [("version", natural 1), ("owner", .string key), ("recipient", .string key),
    ("id", .string (text "message-" number)), ("payload", payload)]

@[reducible] def messenger : Messenger where
  PreparedMessage := Message
  version _ := 1
  id message := text "message-" message.number
  owner _ := key
  recipient _ := key
  payload _ := List.replicate maxPayload 100
  authentic _ := true
  toValue message := messageValue message.number payloadValue
  publicKey key := if key.length = 52 then some key else none
  contentHash _ := Bytes32.ofNat 0

local instance : Messenger := messenger

def newEntry (scope : String) (eligibleAfter : Option UInt64) (number : ℕ) : Entry :=
  .new key scope (Bytes32.ofNat 0) eligibleAfter ⟨number⟩

/-- An answer to a quote request, for ten minutes. -/
def quoteEntry (number : ℕ) : Entry := newEntry (text "ephemeral:" number) (some 1000) number

def quoteReply (number : ℕ) : Op :=
  .prepare key (text "ephemeral:" number) "" (some 1000) (some (⟨number⟩ : Message))

/-- So many answers to quote requests. -/
def traffic (count : ℕ) : List Event :=
  .start .saved :: (List.range count).map fun number => .call (quoteReply number) .saved

/-- The journal after them. -/
def journal (owner : Option String) (count : ℕ) : Journal :=
  ⟨1, owner, (List.range count).map quoteEntry⟩

/-- The reply to the creation of a swap. -/
def creationReply : Op := .prepare key "quote:accepted" "" none (some ⟨31⟩)

theorem byteLength_payload : payloadValue.byteLength = 524289 := by
  have hbyte : (natural 100).byteLength = 3 := by decide
  have hlength : maxPayload = 131072 := rfl
  rw [payloadValue, Value.byteLength_array_replicate, hbyte, hlength]

theorem length_text (start : String) (number : ℕ) :
    (text start number).length = start.length + (number + 1) := by
  simp [text]

theorem text_injective (start : String) : Function.Injective (text start) := by
  intro m n h
  have hlength := congrArg String.length h
  rw [length_text, length_text] at hlength
  omega

/-- The members of an entry but for its message. -/
def around (scope : String) (eligibleAfter : Option UInt64) : List (String × Value) :=
  [("peer", .string key), ("scope", .string scope),
    ("content_digest", .array ((Bytes32.ofNat 0).1.map fun byte => natural byte.toNat)),
    ("published", .bool false), ("attempts", natural 0), ("next_retry_at", natural 0),
    ("cleanup_after", eligibleAfter.elim .null fun after => natural after.toNat),
    ("cleanup_attempts", natural 0), ("next_cleanup_at", natural 0)]

theorem byteLength_around {scope : String} (h : scope.length ≤ 50)
    (eligibleAfter : Option UInt64) :
    (Value.object (around scope eligibleAfter)).byteLength ≤ 5000 := by
  have hpeer := Value.byteLength_string_le key
  have hscope := Value.byteLength_string_le scope
  rw [show key.length = 52 by decide] at hpeer
  have hdigest : (Value.array ((Bytes32.ofNat 0).1.map fun byte => natural byte.toNat)).byteLength ≤
      32 * 4 + 2 := by
    have hbytes : ∀ v ∈ (Bytes32.ofNat 0).1.map fun byte => natural byte.toNat,
        v.byteLength ≤ 3 := by
      intro v hv
      obtain ⟨byte, -, rfl⟩ := List.mem_map.mp hv
      exact Value.byteLength_natural_le (by decide) (lt_trans byte.toNat_lt (by decide))
    have hle := Value.byteLength_array_le hbytes
    rwa [List.length_map, (Bytes32.ofNat 0).2] at hle
  have hfalse : (Value.bool false).byteLength = 5 := Value.byteLength_bool false
  have hzero : (natural 0).byteLength = 1 := Value.byteLength_zero
  have hdeadline := byteLength_deadline eligibleAfter
  have hkeys : utf8Length (quoted "peer") + utf8Length (quoted "scope") +
      utf8Length (quoted "content_digest") + utf8Length (quoted "published") +
      utf8Length (quoted "attempts") + utf8Length (quoted "next_retry_at") +
      utf8Length (quoted "cleanup_after") + utf8Length (quoted "cleanup_attempts") +
      utf8Length (quoted "next_cleanup_at") ≤ 130 := by
    decide +kernel
  simp only [around, Value.byteLength_object, List.map_cons, List.map_nil, List.sum_cons,
    List.sum_nil, memberLength, hfalse, hzero]
  omega

/-- A message is little more than its payload. -/
theorem byteLength_message (payload : Value) {number : ℕ} (h : number < 32) :
    payload.byteLength ≤ (messageValue number payload).byteLength ∧
      (messageValue number payload).byteLength ≤ payload.byteLength + 1500 := by
  have hkey := Value.byteLength_string_le key
  have hid := Value.byteLength_string_le (text "message-" number)
  rw [length_text, show "message-".length = 8 by decide] at hid
  rw [show key.length = 52 by decide] at hkey
  have hone : (natural 1).byteLength = 1 := by decide
  have hkeys : utf8Length (quoted "version") + utf8Length (quoted "owner") +
      utf8Length (quoted "recipient") + utf8Length (quoted "id") +
      utf8Length (quoted "payload") ≤ 50 := by
    decide +kernel
  simp only [messageValue, Value.byteLength_object, List.map_cons, List.map_nil, List.sum_cons,
    List.sum_nil, memberLength, hone]
  omega

/-- A new entry is little more than its message. -/
theorem byteLength_new {scope : String} (hscope : scope.length ≤ 50)
    (eligibleAfter : Option UInt64) {number : ℕ} (h : number < 32) :
    524289 ≤ (newEntry scope eligibleAfter number).byteLength ∧
      (newEntry scope eligibleAfter number).byteLength ≤ 532000 := by
  have hentry (message : Value) :
      message.byteLength ≤ (Value.object ((around scope eligibleAfter).take 3 ++
        ("prepared", message) :: (around scope eligibleAfter).drop 3)).byteLength ∧
      (Value.object ((around scope eligibleAfter).take 3 ++
        ("prepared", message) :: (around scope eligibleAfter).drop 3)).byteLength ≤
          message.byteLength + 5100 := by
    have hkey : utf8Length (quoted "prepared") = 10 := by decide
    have haround := byteLength_around hscope eligibleAfter
    have hfront : (around scope eligibleAfter).take 3 ≠ [] := List.cons_ne_nil _ _
    rw [Value.byteLength_object_insert _ hfront, List.take_append_drop, memberLength, hkey]
    dsimp only
    omega
  have hvalue : (newEntry scope eligibleAfter number).byteLength =
      (Value.object ((around scope eligibleAfter).take 3 ++
        ("prepared", messageValue number payloadValue) ::
          (around scope eligibleAfter).drop 3)).byteLength := rfl
  have hle := hentry (messageValue number payloadValue)
  have hmessage := byteLength_message payloadValue h
  rw [byteLength_payload] at hmessage
  rw [hvalue]
  refine ⟨hmessage.1.trans hle.1, hle.2.trans ?_⟩
  exact (Nat.add_le_add_right hmessage.2 5100).trans (by decide)

theorem length_quoteScope {number : ℕ} (h : number < 32) :
    (text "ephemeral:" number).length ≤ 50 := by
  rw [length_text, show "ephemeral:".length = 10 by decide]
  omega

/-- A message for a scope is one of the owner to the peer. -/
theorem associated_new {scope : String} (hscope : validateScope key scope = .ok ())
    (eligibleAfter : Option UInt64) {number : ℕ} (h : number < 32) :
    (newEntry scope eligibleAfter number).Associated (some key) := by
  have hids : ∀ n < 32, (text "message-" n).isEmpty = false ∧
      (text "message-" n).utf8ByteSize ≤ 128 ∧
      (text "message-" n).toList.all (fun c => c.isAlphanum || c == '-') = true := by
    decide +kernel
  have hpayload : (List.replicate maxPayload (100 : UInt8)).isEmpty = false := by
    rw [List.isEmpty_eq_false_iff, ne_eq, List.replicate_eq_nil_iff]
    decide
  have hid := hids number h
  exact ⟨hscope, rfl, rfl, rfl, rfl, hpayload, List.length_replicate.le, hid.1, hid.2.1, hid.2.2⟩

theorem mem_journal {owner : Option String} {count : ℕ} {entry : Entry} :
    entry ∈ (journal owner count).entries ↔ ∃ number < count, quoteEntry number = entry := by
  simp [journal]

theorem scope_quoteEntry : ∀ number < 32,
    validateScope key (text "ephemeral:" number) = .ok () ∧
      isEphemeral (text "ephemeral:" number) = true := by
  decide +kernel

theorem headLength_owned (entries : List Entry) :
    (Journal.mk 1 (some key) entries).headLength ≤ 400 := by
  have hkey := Value.byteLength_string_le key
  have hkeys : utf8Length (quoted "version") + utf8Length (quoted "owner") +
      utf8Length (quoted "entries") ≤ 30 := by
    decide +kernel
  have hone : (natural (UInt8.toNat 1)).byteLength = 1 := by decide
  have hnil : (Value.array []).byteLength = 2 := by decide
  rw [show key.length = 52 by decide] at hkey
  simp only [Journal.headLength, Journal.byteLength, Journal.toValue, Value.byteLength_object,
    List.map_cons, List.map_nil, List.sum_cons, List.sum_nil, memberLength, hone, hnil,
    Option.elim_some]
  omega

/-- A sum of so many numbers, each between two bounds. -/
theorem sum_range_bounds {low high : ℕ} {f : ℕ → ℕ} {count : ℕ}
    (h : ∀ n < count, low ≤ f n ∧ f n ≤ high) :
    count * low ≤ ((List.range count).map f).sum ∧
      ((List.range count).map f).sum ≤ count * high := by
  induction count with
  | zero => simp
  | succ count ih =>
      have hlast := h count (Nat.lt_succ_self count)
      have hrest := ih fun n hn => h n (Nat.lt_succ_of_lt hn)
      rw [List.range_succ, List.map_append, List.sum_append, List.map_singleton,
        List.sum_singleton, Nat.succ_mul, Nat.succ_mul]
      exact ⟨Nat.add_le_add hrest.1 hlast.1, Nat.add_le_add hrest.2 hlast.2⟩

/-- The bytes that so many answers need. -/
theorem sum_quotes {owner : Option String} {count : ℕ} (h : count ≤ 32) :
    count * 524802 ≤
        ((journal owner count).entries.map fun entry => entry.byteLength + 1 + 512).sum ∧
      ((journal owner count).entries.map fun entry => entry.byteLength + 1 + 512).sum ≤
        count * 532513 := by
  have hentry : ∀ n < count, 524802 ≤ (quoteEntry n).byteLength + 1 + 512 ∧
      (quoteEntry n).byteLength + 1 + 512 ≤ 532513 := by
    intro n hn
    have hlt := lt_of_lt_of_le hn h
    have hbounds := byteLength_new (length_quoteScope hlt) (some 1000) hlt
    exact ⟨Nat.add_le_add_right hbounds.1 513, Nat.add_le_add_right hbounds.2 513⟩
  have hsum := sum_range_bounds hentry
  simp only [journal, List.map_map]
  exact hsum

/-- The bytes that so many answers need with another message. -/
theorem reservedLength_bounds {owner : Option String} {count : ℕ} (hcount : count ≤ 31)
    {scope : String} (hscope : scope.length ≤ 50) (eligibleAfter : Option UInt64) {number : ℕ}
    (hnumber : number < 32) :
    (count + 1) * 524802 ≤
        ((journal owner count).push (newEntry scope eligibleAfter number)).reservedLength + 1 ∧
      ((journal owner count).push (newEntry scope eligibleAfter number)).reservedLength ≤
        400 + (count + 1) * 532513 := by
  have hsum {low high quotes new head total : ℕ} (hhead : head ≤ 400)
      (hquotes : count * low ≤ quotes ∧ quotes ≤ count * high) (hnew : low ≤ new ∧ new ≤ high)
      (htotal : total + 1 = head + (quotes + new)) :
      (count + 1) * low ≤ total + 1 ∧ total ≤ 400 + (count + 1) * high := by
    rw [Nat.succ_mul, Nat.succ_mul]
    omega
  have hquotes : _ ≤ ((journal owner count).entries.map _).sum ∧ _ :=
    sum_quotes (Nat.le_succ_of_le hcount)
  have hnew := byteLength_new hscope eligibleAfter hnumber
  have hhead :
      ((journal owner count).push (newEntry scope eligibleAfter number)).headLength ≤ 400 :=
    headLength_owned ((journal owner count).push (newEntry scope eligibleAfter number)).entries
  exact hsum hhead hquotes ⟨Nat.add_le_add_right hnew.1 513, Nat.add_le_add_right hnew.2 513⟩
    ((journal owner count).reservedLength_push (newEntry scope eligibleAfter number))

/-- **An outbox with few answers takes another message.** -/
theorem takes_new {owner : Option String} (howner : ∀ o ∈ owner, o = key) {count : ℕ}
    (hcount : count ≤ 30) {scope : String} (hscope : validateScope key scope = .ok ())
    (hlength : scope.length ≤ 50) (hnew : ∀ n < count, text "ephemeral:" n ≠ scope)
    (eligibleAfter : Option UInt64) {number : ℕ} (hle : count ≤ number) (hnumber : number < 32) :
    (journal owner count).Takes key scope (Bytes32.ofNat 0) eligibleAfter
      (⟨number⟩ : Message) where
  ephemeral _ := by
    refine lt_of_le_of_lt (List.length_filter_le _ _) ?_
    rw [journal, List.length_map, List.length_range]
    exact lt_of_le_of_lt hcount (by decide)
  bounded := by
    rw [journal, List.length_map, List.length_range]
    exact lt_of_le_of_lt hcount (by decide)
  opened entry hentry _ heq := by
    obtain ⟨n, hn, rfl⟩ := mem_journal.mp hentry
    exact absurd heq (hnew n hn)
  recipient := rfl
  owner := howner
  valid := by
    have hids : ∀ entry ∈ (journal owner count).entries,
        entry.id ≠ (newEntry scope eligibleAfter number).id := by
      intro entry hentry heq
      obtain ⟨n, hn, rfl⟩ := mem_journal.mp hentry
      exact absurd (text_injective "message-" heq) (Nat.ne_of_lt (lt_of_lt_of_le hn hle))
    have hreservations : ∀ entry ∈ (journal owner count).entries,
        entry.reservation ≠ (newEntry scope eligibleAfter number).reservation := by
      intro entry hentry heq
      obtain ⟨n, hn, rfl⟩ := mem_journal.mp hentry
      simp only [Entry.reservation, quoteEntry, newEntry, Entry.new, Prod.mk.injEq] at heq
      exact hnew n hn heq.2.1
    refine ⟨rfl, ?_, ?_, ?_, ?_, nodup_map_concat ?_ hids, nodup_map_concat ?_ hreservations⟩
    · show ((journal owner count).entries ++ [_]).length ≤ maxEntries
      rw [journal, List.length_append, List.length_map, List.length_range, List.length_singleton]
      exact (Nat.succ_le_succ hcount).trans (by decide)
    · have hkey : canonicalPeer key = .ok () := by decide +kernel
      have hpushed : ((journal owner count).push
          (newEntry scope eligibleAfter number)).owner = some key := rfl
      change ((journal owner count).push (newEntry scope eligibleAfter number)).owner.elim _ _ = _
      rw [hpushed]
      exact hkey
    · intro entry hentry
      rcases List.mem_append.mp hentry with hmem | hmem
      · obtain ⟨n, hn, rfl⟩ := mem_journal.mp hmem
        have hlt : n < 32 := lt_of_lt_of_le hn (hcount.trans (by decide))
        exact associated_new (scope_quoteEntry n hlt).1 _ hlt
      · obtain rfl := List.mem_singleton.mp hmem
        exact associated_new hscope _ hnumber
    · intro entry hentry
      rcases List.mem_append.mp hentry with hmem | hmem
      · obtain ⟨n, -, rfl⟩ := mem_journal.mp hmem
        exact ⟨rfl, rfl⟩
      · obtain rfl := List.mem_singleton.mp hmem
        exact ⟨rfl, rfl⟩
    · simp only [journal, List.map_map]
      exact List.Nodup.map (fun m n heq => text_injective "message-" heq) List.nodup_range
    · simp only [journal, List.map_map]
      refine List.Nodup.map (fun m n heq => ?_) List.nodup_range
      simp only [Function.comp_apply, Entry.reservation, quoteEntry, newEntry, Entry.new,
        Prod.mk.injEq] at heq
      exact text_injective "ephemeral:" heq.2.1
  length := by
    obtain ⟨-, hreserved⟩ := @reservedLength_bounds owner count (Nat.le_succ_of_le hcount) scope
      hlength eligibleAfter number hnumber
    have hentries := Nat.mul_le_mul_right 532513 (Nat.succ_le_succ hcount)
    exact hreserved.trans (le_trans (Nat.add_le_add_left hentries 400) (by decide))

/-- The owner of the journal after so many answers. -/
def ownerAfter (count : ℕ) : Option String := if count = 0 then none else some key

theorem eq_key_of_mem_ownerAfter {count : ℕ} : ∀ o ∈ ownerAfter count, o = key := by
  intro o ho
  unfold ownerAfter at ho
  split at ho
  · cases ho
  · exact (Option.some.inj ho).symm

theorem scope_ne {m n : ℕ} (h : m < n) : text "ephemeral:" m ≠ text "ephemeral:" n :=
  fun heq => absurd (text_injective "ephemeral:" heq) (Nat.ne_of_lt h)

/-- No answer is a reservation of another scope. -/
theorem find?_journal {owner : Option String} {count : ℕ} {scope : String}
    (hnew : ∀ n < count, text "ephemeral:" n ≠ scope) :
    (journal owner count).entries.find? (Entry.reserves key scope (Bytes32.ofNat 0)) = none := by
  refine List.find?_eq_none.mpr fun entry hentry hreserves => ?_
  obtain ⟨n, hn, rfl⟩ := mem_journal.mp hentry
  simp only [Entry.reserves, Bool.and_eq_true, beq_iff_eq] at hreserves
  exact hnew n hn hreserves.1.2

/-- **The outbox after so many answers**, each of them the first of its content. -/
theorem run_traffic {count : ℕ} (h : count ≤ 31) : System.initial.run (traffic count) =
    ⟨some (journal (ownerAfter count) count), some ⟨journal (ownerAfter count) count, false⟩⟩ := by
  induction count with
  | zero =>
      have hfits : ¬maxBytes < Journal.new.byteLength := by
        rw [Journal.byteLength_new]
        decide
      show System.step (.start .saved) System.initial = _
      simp only [System.step, System.initial, openAt, readJournal, persist, if_neg hfits,
        validate_eq_ok_iff.mpr Journal.new_good.valid]
      rfl
  | succ count ih =>
      have hlt : count < 32 := Nat.lt_of_lt_of_le (Nat.lt_of_succ_le h) (by decide)
      have htraffic : traffic (count + 1) = traffic count ++ [.call (quoteReply count) .saved] := by
        rw [traffic, List.range_succ, List.map_append]
        rfl
      have hscopes : ∀ n < count, text "ephemeral:" n ≠ text "ephemeral:" count :=
        fun n hn => scope_ne hn
      have htakes : (journal (ownerAfter count) count).Takes key (text "ephemeral:" count)
          (Bytes32.ofNat 0) (some 1000) (⟨count⟩ : Message) :=
        takes_new eq_key_of_mem_ownerAfter (Nat.le_of_succ_le_succ h)
          (scope_quoteEntry count hlt).1 (length_quoteScope hlt) hscopes (some 1000) le_rfl hlt
      have hpush : (journal (ownerAfter count) count).push (quoteEntry count) =
          journal (ownerAfter (count + 1)) (count + 1) := by
        simp only [journal, Journal.push, List.range_succ, List.map_append, List.map_singleton]
        rfl
      have hreserve : reserve key (text "ephemeral:" count) (Bytes32.ofNat 0) (some 1000)
          (some (⟨count⟩ : Message)) (journal (ownerAfter count) count) =
          .ok ((⟨count⟩ : Message), _, true) :=
        (reserve_new (find?_journal hscopes)).mpr ⟨rfl, htakes, rfl, rfl⟩
      rw [htraffic, System.run, List.foldl_append, List.foldl_cons, List.foldl_nil]
      change System.step (.call (quoteReply count) .saved)
        (System.run (traffic count) System.initial) = _
      rw [ih (Nat.le_of_succ_le h)]
      have hchange : (quoteReply count).change (journal (ownerAfter count) count) =
          .ok (some (⟨count⟩ : Message), journal (ownerAfter (count + 1)) (count + 1), true) := by
        rw [← hpush]
        exact congrArg (Except.map _) hreserve
      have hcheck : (quoteReply count).check = .ok () := (scope_quoteEntry count hlt).1
      have hfits := (Journal.roomy_of_reservedLength htakes.length).byteLength_le
      change Journal.byteLength ((journal (ownerAfter count) count).push (quoteEntry count)) ≤ _
        at hfits
      rw [hpush] at hfits
      have hupdate : update .saved (quoteReply count).change
          ⟨journal (ownerAfter count) count, false⟩ (some (journal (ownerAfter count) count)) = _ :=
        update_saved rfl hchange hfits
      simp only [System.step, Op.run, hcheck, hupdate, if_true]

theorem durable_journal {owner : Option String} {count : ℕ} (h : count ≤ 32) :
    (journal owner count).durable = journal owner 0 := by
  have hnone :
      ((journal owner count).entries.filter fun entry => !isEphemeral entry.scope) = [] := by
    refine List.filter_eq_nil_iff.mpr fun entry hentry => ?_
    obtain ⟨n, hn, rfl⟩ := mem_journal.mp hentry
    have hscope : isEphemeral (quoteEntry n).scope = true :=
      (scope_quoteEntry n (lt_of_lt_of_le hn h)).2
    rw [hscope]
    exact Bool.false_ne_true
  rw [Journal.durable, hnone]
  rfl

theorem scope_creationReply : validateScope key "quote:accepted" = .ok () ∧
    isEphemeral "quote:accepted" = false ∧ "quote:accepted".length ≤ 50 ∧
      ∀ n < 32, text "ephemeral:" n ≠ "quote:accepted" := by
  decide +kernel

/-- A swap's reply finds room with so few answers. -/
theorem takes_creationReply {owner : Option String} (howner : ∀ o ∈ owner, o = key) {count : ℕ}
    (h : count ≤ 30) : (journal owner count).Takes key "quote:accepted" (Bytes32.ofNat 0) none
      (⟨31⟩ : Message) := by
  obtain ⟨hscope, -, hlength, hnew⟩ := scope_creationReply
  exact takes_new howner h hscope hlength (fun n hn => hnew n (by omega)) none (by omega) (by omega)

/-- What the outbox answers to the creation of a swap, if it takes the reply. -/
theorem run_creationReply {state : State} {file : Option Journal} {owner : Option String}
    {count : ℕ} (hgood : state.journal.Good) (hjournal : state.journal = journal owner count)
    (hfailed : state.writeFailed = false) (hcount : count ≤ 32) {answer : Option Message} :
    (creationReply.run .saved state file).1 = .ok answer ↔ answer = some ⟨31⟩ ∧
      (journal owner count).Takes key "quote:accepted" (Bytes32.ofNat 0) none
        (⟨31⟩ : Message) := by
  obtain ⟨hscope, -, -, hnew⟩ := scope_creationReply
  have hfind : (journal owner count).entries.find?
      (Entry.reserves key "quote:accepted" (Bytes32.ofNat 0)) = none :=
    find?_journal fun n hn => hnew n (lt_of_lt_of_le hn hcount)
  rw [run_saved_eq_ok_iff hgood, hjournal, creationReply, change_prepare_eq_ok_iff]
  constructor
  · rintro ⟨-, -, message, rfl, ⟨entry, hfound, -⟩ | ⟨-, hprepared, htakes⟩⟩
    · cases hfind.symm.trans hfound
    · obtain rfl := Option.some.inj hprepared
      exact ⟨rfl, htakes⟩
  · rintro ⟨rfl, htakes⟩
    exact ⟨hscope, hfailed, _, rfl, .inr ⟨hfind, rfl, htakes⟩⟩

/-- **Thirty-one answers of the full size leave no room for the reply to a swap**, which an
outbox without them takes. -/
theorem creation_refused_by_traffic :
    (System.initial.run (traffic 31)).process = some ⟨journal (some key) 31, false⟩ ∧
      (journal (some key) 31).durable.entries.length < maxEntries - maxEphemeralEntries ∧
      isEphemeral "quote:accepted" = false ∧
      (creationReply.run .saved ⟨(journal (some key) 31).durable, false⟩
        (System.initial.run (traffic 31)).file).1 = .ok (some (⟨31⟩ : Message)) ∧
      ∀ answer, (creationReply.run .saved ⟨journal (some key) 31, false⟩
        (System.initial.run (traffic 31)).file).1 ≠ .ok answer := by
  have hprocess : (System.initial.run (traffic 31)).process = some ⟨journal (some key) 31, false⟩ :=
    congrArg System.process (run_traffic le_rfl)
  have hgood : (journal (some key) 31).Good := (System.sound (traffic 31)).journal _ hprocess
  have hdurable : (journal (some key) 31).durable = journal (some key) 0 :=
    durable_journal (by decide)
  have howner : ∀ o ∈ some key, o = key := fun o ho => (Option.some.inj ho).symm
  refine ⟨hprocess, ?_, scope_creationReply.2.1, ?_, fun answer hanswer => ?_⟩
  · rw [hdurable]
    decide
  · refine (run_creationReply ?_ hdurable rfl (by decide)).mpr
      ⟨rfl, takes_creationReply howner (by decide)⟩
    exact (Journal.tended_durable _).good hgood
  · have htakes := ((run_creationReply hgood rfl rfl (by decide)).mp hanswer).2
    have hbytes : (31 + 1) * 524802 ≤ ((journal (some key) 31).push
        (newEntry "quote:accepted" none 31)).reservedLength + 1 :=
      (reservedLength_bounds le_rfl scope_creationReply.2.2.1 none (by decide)).1
    have hfits : ((journal (some key) 31).push
        (newEntry "quote:accepted" none 31)).reservedLength ≤ maxBytes := htakes.length
    have hmax : maxBytes = 16777216 := rfl
    generalize ((journal (some key) 31).push _).reservedLength = total at hbytes hfits
    omega

/-- The general statement with three such answers: they leave the reply its room. -/
theorem creation_answered_after_traffic :
    (creationReply.run .saved ⟨journal (some key) 3, false⟩
      (System.initial.run (traffic 3)).file).1 = .ok (some (⟨31⟩ : Message)) := by
  have hprocess : (System.initial.run (traffic 3)).process = some ⟨journal (some key) 3, false⟩ :=
    congrArg System.process (run_traffic (by decide))
  have hgood : (journal (some key) 3).Good := (System.sound (traffic 3)).journal _ hprocess
  have hdurable : (journal (some key) 3).durable = journal (some key) 0 :=
    durable_journal (by decide)
  have howner : ∀ o ∈ some key, o = key := fun o ho => (Option.some.inj ho).symm
  refine (prepare_durable_iff hprocess scope_creationReply.2.1 ?_ ?_).mpr (.inr ⟨?_, ?_⟩)
  · show (journal (some key) 3).durable.entries.length < _
    rw [hdurable]
    decide
  · refine (run_creationReply ?_ hdurable rfl (by decide)).mpr
      ⟨rfl, takes_creationReply howner (by decide)⟩
    exact (Journal.tended_durable _).good hgood
  · have htakes : (journal (some key) 3).Takes key "quote:accepted" _ none (⟨31⟩ : Message) :=
      takes_creationReply howner (by decide)
    exact (Journal.reservedLength_push_eq _).symm.trans_le htakes.length
  · intro entry hentry heq
    obtain ⟨n, hn, rfl⟩ := mem_journal.mp (Journal.mem_ephemeral.mp hentry).1
    have hne : n ≠ 31 := by omega
    exact hne (text_injective "message-" heq)

end CrowdedOutbox

end Outbox

end PubkySwap
