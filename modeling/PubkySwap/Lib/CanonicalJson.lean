import Mathlib

/-!
# Canonical JSON

A JSON value has many texts; the canonical one has no whitespace, writes an
object's members in the order of their keys' UTF-16 code units, escapes what has
to be escaped in one way, and holds integers only, none beyond `2 ^ 53 - 1`.

`write` is that text, or the number it refuses.  It is uniquely decodable:
two values with the same text have the same `normalize`d form, in which every
object is sorted (`write_injective`).  And it does not depend on the order in
which an object lists its members (`write_reorder`).  The two together say that a
text stands for one value up to that order.

The argument for the first goes through `print`, which writes a value as it
stands: no printed value is a proper prefix of another, provided what follows
cannot continue a number (`print_append_inj`).
-/

namespace CanonicalJson

/-- A number: an integer, or the text of anything else. -/
inductive Number where
  | int (n : ℤ)
  | float (text : String)
  deriving DecidableEq, Repr

/-- A JSON value; an object lists its members in some order. -/
inductive Value where
  | null
  | bool (b : Bool)
  | number (n : Number)
  | string (s : String)
  | array (items : List Value)
  | object (members : List (String × Value))

/-- Characters. -/
abbrev Text : Type := List Char

/-! ## Induction over values -/

mutual

/-- Induction with a hypothesis for each item and each member's value. -/
@[elab_as_elim, induction_eliminator]
theorem Value.induction {motive : Value → Prop} (null : motive .null)
    (bool : ∀ b, motive (.bool b)) (number : ∀ n, motive (.number n))
    (string : ∀ s, motive (.string s))
    (array : ∀ items, (∀ v ∈ items, motive v) → motive (.array items))
    (object : ∀ members, (∀ m ∈ members, motive m.2) → motive (.object members)) :
    ∀ v, motive v
  | .null => null
  | .bool b => bool b
  | .number n => number n
  | .string s => string s
  | .array items => array items (Value.induction_items null bool number string array object items)
  | .object members =>
      object members (Value.induction_members null bool number string array object members)

theorem Value.induction_items {motive : Value → Prop} (null : motive .null)
    (bool : ∀ b, motive (.bool b)) (number : ∀ n, motive (.number n))
    (string : ∀ s, motive (.string s))
    (array : ∀ items, (∀ v ∈ items, motive v) → motive (.array items))
    (object : ∀ members, (∀ m ∈ members, motive m.2) → motive (.object members)) :
    ∀ (items : List Value), ∀ v ∈ items, motive v
  | [] => nofun
  | item :: items => List.forall_mem_cons.mpr
      ⟨Value.induction null bool number string array object item,
        Value.induction_items null bool number string array object items⟩

theorem Value.induction_members {motive : Value → Prop} (null : motive .null)
    (bool : ∀ b, motive (.bool b)) (number : ∀ n, motive (.number n))
    (string : ∀ s, motive (.string s))
    (array : ∀ items, (∀ v ∈ items, motive v) → motive (.array items))
    (object : ∀ members, (∀ m ∈ members, motive m.2) → motive (.object members)) :
    ∀ (members : List (String × Value)), ∀ m ∈ members, motive m.2
  | [] => nofun
  | (_, value) :: members => List.forall_mem_cons.mpr
      ⟨Value.induction null bool number string array object value,
        Value.induction_members null bool number string array object members⟩

end

/-! ## The text of a value -/

/-- A character inside a string. -/
def escape (c : Char) : Text :=
  if c = '"' then ['\\', '"']
  else if c = '\\' then ['\\', '\\']
  else if c.toNat = 8 then ['\\', 'b']
  else if c.toNat = 9 then ['\\', 't']
  else if c.toNat = 10 then ['\\', 'n']
  else if c.toNat = 12 then ['\\', 'f']
  else if c.toNat = 13 then ['\\', 'r']
  else if c.toNat < 32 then
    ['\\', 'u', '0', '0', Nat.digitChar (c.toNat / 16), Nat.digitChar (c.toNat % 16)]
  else [c]

/-- A string in quotation marks. -/
def quoted (s : String) : Text := '"' :: s.toList.flatMap escape ++ ['"']

/-- An integer in decimal digits. -/
def intText : ℤ → Text
  | .ofNat n => Nat.toDigits 10 n
  | .negSucc n => '-' :: Nat.toDigits 10 (n + 1)

/-- Texts with a comma before each but the first. -/
def separated : List Text → Text
  | [] => []
  | text :: texts => text ++ texts.flatMap (',' :: ·)

/-- A member of an object. -/
def memberText (key : String) (text : Text) : Text := quoted key ++ ':' :: text

/-- The largest integer every implementation reads back. -/
def maxSafe : ℕ := 2 ^ 53 - 1

/-- Whether a number is written. -/
def Number.safe : Number → Bool
  | .int n => decide (n.natAbs ≤ maxSafe)
  | .float _ => false

/-- The text of a number, or the number it refuses. -/
def writeNumber (n : Number) : Except Number Text :=
  match n with
  | .int i => if i.natAbs ≤ maxSafe then .ok (intText i) else .error n
  | .float _ => .error n

/-- The UTF-16 code units of a character. -/
def utf16Units (c : Char) : List ℕ :=
  if c.toNat < 0x10000 then [c.toNat]
  else [0xd800 + (c.toNat - 0x10000) / 0x400, 0xdc00 + (c.toNat - 0x10000) % 0x400]

/-- The UTF-16 code units of a string. -/
def utf16 (s : String) : List ℕ := s.toList.flatMap utf16Units

/-- The order of keys. -/
def keyLe (a b : String) : Bool := decide (utf16 a ≤ utf16 b)

/-- An object's members in the order of their keys. -/
def sortMembers {α : Type} (members : List (String × α)) : List (String × α) :=
  members.insertionSort fun a b => keyLe a.1 b.1

/-- Every result, or the first error. -/
def collect {ε α : Type} : List (Except ε α) → Except ε (List α)
  | [] => .ok []
  | r :: rs => do
      let a ← r
      let as ← collect rs
      pure (a :: as)

mutual

/-- **The canonical text of a value**, or the first number it cannot hold. -/
def write : Value → Except Number Text
  | .null => .ok "null".toList
  | .bool true => .ok "true".toList
  | .bool false => .ok "false".toList
  | .number n => writeNumber n
  | .string s => .ok (quoted s)
  | .array items => do
      let texts ← collect (writeItems items)
      pure ('[' :: separated texts ++ [']'])
  | .object members => do
      let texts ← collect ((sortMembers (writeMembers members)).map fun m =>
        m.2.map (memberText m.1))
      pure ('{' :: separated texts ++ ['}'])

def writeItems : List Value → List (Except Number Text)
  | [] => []
  | item :: items => write item :: writeItems items

def writeMembers : List (String × Value) → List (String × Except Number Text)
  | [] => []
  | (key, value) :: members => (key, write value) :: writeMembers members

end

theorem writeItems_eq (items : List Value) : writeItems items = items.map write := by
  induction items with
  | nil => rfl
  | cons item items ih => rw [writeItems, ih, List.map_cons]

theorem writeMembers_eq (members : List (String × Value)) :
    writeMembers members = members.map fun m => (m.1, write m.2) := by
  induction members with
  | nil => rfl
  | cons m members ih =>
      obtain ⟨key, value⟩ := m
      rw [writeMembers, ih, List.map_cons]

/-- Sorting by key does not look at the values. -/
theorem sortMembers_map {α β : Type} (f : α → β) (members : List (String × α)) :
    sortMembers (members.map fun m => (m.1, f m.2)) =
      (sortMembers members).map fun m => (m.1, f m.2) := by
  symm
  exact List.map_insertionSort _ _ _ _ fun _ _ _ _ => Iff.rfl

theorem mem_sortMembers {α : Type} {m : String × α} {members : List (String × α)} :
    m ∈ sortMembers members ↔ m ∈ members :=
  List.mem_insertionSort _

theorem write_array (items : List Value) :
    write (.array items) =
      (collect (items.map write)).map fun texts => '[' :: separated texts ++ [']'] := by
  rw [write, writeItems_eq]
  cases collect (items.map write) <;> rfl

/-- The text of one member. -/
def writeMember (m : String × Value) : Except Number Text := (write m.2).map (memberText m.1)

theorem write_object (members : List (String × Value)) :
    write (.object members) = (collect ((sortMembers members).map writeMember)).map
      fun texts => '{' :: separated texts ++ ['}'] := by
  rw [write, writeMembers_eq, sortMembers_map, List.map_map]
  show (collect ((sortMembers members).map writeMember)).bind _ = _
  cases collect ((sortMembers members).map writeMember) <;> rfl

theorem map_eq_ok {ε α β : Type} {f : α → β} {x : Except ε α} {b : β} :
    x.map f = .ok b ↔ ∃ a, x = .ok a ∧ f a = b := by
  cases x <;> simp [Except.map]

/-! ## The form a text stands for -/

mutual

/-- A value with the members of every object sorted. -/
def normalize : Value → Value
  | .array items => .array (normalizeItems items)
  | .object members => .object (sortMembers (normalizeMembers members))
  | v => v

def normalizeItems : List Value → List Value
  | [] => []
  | item :: items => normalize item :: normalizeItems items

def normalizeMembers : List (String × Value) → List (String × Value)
  | [] => []
  | (key, value) :: members => (key, normalize value) :: normalizeMembers members

end

theorem normalizeItems_eq (items : List Value) : normalizeItems items = items.map normalize := by
  induction items with
  | nil => rfl
  | cons item items ih => rw [normalizeItems, ih, List.map_cons]

theorem normalizeMembers_eq (members : List (String × Value)) :
    normalizeMembers members = members.map fun m => (m.1, normalize m.2) := by
  induction members with
  | nil => rfl
  | cons m members ih =>
      obtain ⟨key, value⟩ := m
      rw [normalizeMembers, ih, List.map_cons]

mutual

/-- The text of a value as it stands. -/
def print : Value → Text
  | .null => "null".toList
  | .bool true => "true".toList
  | .bool false => "false".toList
  | .number (.int n) => intText n
  | .number (.float text) => text.toList
  | .string s => quoted s
  | .array items => '[' :: separated (printItems items) ++ [']']
  | .object members => '{' :: separated (printMembers members) ++ ['}']

def printItems : List Value → List Text
  | [] => []
  | item :: items => print item :: printItems items

def printMembers : List (String × Value) → List Text
  | [] => []
  | (key, value) :: members => memberText key (print value) :: printMembers members

end

theorem printItems_eq (items : List Value) : printItems items = items.map print := by
  induction items with
  | nil => rfl
  | cons item items ih => rw [printItems, ih, List.map_cons]

theorem printMembers_eq (members : List (String × Value)) :
    printMembers members = members.map fun m => memberText m.1 (print m.2) := by
  induction members with
  | nil => rfl
  | cons m members ih =>
      obtain ⟨key, value⟩ := m
      rw [printMembers, ih, List.map_cons]

/-- Every number in the value is safe. -/
inductive Accepted : Value → Prop where
  | null : Accepted .null
  | bool (b : Bool) : Accepted (.bool b)
  | number {n : Number} (h : n.safe = true) : Accepted (.number n)
  | string (s : String) : Accepted (.string s)
  | array {items : List Value} (h : ∀ v ∈ items, Accepted v) : Accepted (.array items)
  | object {members : List (String × Value)} (h : ∀ m ∈ members, Accepted m.2) :
      Accepted (.object members)

/-- What is collected, when every result is known. -/
theorem collect_map_eq_ok {ε α β : Type} {f : α → Except ε β} {g : α → β} {xs : List α}
    {ys : List β} (h : collect (xs.map f) = .ok ys)
    (hg : ∀ x ∈ xs, ∀ y, f x = .ok y → y = g x) :
    ys = xs.map g ∧ ∀ x ∈ xs, ∃ y, f x = .ok y := by
  induction xs generalizing ys with
  | nil =>
      cases h
      exact ⟨rfl, nofun⟩
  | cons x xs ih =>
      rw [List.map_cons, collect] at h
      cases hx : f x with
      | error e => rw [hx] at h; cases h
      | ok y =>
          cases hrest : collect (xs.map f) with
          | error e => rw [hx, hrest] at h; cases h
          | ok rest =>
              rw [hx, hrest] at h
              cases h
              obtain ⟨rfl, hall⟩ := ih hrest fun x hx => hg x (List.mem_cons_of_mem _ hx)
              rw [hg x (List.mem_cons_self ..) y hx, List.map_cons]
              exact ⟨rfl, List.forall_mem_cons.mpr ⟨⟨y, hx⟩, hall⟩⟩

/-- **What is written** is the normalized value as it stands, and every number in
it is safe. -/
theorem write_eq_ok {v : Value} {text : Text} (h : write v = .ok text) :
    Accepted v ∧ text = print (normalize v) := by
  induction v generalizing text with
  | null =>
      cases h
      exact ⟨.null, rfl⟩
  | bool b =>
      cases b <;> cases h <;> exact ⟨.bool _, rfl⟩
  | number n =>
      cases n with
      | float digits => cases h
      | int n =>
          rw [write, writeNumber] at h
          split at h
          · cases h
            exact ⟨.number (decide_eq_true ‹_›), rfl⟩
          · cases h
  | string s =>
      cases h
      exact ⟨.string s, rfl⟩
  | array items ih =>
      rw [write_array, map_eq_ok] at h
      obtain ⟨texts, hcollect, rfl⟩ := h
      obtain ⟨rfl, hall⟩ := collect_map_eq_ok (g := fun v => print (normalize v)) hcollect
        fun v hv t ht => (ih v hv ht).2
      refine ⟨.array fun v hv => ?_, ?_⟩
      · obtain ⟨t, ht⟩ := hall v hv
        exact (ih v hv ht).1
      · rw [normalize, print, printItems_eq, normalizeItems_eq, List.map_map]
        rfl
  | object members ih =>
      have hmember {m : String × Value} (hm : m ∈ members) {t : Text}
          (ht : writeMember m = .ok t) :
          Accepted m.2 ∧ t = memberText m.1 (print (normalize m.2)) := by
        obtain ⟨u, hu, rfl⟩ := map_eq_ok.mp ht
        obtain ⟨haccepted, rfl⟩ := ih m hm hu
        exact ⟨haccepted, rfl⟩
      rw [write_object, map_eq_ok] at h
      obtain ⟨texts, hcollect, rfl⟩ := h
      have htexts : ∀ m ∈ sortMembers members, ∀ t, writeMember m = .ok t →
          t = memberText m.1 (print (normalize m.2)) :=
        fun m hm t ht => (hmember (mem_sortMembers.mp hm) ht).2
      obtain ⟨rfl, hall⟩ := collect_map_eq_ok hcollect htexts
      refine ⟨.object fun m hm => ?_, ?_⟩
      · obtain ⟨t, ht⟩ := hall m (mem_sortMembers.mpr hm)
        exact (hmember hm ht).1
      · rw [normalize, print, printMembers_eq, normalizeMembers_eq, sortMembers_map,
          List.map_map]
        rfl

theorem collect_map_of_forall {ε α β : Type} {f : α → Except ε β} {xs : List α}
    (h : ∀ x ∈ xs, ∃ y, f x = .ok y) : ∃ ys, collect (xs.map f) = .ok ys := by
  induction xs with
  | nil => exact ⟨[], rfl⟩
  | cons x xs ih =>
      obtain ⟨y, hy⟩ := h x List.mem_cons_self
      obtain ⟨ys, hys⟩ := ih fun x' hx' => h x' (List.mem_cons_of_mem _ hx')
      refine ⟨y :: ys, ?_⟩
      rw [List.map_cons, collect, hy, hys]
      rfl

/-- **What is written at all** are the values whose numbers are safe. -/
theorem exists_write_iff {v : Value} : (∃ text, write v = .ok text) ↔ Accepted v := by
  refine ⟨fun ⟨text, h⟩ => (write_eq_ok h).1, fun h => ?_⟩
  induction h with
  | null => exact ⟨_, rfl⟩
  | bool b => cases b <;> exact ⟨_, rfl⟩
  | string s => exact ⟨_, rfl⟩
  | @number n h =>
      cases n with
      | float text => cases h
      | int n => exact ⟨intText n, if_pos (of_decide_eq_true h)⟩
  | array _ ih =>
      obtain ⟨texts, htexts⟩ := collect_map_of_forall ih
      exact ⟨_, by rw [write_array, htexts]; rfl⟩
  | @object members _ ih =>
      have hmembers : ∀ m ∈ sortMembers members, ∃ text, writeMember m = .ok text := by
        intro m hm
        obtain ⟨text, htext⟩ := ih m (mem_sortMembers.mp hm)
        exact ⟨_, by rw [writeMember, htext]; rfl⟩
      obtain ⟨texts, htexts⟩ := collect_map_of_forall hmembers
      exact ⟨_, by rw [write_object, htexts]; rfl⟩

/-- A sorted object holds what the object held. -/
theorem Accepted.normalize {v : Value} (h : Accepted v) : Accepted (normalize v) := by
  induction h with
  | null => exact .null
  | bool b => exact .bool b
  | number h => exact .number h
  | string s => exact .string s
  | array _ ih =>
      rw [CanonicalJson.normalize, normalizeItems_eq]
      exact .array (List.forall_mem_map.mpr ih)
  | object _ ih =>
      rw [CanonicalJson.normalize, normalizeMembers_eq, sortMembers_map]
      exact .object (List.forall_mem_map.mpr fun m hm => ih m (mem_sortMembers.mp hm))

/-! ## Strings are read back -/

/-- The number a hexadecimal digit stands for. -/
def hexValue (c : Char) : ℕ := if c.toNat < 58 then c.toNat - 48 else c.toNat - 87

theorem hexValue_digitChar {n : ℕ} (h : n < 16) : hexValue (Nat.digitChar n) = n := by
  revert n
  decide

/-- Read one character of a string, undoing `escape`. -/
def unescape : Text → Option (Char × Text)
  | '\\' :: 'b' :: rest => some (Char.ofNat 8, rest)
  | '\\' :: 't' :: rest => some (Char.ofNat 9, rest)
  | '\\' :: 'n' :: rest => some (Char.ofNat 10, rest)
  | '\\' :: 'f' :: rest => some (Char.ofNat 12, rest)
  | '\\' :: 'r' :: rest => some (Char.ofNat 13, rest)
  | '\\' :: 'u' :: _ :: _ :: high :: low :: rest =>
      some (Char.ofNat (16 * hexValue high + hexValue low), rest)
  | '\\' :: c :: rest => some (c, rest)
  | c :: rest => some (c, rest)
  | [] => none

theorem unescape_escape (c : Char) (rest : Text) :
    unescape (escape c ++ rest) = some (c, rest) := by
  have hback {n : ℕ} (h : c.toNat = n) : Char.ofNat n = c := by
    rw [← h, Char.ofNat_toNat]
  unfold escape
  split
  · next h => subst h; rfl
  split
  · next h => subst h; rfl
  split
  · next h => rw [← hback h]; rfl
  split
  · next h => rw [← hback h]; rfl
  split
  · next h => rw [← hback h]; rfl
  split
  · next h => rw [← hback h]; rfl
  split
  · next h => rw [← hback h]; rfl
  split
  · next h =>
      have hdigits : 16 * hexValue (Nat.digitChar (c.toNat / 16)) +
          hexValue (Nat.digitChar (c.toNat % 16)) = c.toNat := by
        rw [hexValue_digitChar (by omega), hexValue_digitChar (by omega)]
        omega
      show some (Char.ofNat _, rest) = _
      rw [hdigits, Char.ofNat_toNat]
  · next hslash _ _ _ _ _ _ =>
      rw [List.singleton_append]
      unfold unescape
      split <;> simp_all

/-- No escaped character is a quotation mark. -/
theorem escape_ne_quote (c : Char) (s t : Text) : escape c ++ s ≠ '"' :: t := by
  unfold escape
  split
  · simp
  repeat' split
  all_goals simp_all

theorem escape_append_inj {c d : Char} {s t : Text} (h : escape c ++ s = escape d ++ t) :
    c = d ∧ s = t := by
  have hread := unescape_escape c s
  rw [h, unescape_escape d t] at hread
  cases hread
  exact ⟨rfl, rfl⟩

theorem flatMap_escape_append_inj {cs ds s t : Text}
    (h : cs.flatMap escape ++ '"' :: s = ds.flatMap escape ++ '"' :: t) : cs = ds ∧ s = t := by
  induction cs generalizing ds with
  | nil =>
      cases ds with
      | nil =>
          cases h
          exact ⟨rfl, rfl⟩
      | cons d ds =>
          rw [List.flatMap_cons, List.append_assoc] at h
          exact absurd h.symm (escape_ne_quote d _ _)
  | cons c cs ih =>
      rw [List.flatMap_cons, List.append_assoc] at h
      cases ds with
      | nil => exact absurd h (escape_ne_quote c _ _)
      | cons d ds =>
          rw [List.flatMap_cons, List.append_assoc] at h
          obtain ⟨rfl, hrest⟩ := escape_append_inj h
          obtain ⟨rfl, rfl⟩ := ih hrest
          exact ⟨rfl, rfl⟩

/-- A quoted string ends where it ends, whatever follows. -/
theorem quoted_append_inj {a b : String} {s t : Text} (h : quoted a ++ s = quoted b ++ t) :
    a = b ∧ s = t := by
  simp only [quoted, List.cons_append, List.append_assoc, List.nil_append, List.cons.injEq,
    true_and] at h
  obtain ⟨hchars, rfl⟩ := flatMap_escape_append_inj h
  exact ⟨String.toList_injective hchars, rfl⟩

/-! ## Numbers are read back -/

/-- The characters of an integer. -/
def numeric (c : Char) : Bool := c.isDigit || c == '-'

/-- What may follow a value: nothing that could continue a number. -/
def Delimited (s : Text) : Prop := ∀ c ∈ s.head?, numeric c = false

theorem numeric_of_mem_intText {n : ℤ} {c : Char} (h : c ∈ intText n) : numeric c = true := by
  have hdigit {m : ℕ} (h : c ∈ Nat.toDigits 10 m) : numeric c = true := by
    rw [numeric, Nat.isDigit_of_mem_toDigits (by decide) (by decide) h, Bool.true_or]
  cases n with
  | ofNat n => exact hdigit h
  | negSucc n =>
      rcases List.mem_cons.mp h with rfl | h
      · rfl
      · exact hdigit h

theorem intText_ne_nil (n : ℤ) : intText n ≠ [] := by
  cases n with
  | ofNat n => exact Nat.toDigits_ne_nil
  | negSucc n => exact List.cons_ne_nil _ _

theorem toDigits_injective {m n : ℕ} (h : Nat.toDigits 10 m = Nat.toDigits 10 n) : m = n := by
  rw [← Nat.ofDigitChars_ten_toDigits (n := m), h, Nat.ofDigitChars_ten_toDigits]

theorem intText_injective {m n : ℤ} (h : intText m = intText n) : m = n := by
  have hsign (a b : ℕ) : Nat.toDigits 10 a ≠ '-' :: Nat.toDigits 10 (b + 1) := by
    intro heq
    have hdigit : '-'.isDigit = true :=
      Nat.isDigit_of_mem_toDigits (b := 10) (n := a) (by decide) (by decide)
        (heq ▸ List.mem_cons_self ..)
    exact absurd hdigit (by decide)
  cases m with
  | ofNat m =>
      cases n with
      | ofNat n => rw [toDigits_injective h]
      | negSucc n => exact absurd h (hsign m n)
  | negSucc m =>
      cases n with
      | ofNat n => exact absurd h.symm (hsign n m)
      | negSucc n =>
          rw [Nat.succ_injective (toDigits_injective (List.cons_injective h))]

theorem takeWhile_append_delimited {digits s : Text} (hdigits : ∀ c ∈ digits, numeric c = true)
    (hs : Delimited s) : (digits ++ s).takeWhile numeric = digits := by
  rw [List.takeWhile_append_of_pos hdigits]
  cases s with
  | nil => rw [List.takeWhile_nil, List.append_nil]
  | cons c s => rw [List.takeWhile_cons_of_neg (by rw [hs c rfl]; exact Bool.false_ne_true),
      List.append_nil]

theorem intText_append_inj {m n : ℤ} {s t : Text} (hs : Delimited s) (ht : Delimited t)
    (h : intText m ++ s = intText n ++ t) : m = n ∧ s = t := by
  have htake := congrArg (List.takeWhile numeric) h
  rw [takeWhile_append_delimited (fun _ => numeric_of_mem_intText) hs,
    takeWhile_append_delimited (fun _ => numeric_of_mem_intText) ht] at htake
  rw [htake] at h
  exact ⟨intText_injective htake, List.append_cancel_left h⟩

/-! ## Values are read back -/

/-- What a character at the start of a text announces. -/
inductive Kind where
  | null
  | bool
  | number
  | string
  | array
  | object
  | other
  deriving DecidableEq

def Kind.of (c : Char) : Kind :=
  if numeric c then .number
  else if c = 'n' then .null
  else if c = 't' ∨ c = 'f' then .bool
  else if c = '"' then .string
  else if c = '[' then .array
  else if c = '{' then .object
  else .other

def Value.kind : Value → Kind
  | .null => .null
  | .bool _ => .bool
  | .number _ => .number
  | .string _ => .string
  | .array _ => .array
  | .object _ => .object

/-- The first character announces the value. -/
theorem print_eq_cons {v : Value} (h : Accepted v) :
    ∃ c rest, print v = c :: rest ∧ Kind.of c = v.kind := by
  cases h with
  | null => exact ⟨_, _, rfl, rfl⟩
  | bool b => cases b <;> exact ⟨_, _, rfl, rfl⟩
  | string s => exact ⟨_, _, rfl, rfl⟩
  | array h => exact ⟨_, _, rfl, rfl⟩
  | object h => exact ⟨_, _, rfl, rfl⟩
  | number h =>
      rename_i n
      cases n with
      | float text => cases h
      | int n =>
          obtain ⟨c, rest, htext⟩ := List.exists_cons_of_ne_nil (intText_ne_nil n)
          have hc : numeric c = true := numeric_of_mem_intText (htext ▸ List.mem_cons_self ..)
          exact ⟨c, rest, htext, if_pos hc⟩

/-- `x` is read back from its text among those of good values. -/
def ReadBack {α : Type} (f : α → Text) (good : α → Prop) (x : α) : Prop :=
  ∀ y, good y → ∀ s t, Delimited s → Delimited t → f x ++ s = f y ++ t → x = y ∧ s = t

section

variable {α : Type} {f : α → Text} {good : α → Prop} {close : Char} {xs ys : List α} {s t : Text}

theorem delimited_cons {c : Char} (h : numeric c = false) (s : Text) : Delimited (c :: s) := by
  rintro _ ⟨⟩
  exact h

theorem delimited_flatMap_comma (h : numeric close = false) (xs : List α) (s : Text) :
    Delimited (xs.flatMap (fun x => ',' :: f x) ++ close :: s) := by
  cases xs with
  | nil => exact delimited_cons h s
  | cons x xs => exact delimited_cons rfl _

theorem flatMap_comma_append_inj (hcomma : close ≠ ',') (hclose : numeric close = false)
    (hxs : ∀ x ∈ xs, ReadBack f good x) (hys : ∀ y ∈ ys, good y)
    (h : xs.flatMap (fun x => ',' :: f x) ++ close :: s =
      ys.flatMap (fun y => ',' :: f y) ++ close :: t) : xs = ys ∧ s = t := by
  induction xs generalizing ys with
  | nil =>
      cases ys with
      | nil => exact ⟨rfl, (List.cons.inj h).2⟩
      | cons y ys => exact absurd (List.cons.inj h).1 hcomma
  | cons x xs ih =>
      cases ys with
      | nil => exact absurd (List.cons.inj h).1.symm hcomma
      | cons y ys =>
          obtain ⟨hx, hxs⟩ := List.forall_mem_cons.mp hxs
          obtain ⟨hy, hys'⟩ := List.forall_mem_cons.mp hys
          rw [List.flatMap_cons, List.flatMap_cons, List.append_assoc, List.append_assoc] at h
          obtain ⟨rfl, hrest⟩ := hx y hy _ _ (delimited_flatMap_comma hclose xs s)
            (delimited_flatMap_comma hclose ys t) (List.cons.inj h).2
          obtain ⟨rfl, rfl⟩ := ih hxs hys' hrest
          exact ⟨rfl, rfl⟩

/-- A list in brackets is read back if its entries are, none of which begins with
the closing bracket. -/
theorem separated_append_inj (hcomma : close ≠ ',') (hclose : numeric close = false)
    (hxs : ∀ x ∈ xs, ReadBack f good x) (hys : ∀ y ∈ ys, good y)
    (hstart : ∀ x, x ∈ xs ∨ x ∈ ys → ∀ s t, f x ++ s ≠ close :: t)
    (h : separated (xs.map f) ++ close :: s = separated (ys.map f) ++ close :: t) :
    xs = ys ∧ s = t := by
  cases xs with
  | nil =>
      cases ys with
      | nil => exact ⟨rfl, (List.cons.inj h).2⟩
      | cons y ys =>
          rw [List.map_cons, separated, List.append_assoc] at h
          exact absurd h.symm (hstart y (Or.inr (List.mem_cons_self ..)) _ _)
  | cons x xs =>
      rw [List.map_cons, separated, List.append_assoc, List.flatMap_map] at h
      cases ys with
      | nil => exact absurd h (hstart x (Or.inl (List.mem_cons_self ..)) _ _)
      | cons y ys =>
          obtain ⟨hx, hxs⟩ := List.forall_mem_cons.mp hxs
          obtain ⟨hy, hys'⟩ := List.forall_mem_cons.mp hys
          rw [List.map_cons, separated, List.append_assoc, List.flatMap_map] at h
          obtain ⟨rfl, hrest⟩ := hx y hy _ _ (delimited_flatMap_comma hclose xs s)
            (delimited_flatMap_comma hclose ys t) h
          obtain ⟨rfl, rfl⟩ := flatMap_comma_append_inj hcomma hclose hxs hys' hrest
          exact ⟨rfl, rfl⟩

end

/-- A value does not begin like a closing bracket. -/
theorem print_append_ne_close {v : Value} (h : Accepted v) {close : Char}
    (hclose : Kind.of close = .other) (s t : Text) : print v ++ s ≠ close :: t := by
  obtain ⟨c, rest, htext, hkind⟩ := print_eq_cons h
  rw [htext, List.cons_append]
  intro heq
  rw [(List.cons.inj heq).1, hclose] at hkind
  cases v <;> cases hkind

/-- A member is read back if its value is. -/
theorem readBack_member {m : String × Value} (h : ReadBack print Accepted m.2) :
    ReadBack (fun m : String × Value => memberText m.1 (print m.2)) (fun m => Accepted m.2) m := by
  rintro ⟨key, value⟩ hvalue s t hs ht heq
  simp only [memberText, List.append_assoc, List.cons_append] at heq
  obtain ⟨hkey, hrest⟩ := quoted_append_inj heq
  obtain ⟨rfl, rfl⟩ := h value hvalue s t hs ht (List.cons.inj hrest).2
  exact ⟨Prod.ext hkey rfl, rfl⟩

/-- Texts that agree begin values of one kind. -/
theorem kind_eq_of_append {v w : Value} (hv : Accepted v) (hw : Accepted w) {s t : Text}
    (h : print v ++ s = print w ++ t) : v.kind = w.kind := by
  obtain ⟨c, rest, hc, hckind⟩ := print_eq_cons hv
  obtain ⟨d, rest', hd, hdkind⟩ := print_eq_cons hw
  rw [hc, hd] at h
  rw [← hckind, ← hdkind, (List.cons.inj h).1]

/-- **A printed value is read back**: it is no proper prefix of another, whatever
follows them. -/
theorem print_append_inj {v : Value} (hv : Accepted v) : ReadBack print Accepted v := by
  induction v with
  | null =>
      intro w hw s t _ _ h
      have hkind := kind_eq_of_append hv hw h
      cases w with
      | null => exact ⟨rfl, List.append_cancel_left h⟩
      | _ => cases hkind
  | bool b =>
      intro w hw s t _ _ h
      have hkind := kind_eq_of_append hv hw h
      cases w with
      | bool c =>
          -- the first letters tell the two apart
          cases b <;> cases c
          · exact ⟨rfl, List.append_cancel_left h⟩
          · exact absurd (List.cons.inj h).1 (by decide)
          · exact absurd (List.cons.inj h).1 (by decide)
          · exact ⟨rfl, List.append_cancel_left h⟩
      | _ => cases hkind
  | number n =>
      intro w hw s t hs ht h
      have hkind := kind_eq_of_append hv hw h
      cases w with
      | number m =>
          rcases hv with _ | _ | hn
          rcases hw with _ | _ | hm
          -- a float is not accepted, and a number ends where its digits do
          cases n with
          | float text => cases hn
          | int n =>
              cases m with
              | float text => cases hm
              | int m =>
                  obtain ⟨rfl, rfl⟩ := intText_append_inj hs ht h
                  exact ⟨rfl, rfl⟩
      | _ => cases hkind
  | string a =>
      intro w hw s t _ _ h
      have hkind := kind_eq_of_append hv hw h
      cases w with
      | string b =>
          obtain ⟨rfl, rfl⟩ := quoted_append_inj h
          exact ⟨rfl, rfl⟩
      | _ => cases hkind
  | array items ih =>
      intro w hw s t _ _ h
      have hkind := kind_eq_of_append hv hw h
      cases w with
      | array items' =>
          rcases hv with _ | _ | _ | _ | hv
          rcases hw with _ | _ | _ | _ | hw
          simp only [print, printItems_eq, List.cons_append, List.append_assoc, List.nil_append,
            List.cons.injEq, true_and] at h
          -- the items are read back one after the other; none begins with the closing bracket
          obtain ⟨rfl, rfl⟩ := separated_append_inj (by decide) (by decide)
            (fun v hmem => ih v hmem (hv v hmem)) hw
            (fun v hmem => print_append_ne_close (hmem.elim (hv v) (hw v)) (by decide)) h
          exact ⟨rfl, rfl⟩
      | _ => cases hkind
  | object members ih =>
      intro w hw s t _ _ h
      have hkind := kind_eq_of_append hv hw h
      cases w with
      | object members' =>
          rcases hv with _ | _ | _ | _ | _ | hv
          rcases hw with _ | _ | _ | _ | _ | hw
          simp only [print, printMembers_eq, List.cons_append, List.append_assoc, List.nil_append,
            List.cons.injEq, true_and] at h
          obtain ⟨rfl, rfl⟩ := separated_append_inj (by decide) (by decide)
            (fun m hmem => readBack_member (ih m hmem (hv m hmem))) hw
            (fun m _ s t heq => absurd (List.cons.inj heq).1 (by decide)) h
          exact ⟨rfl, rfl⟩
      | _ => cases hkind

/-- **The canonical text determines the value**, up to the order of members. -/
theorem write_injective {v w : Value} {text : Text} (hv : write v = .ok text)
    (hw : write w = .ok text) : normalize v = normalize w := by
  obtain ⟨hav, rfl⟩ := write_eq_ok hv
  obtain ⟨haw, heq⟩ := write_eq_ok hw
  have hnil : Delimited [] := nofun
  refine (print_append_inj hav.normalize _ haw.normalize [] [] hnil hnil ?_).1
  rw [heq]

/-! ## The order of members -/

/-- Two values that list the members of their objects in different orders. -/
inductive Reorder : Value → Value → Prop where
  | refl (v : Value) : Reorder v v
  | trans {u v w : Value} : Reorder u v → Reorder v w → Reorder u w
  | item {v w : Value} (before after : List Value) : Reorder v w →
      Reorder (.array (before ++ v :: after)) (.array (before ++ w :: after))
  | member {v w : Value} (before after : List (String × Value)) (key : String) : Reorder v w →
      Reorder (.object (before ++ (key, v) :: after)) (.object (before ++ (key, w) :: after))
  | permute {members members' : List (String × Value)} : (members.map Prod.fst).Nodup →
      members.Perm members' → Reorder (.object members) (.object members')

/-- A character is read back from its code units. -/
theorem utf16Units_append_inj {c d : Char} {s t : List ℕ}
    (h : utf16Units c ++ s = utf16Units d ++ t) : c = d ∧ s = t := by
  have hvalid (c : Char) : c.toNat < 0xd800 ∨ 0xdfff < c.toNat ∧ c.toNat < 0x110000 := c.valid
  have hc := hvalid c
  have hd := hvalid d
  suffices heq : c.toNat = d.toNat ∧ s = t by
    exact ⟨Char.toNat_inj.mp heq.1, heq.2⟩
  unfold utf16Units at h
  split at h <;> split at h <;>
    simp only [List.cons_append, List.nil_append, List.cons.injEq] at h
  · exact h
  · omega
  · omega
  · exact ⟨by omega, h.2.2⟩

theorem utf16_injective {a b : String} (h : utf16 a = utf16 b) : a = b := by
  suffices hlist : ∀ {cs ds : Text}, cs.flatMap utf16Units = ds.flatMap utf16Units → cs = ds from
    String.toList_injective (hlist h)
  intro cs
  induction cs with
  | nil =>
      intro ds h
      cases ds with
      | nil => rfl
      | cons d ds =>
          rw [List.flatMap_cons, utf16Units] at h
          split at h <;> cases h
  | cons c cs ih =>
      intro ds h
      cases ds with
      | nil =>
          rw [List.flatMap_cons, utf16Units] at h
          split at h <;> cases h
      | cons d ds =>
          obtain ⟨rfl, hrest⟩ := utf16Units_append_inj h
          rw [ih hrest]

/-- Members with distinct keys have one sorted order. -/
theorem sortMembers_perm {α : Type} {members members' : List (String × α)}
    (hkeys : (members.map Prod.fst).Nodup) (h : members.Perm members') :
    sortMembers members = sortMembers members' := by
  have hsorted (members : List (String × α)) :
      (sortMembers members).Pairwise fun a b => keyLe a.1 b.1 := by
    have htrans : IsTrans (String × α) fun a b => keyLe a.1 b.1 :=
      ⟨fun _ _ _ hab hbc =>
        decide_eq_true ((of_decide_eq_true hab).trans (of_decide_eq_true hbc))⟩
    have htotal : Std.Total (α := String × α) fun a b => keyLe a.1 b.1 :=
      ⟨fun a b => (le_total (utf16 a.1) (utf16 b.1)).imp decide_eq_true decide_eq_true⟩
    exact List.pairwise_insertionSort _ members
  have hperm : (sortMembers members).Perm (sortMembers members') :=
    (List.perm_insertionSort _ _).trans (h.trans (List.perm_insertionSort _ _).symm)
  refine hperm.eq_of_pairwise ?_ (hsorted members) (hsorted members')
  intro a b ha hb hab hba
  have hkey : a.1 = b.1 :=
    utf16_injective (le_antisymm (of_decide_eq_true hab) (of_decide_eq_true hba))
  have hb' : b ∈ members := h.mem_iff.mpr (mem_sortMembers.mp hb)
  exact List.inj_on_of_nodup_map hkeys (mem_sortMembers.mp ha) hb' hkey

/-- **The canonical text does not depend on the order of members.** -/
theorem write_reorder {v w : Value} (h : Reorder v w) : write v = write w := by
  induction h with
  | refl v => rfl
  | trans _ _ ih₁ ih₂ => exact ih₁.trans ih₂
  | item before after _ ih =>
      rw [write_array, write_array, List.map_append, List.map_append, List.map_cons, List.map_cons,
        ih]
  | member before after key _ ih =>
      rw [write, write, writeMembers_eq, writeMembers_eq, List.map_append, List.map_append,
        List.map_cons, List.map_cons, ih]
  | permute hkeys hperm => rw [write_object, write_object, sortMembers_perm hkeys hperm]

theorem Reorder.symm {v w : Value} (h : Reorder v w) : Reorder w v := by
  induction h with
  | refl v => exact .refl v
  | trans _ _ ih₁ ih₂ => exact ih₂.trans ih₁
  | item before after _ ih => exact ih.item before after
  | member before after key _ ih => exact ih.member before after key
  | permute hkeys hperm => exact .permute ((hperm.map Prod.fst).nodup_iff.mp hkeys) hperm.symm

theorem reorder_items {f : Value → Value} {items : List Value}
    (h : ∀ v ∈ items, Reorder v (f v)) (before : List Value) :
    Reorder (.array (before ++ items)) (.array (before ++ items.map f)) := by
  induction items generalizing before with
  | nil => exact .refl _
  | cons v items ih =>
      obtain ⟨hv, hitems⟩ := List.forall_mem_cons.mp h
      have hrest := ih hitems (before ++ [f v])
      rw [List.append_assoc, List.append_assoc] at hrest
      exact (hv.item before items).trans hrest

theorem reorder_members {f : Value → Value} {members : List (String × Value)}
    (h : ∀ m ∈ members, Reorder m.2 (f m.2)) (before : List (String × Value)) :
    Reorder (.object (before ++ members))
      (.object (before ++ members.map fun m => (m.1, f m.2))) := by
  induction members generalizing before with
  | nil => exact .refl _
  | cons m members ih =>
      obtain ⟨hm, hmembers⟩ := List.forall_mem_cons.mp h
      have hrest := ih hmembers (before ++ [(m.1, f m.2)])
      rw [List.append_assoc, List.append_assoc] at hrest
      exact (hm.member before members m.1).trans hrest

/-- No object of the value has two members with one key. -/
inductive DistinctKeys : Value → Prop where
  | null : DistinctKeys .null
  | bool (b : Bool) : DistinctKeys (.bool b)
  | number (n : Number) : DistinctKeys (.number n)
  | string (s : String) : DistinctKeys (.string s)
  | array {items : List Value} (h : ∀ v ∈ items, DistinctKeys v) : DistinctKeys (.array items)
  | object {members : List (String × Value)} (hkeys : (members.map Prod.fst).Nodup)
      (h : ∀ m ∈ members, DistinctKeys m.2) : DistinctKeys (.object members)

theorem reorder_normalize {v : Value} (h : DistinctKeys v) : Reorder v (normalize v) := by
  induction h with
  | null => exact .refl _
  | bool b => exact .refl _
  | number n => exact .refl _
  | string s => exact .refl _
  | array _ ih =>
      rw [normalize, normalizeItems_eq]
      exact reorder_items ih []
  | object hkeys _ ih =>
      rw [normalize, normalizeMembers_eq]
      refine (reorder_members ih []).trans (.permute ?_ (List.perm_insertionSort _ _).symm)
      rw [List.nil_append, List.map_map]
      exact hkeys

/-- **A text stands for one value**, up to the order in which objects list their
members. -/
theorem write_eq_iff_reorder {v w : Value} {text : Text} (hv : DistinctKeys v)
    (hw : DistinctKeys w) (htext : write v = .ok text) : write w = .ok text ↔ Reorder v w := by
  constructor
  · intro hwtext
    have hnormal := write_injective htext hwtext
    exact (reorder_normalize hv).trans (hnormal ▸ (reorder_normalize hw).symm)
  · intro h
    rw [← write_reorder h, htext]

/-! ## Fields

Two objects with one normalized form say the same under every key. -/

/-- Equality up to the order of members. -/
def Same (v w : Value) : Prop := normalize v = normalize w

/-- What an object says under a key: nothing, or one value. -/
def Says (members : List (String × Value)) (key : String) (x : Option Value) : Prop :=
  ∀ v, (key, v) ∈ members ↔ x = some v

/-- A member that is left out when there is nothing to say. -/
def optional (key : String) (x : Option Value) : List (String × Value) :=
  x.toList.map fun v => (key, v)

@[simp] theorem mem_optional {key key' : String} {x : Option Value} {v : Value} :
    (key', v) ∈ optional key x ↔ key' = key ∧ x = some v := by
  rw [optional, List.mem_map]
  constructor
  · rintro ⟨w, hw, heq⟩
    cases heq
    exact ⟨rfl, Option.mem_toList.mp hw⟩
  · rintro ⟨rfl, hx⟩
    exact ⟨v, Option.mem_toList.mpr hx, rfl⟩

section

variable {members members' : List (String × Value)} {key : String} {x y : Option Value}
  {v w : Value}

theorem mem_of_normalize_eq (h : Same (.object members) (.object members'))
    (hmem : (key, v) ∈ members) : ∃ w, (key, w) ∈ members' ∧ normalize w = normalize v := by
  unfold Same at h
  rw [normalize, normalize, normalizeMembers_eq, normalizeMembers_eq, Value.object.injEq] at h
  have hnormal : (key, normalize v) ∈ members'.map fun m => (m.1, normalize m.2) := by
    rw [← mem_sortMembers, ← h, mem_sortMembers]
    exact List.mem_map_of_mem hmem
  obtain ⟨⟨key', w⟩, hmem', heq⟩ := List.mem_map.mp hnormal
  obtain ⟨rfl, hvalue⟩ := Prod.mk.inj heq
  exact ⟨w, hmem', hvalue⟩

/-- **Fields agree.** -/
theorem Same.field (h : Same (.object members) (.object members')) (key : String)
    (hx : Says members key x) (hy : Says members' key y) : x.map normalize = y.map normalize := by
  have hsymm : Same (.object members') (.object members) := Eq.symm h
  cases x with
  | some v =>
      obtain ⟨w, hmem, hw⟩ := mem_of_normalize_eq h ((hx v).mpr rfl)
      rw [(hy w).mp hmem, Option.map_some, Option.map_some, hw]
  | none =>
      cases y with
      | none => rfl
      | some w =>
          obtain ⟨v, hmem, -⟩ := mem_of_normalize_eq hsymm ((hy w).mpr rfl)
          cases (hx v).mp hmem

end

/-! ## Records -/

/-- An object with a member for each field that has a value. -/
def record (fields : List (String × Option Value)) : Value :=
  .object (fields.flatMap fun field => optional field.1 field.2)

attribute [simp] Accepted.null Accepted.string

@[simp] theorem accepted_int {n : ℤ} : Accepted (.number (.int n)) ↔ n.natAbs ≤ maxSafe := by
  constructor
  · rintro ⟨⟩
    exact of_decide_eq_true ‹_›
  · exact fun h => .number (decide_eq_true h)

@[simp] theorem accepted_record {fields : List (String × Option Value)} :
    Accepted (record fields) ↔ ∀ field ∈ fields, ∀ v ∈ field.2, Accepted v := by
  constructor
  · rintro ⟨⟩ field hfield v hv
    rename_i h
    exact h (field.1, v) (List.mem_flatMap.mpr ⟨field, hfield, mem_optional.mpr ⟨rfl, hv⟩⟩)
  · refine fun h => .object fun ⟨key, v⟩ hm => ?_
    obtain ⟨field, hfield, hm⟩ := List.mem_flatMap.mp hm
    exact h field hfield v (mem_optional.mp hm).2

/-- The text form of a value tells everything about it. -/
def Faithful {α : Type} (f : α → Value) : Prop := ∀ a b, Same (f a) (f b) → a = b

theorem says_record {fields : List (String × Option Value)} (hkeys : (fields.map Prod.fst).Nodup)
    {key : String} {x : Option Value} (h : (key, x) ∈ fields) :
    Says (fields.flatMap fun field => optional field.1 field.2) key x := by
  intro v
  rw [List.mem_flatMap]
  constructor
  · rintro ⟨⟨key', y⟩, hmem, hv⟩
    obtain ⟨rfl, hy⟩ := mem_optional.mp hv
    have hsame : (key, x) = (key, y) := List.inj_on_of_nodup_map hkeys h hmem rfl
    cases hsame
    exact hy
  · intro hx
    exact ⟨(key, x), h, mem_optional.mpr ⟨rfl, hx⟩⟩

/-- **Records that read the same have the same fields.** -/
theorem Same.record {fields fields' : List (String × Option Value)}
    (h : Same (record fields) (record fields')) (hkeys : (fields.map Prod.fst).Nodup)
    (hfields : fields.map Prod.fst = fields'.map Prod.fst) :
    fields.map (fun field => field.2.map normalize) =
      fields'.map (fun field => field.2.map normalize) := by
  have hlength : fields.length = fields'.length := by
    simpa using congrArg List.length hfields
  apply List.ext_getElem
  · rw [List.length_map, List.length_map, hlength]
  · intro i hi hi'
    rw [List.length_map] at hi hi'
    have hkey : fields[i].1 = fields'[i].1 := by
      simpa [hi, hi'] using congrArg (fun keys => keys[i]?) hfields
    rw [List.getElem_map, List.getElem_map]
    refine h.field fields[i].1 (says_record hkeys (List.getElem_mem hi)) ?_
    rw [hkey]
    exact says_record (hfields ▸ hkeys) (List.getElem_mem hi')

theorem faithful_string : Faithful Value.string := by
  intro a b h
  exact Value.string.inj h

theorem faithful_nat : Faithful fun n : ℕ => Value.number (.int n) := by
  intro m n h
  exact Int.ofNat.inj (Number.int.inj (Value.number.inj h))

theorem Faithful.comp {α β : Type} {f : β → Value} (hf : Faithful f) {g : α → β}
    (hg : Function.Injective g) : Faithful (f ∘ g) := by
  intro a b h
  exact hg (hf _ _ h)

/-- A field that is always there. -/
theorem Faithful.present {α : Type} {f : α → Value} (hf : Faithful f) {a b : α}
    (h : normalize (f a) = normalize (f b)) : a = b :=
  hf a b h

/-- A field that is left out when there is nothing to say. -/
theorem Faithful.skipped {α : Type} {f : α → Value} (hf : Faithful f) {a b : Option α}
    (h : (a.map f).map normalize = (b.map f).map normalize) : a = b := by
  rw [Option.map_map, Option.map_map] at h
  exact Option.map_injective (fun x y hxy => hf x y hxy) h

end CanonicalJson
