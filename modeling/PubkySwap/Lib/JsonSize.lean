import PubkySwap.Lib.CanonicalJson

/-!
# The size of a JSON text

The number of bytes that the text of a value takes in UTF-8.  It is a sum over the
members of an object and the items of an array, each with its comma, and the decimal
digits of a word are bounded by its width.
-/

namespace CanonicalJson

/-! ## Bytes of a text -/

/-- The number of bytes of a text in UTF-8. -/
def utf8Length (text : Text) : ℕ := (text.map Char.utf8Size).sum

@[simp] theorem utf8Length_nil : utf8Length [] = 0 := rfl

@[simp] theorem utf8Length_cons (c : Char) (text : Text) :
    utf8Length (c :: text) = c.utf8Size + utf8Length text := by
  simp [utf8Length]

@[simp] theorem utf8Length_append (s t : Text) :
    utf8Length (s ++ t) = utf8Length s + utf8Length t := by
  simp [utf8Length]

/-- A digit takes one byte. -/
theorem utf8Length_toDigits (n : ℕ) :
    utf8Length (Nat.toDigits 10 n) = (Nat.toDigits 10 n).length := by
  have hsize : ∀ c ∈ Nat.toDigits 10 n, c.utf8Size = 1 := by
    intro c hc
    have hdigit := Nat.isDigit_of_mem_toDigits (by decide) (by decide) hc
    simp only [Char.isDigit, Bool.and_eq_true, decide_eq_true_eq] at hdigit
    exact Char.utf8Size_eq_one_iff.mpr
      (UInt32.le_trans hdigit.2 (show (57 : UInt32) ≤ 127 by decide))
  rw [utf8Length, List.map_congr_left hsize, List.map_const', List.sum_replicate, smul_eq_mul,
    mul_one]

/-- Every text but the first comes with a comma. -/
theorem utf8Length_separated (texts : List Text) :
    utf8Length (separated texts) = (texts.map fun text => utf8Length text + 1).sum - 1 := by
  have hcommas (texts : List Text) : utf8Length (texts.flatMap (',' :: ·)) =
      (texts.map fun text => utf8Length text + 1).sum := by
    induction texts with
    | nil => rfl
    | cons text texts ih =>
        have hcomma : ','.utf8Size = 1 := by decide
        rw [List.flatMap_cons, utf8Length_append, utf8Length_cons, ih, List.map_cons,
          List.sum_cons, hcomma]
        omega
  cases texts with
  | nil => rfl
  | cons text texts =>
      rw [separated, utf8Length_append, hcommas, List.map_cons, List.sum_cons]
      omega

/-! ## Bytes of a value -/

/-- The number of bytes of a value's text as it stands. -/
def Value.byteLength (v : Value) : ℕ := utf8Length (print v)

/-- The number of bytes a member takes in an object, with a comma. -/
def memberLength (m : String × Value) : ℕ := utf8Length (quoted m.1) + m.2.byteLength + 2

theorem Value.byteLength_array (items : List Value) :
    (Value.array items).byteLength = (items.map fun v => v.byteLength + 1).sum - 1 + 2 := by
  have hopen : '['.utf8Size = 1 := by decide
  have hclose : ']'.utf8Size = 1 := by decide
  rw [byteLength, print, List.cons_append, utf8Length_cons, utf8Length_append,
    utf8Length_separated, printItems_eq, List.map_map, utf8Length_cons, utf8Length_nil, hopen,
    hclose]
  show 1 + ((items.map fun v => v.byteLength + 1).sum - 1 + (1 + 0)) = _
  omega

/-- Copies of one item. -/
theorem Value.byteLength_array_replicate (n : ℕ) (v : Value) :
    (Value.array (List.replicate n v)).byteLength = n * (v.byteLength + 1) - 1 + 2 := by
  rw [byteLength_array, List.map_replicate, List.sum_replicate_nat]

theorem Value.byteLength_array_le {items : List Value} {k : ℕ}
    (h : ∀ v ∈ items, v.byteLength ≤ k) :
    (Value.array items).byteLength ≤ items.length * (k + 1) + 2 := by
  have hsum : (items.map fun v => v.byteLength + 1).sum ≤ items.length * (k + 1) := by
    induction items with
    | nil => simp
    | cons v items ih =>
        obtain ⟨hv, hitems⟩ := List.forall_mem_cons.mp h
        rw [List.map_cons, List.sum_cons, List.length_cons, Nat.succ_mul, add_comm]
        exact Nat.add_le_add (ih hitems) (Nat.succ_le_succ hv)
  rw [byteLength_array]
  omega

theorem Value.byteLength_object (members : List (String × Value)) :
    (Value.object members).byteLength = (members.map memberLength).sum - 1 + 2 := by
  have hopen : '{'.utf8Size = 1 := by decide
  have hclose : '}'.utf8Size = 1 := by decide
  have hcolon : ':'.utf8Size = 1 := by decide
  have hmember (m : String × Value) :
      utf8Length (memberText m.1 (print m.2)) + 1 = memberLength m := by
    rw [memberText, utf8Length_append, utf8Length_cons, hcolon]
    show utf8Length (quoted m.1) + (1 + m.2.byteLength) + 1 = _
    unfold memberLength
    omega
  have hsum : ((members.map fun m => memberText m.1 (print m.2)).map
      fun text => utf8Length text + 1) = members.map memberLength := by
    rw [List.map_map]
    exact List.map_congr_left fun m _ => hmember m
  show utf8Length ('{' :: separated (printMembers members) ++ ['}']) = _
  rw [List.cons_append, utf8Length_cons, utf8Length_append, utf8Length_separated,
    printMembers_eq, hsum, utf8Length_cons, utf8Length_nil, hopen, hclose]
  omega

/-- A member more takes its own bytes. -/
theorem Value.byteLength_object_insert {front back : List (String × Value)}
    (m : String × Value) (h : front ≠ []) :
    (Value.object (front ++ m :: back)).byteLength =
      (Value.object (front ++ back)).byteLength + memberLength m := by
  obtain ⟨first, front, rfl⟩ := List.exists_cons_of_ne_nil h
  have hpos : 2 ≤ memberLength first := Nat.le_add_left _ _
  simp only [byteLength_object, List.cons_append, List.map_cons, List.map_append, List.sum_cons,
    List.sum_append]
  omega

theorem Value.byteLength_bool (b : Bool) : (Value.bool b).byteLength = cond b 4 5 := by
  cases b <;> decide

/-- A character takes six bytes at most. -/
theorem utf8Length_escape_le (c : Char) : utf8Length (escape c) ≤ 6 := by
  have hbackslash : '\\'.utf8Size = 1 := by decide
  have hdigit : ∀ n < 16, (Nat.digitChar n).utf8Size = 1 := by decide
  have hsize := Char.utf8Size_le_four c
  unfold escape
  split_ifs with h1 h2 h3 h4 h5 h6 h7 h8
  · decide
  · decide
  · decide
  · decide
  · decide
  · decide
  · decide
  · have hhigh := hdigit (c.toNat / 16) (by omega)
    have hlow := hdigit (c.toNat % 16) (by omega)
    have hu : 'u'.utf8Size = 1 := by decide
    have hzero : '0'.utf8Size = 1 := by decide
    simp only [utf8Length_cons, utf8Length_nil, hbackslash, hu, hzero, hhigh, hlow]
    omega
  · simp only [utf8Length_cons, utf8Length_nil]
    omega

theorem Value.byteLength_string_le (s : String) :
    (Value.string s).byteLength ≤ 6 * s.length + 2 := by
  have hchars (cs : List Char) : utf8Length (cs.flatMap escape) ≤ 6 * cs.length := by
    induction cs with
    | nil => exact Nat.zero_le _
    | cons c cs ih =>
        have hc := utf8Length_escape_le c
        rw [List.flatMap_cons, utf8Length_append, List.length_cons]
        omega
  have hquote : '"'.utf8Size = 1 := by decide
  have hs := hchars s.toList
  rw [String.length_toList] at hs
  show utf8Length ('"' :: s.toList.flatMap escape ++ ['"']) ≤ _
  rw [List.cons_append, utf8Length_cons, utf8Length_append, utf8Length_cons, utf8Length_nil, hquote]
  omega

/-- A number of so many digits takes so many bytes. -/
theorem Value.byteLength_natural_le {n k : ℕ} (hpos : 0 < k) (h : n < 10 ^ k) :
    (Value.number (.int n)).byteLength ≤ k := by
  show utf8Length (Nat.toDigits 10 n) ≤ k
  rw [utf8Length_toDigits]
  exact (Nat.length_toDigits_le_iff (by decide) hpos).mpr h

theorem Value.byteLength_natural_pos (n : ℕ) : 1 ≤ (Value.number (.int n)).byteLength := by
  show 1 ≤ utf8Length (Nat.toDigits 10 n)
  rw [utf8Length_toDigits]
  exact Nat.length_toDigits_pos

theorem Value.byteLength_zero : (Value.number (.int 0)).byteLength = 1 := by decide

end CanonicalJson
