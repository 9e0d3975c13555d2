import Mathlib

/-!
# Hexadecimal texts

Bytes as two digits each, written in lower case and read in either.
-/

namespace Hex

/-- Whether a character lies between two others. -/
def inRange (low high c : Char) : Bool :=
  decide (low.toNat ≤ c.toNat) && decide (c.toNat ≤ high.toNat)

/-- The digit a character stands for. -/
def digitOf (c : Char) : Option ℕ :=
  if inRange '0' '9' c then some (c.toNat - 48)
  else if inRange 'a' 'f' c then some (c.toNat - 87)
  else if inRange 'A' 'F' c then some (c.toNat - 55)
  else none

/-- A byte as two digits. -/
def encodeByte (b : UInt8) : List Char :=
  [Nat.digitChar (b.toNat / 16), Nat.digitChar (b.toNat % 16)]

/-- `hex::encode`. -/
def encode (bytes : List UInt8) : String := String.ofList (bytes.flatMap encodeByte)

def decodeChars : List Char → Option (List UInt8)
  | [] => some []
  | [_] => none
  | high :: low :: rest => do
      let h ← digitOf high
      let l ← digitOf low
      let bytes ← decodeChars rest
      pure (UInt8.ofNat (16 * h + l) :: bytes)

/-- `hex::decode`: nothing but whole pairs of digits. -/
def decode (text : String) : Option (List UInt8) := decodeChars text.toList

/-- `{:?}` of a byte read as a character: in quotes, and escaped if it does not print. -/
def debugByte (b : UInt8) : String :=
  let n := b.toNat
  let text :=
    if n = 0 then "\\0"
    else if n = 9 then "\\t"
    else if n = 10 then "\\n"
    else if n = 13 then "\\r"
    else if n = 39 then "\\'"
    else if n = 92 then "\\\\"
    else if n < 32 ∨ (127 ≤ n ∧ n ≤ 160) ∨ n = 173 then
      "\\u\x7b" ++ String.ofList (Nat.toDigits 16 n) ++ "\x7d"
    else String.ofList [Char.ofNat n]
  "'" ++ text ++ "'"

/-- `FromHexError`: what `hex::decode` says of a text it refuses.  It counts in bytes. -/
def refusal (text : String) : String :=
  let bytes := text.toList.flatMap String.utf8EncodeChar
  if bytes.length % 2 = 1 then "Odd number of digits"
  else
    let index := bytes.findIdx fun b => (digitOf (Char.ofNat b.toNat)).isNone
    "Invalid character " ++ debugByte (bytes.getD index 0) ++ " at position " ++
      String.ofList (Nat.toDigits 10 index)

theorem digitOf_digitChar {n : ℕ} (h : n < 16) : digitOf (Nat.digitChar n) = some n := by
  revert n
  decide

theorem decodeChars_encode (bytes : List UInt8) :
    decodeChars (bytes.flatMap encodeByte) = some bytes := by
  induction bytes with
  | nil => rfl
  | cons b bytes ih =>
      have hb : b.toNat < 256 := b.toNat_lt
      have hdigits : 16 * (b.toNat / 16) + b.toNat % 16 = b.toNat := by omega
      rw [List.flatMap_cons, encodeByte, List.cons_append, List.cons_append, List.nil_append,
        decodeChars, digitOf_digitChar (by omega), digitOf_digitChar (by omega), ih]
      show some (UInt8.ofNat _ :: bytes) = _
      rw [hdigits, UInt8.ofNat_toNat]

/-- What is encoded is read back. -/
theorem decode_encode (bytes : List UInt8) : decode (encode bytes) = some bytes := by
  rw [decode, encode, String.toList_ofList, decodeChars_encode]

theorem encode_injective {a b : List UInt8} (h : encode a = encode b) : a = b := by
  rw [← Option.some_inj, ← decode_encode a, h, decode_encode]

end Hex
