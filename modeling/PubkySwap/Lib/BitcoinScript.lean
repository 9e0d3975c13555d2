import Mathlib

/-!
# Bitcoin Script, as far as HTLCs use it

A script is a string of bytes.  `Piece` is what a script builder is given,
`encode` is the string it produces, `parse` is how a node reads the string back,
and `parse_encode` says that a node reads exactly the pieces that were written.

`exec` is the consensus interpreter on what was read: a stack of byte strings
and a stack of conditions, of which `OP_IF`, `OP_ELSE` and `OP_ENDIF` are
executed whether or not their branch is.  What the interpreter cannot know by
itself stands in a `Context`: the two hash functions, the signature check, the
spending transaction's lock time, and whether `OP_IF` insists on a minimal
argument, as it does in a Taproot leaf.

`accepts` is the rule for witness programs: elements of at most 520 bytes, and a
run that ends outside every conditional with one true element on the stack.
Opcodes that no HTLC uses are read as `other` and fail the script when they are
executed.
-/

namespace BitcoinScript

/-- A byte string. -/
abbrev Bytes : Type := List UInt8

/-! ## Numbers -/

/-- Little-endian bytes of a number, without trailing zeros. -/
def leBytes : ℕ → ℕ → Bytes
  | 0, _ => []
  | fuel + 1, n => if n = 0 then [] else UInt8.ofNat (n % 256) :: leBytes fuel (n / 256)

/-- A nonnegative number as Script writes it: little-endian, the top bit of the
last byte being the sign. -/
def scriptNum (n : ℕ) : Bytes :=
  let bytes := leBytes n n
  if 0x80 ≤ (bytes.getLast?.getD 0) then bytes ++ [0] else bytes

/-- A byte string as a number, the sign bit cleared. -/
def scriptNumValue : Bytes → ℕ
  | [] => 0
  | [b] => (b &&& 0x7f).toNat
  | b :: bs => b.toNat + 256 * scriptNumValue bs

theorem length_leBytes_le {k : ℕ} :
    ∀ (fuel : ℕ) {n : ℕ}, n < 256 ^ k → (leBytes fuel n).length ≤ k := by
  induction k with
  | zero =>
      intro fuel n hn
      have hzero : n = 0 := by simpa using hn
      cases fuel <;> simp [leBytes, hzero]
  | succ k ih =>
      intro fuel n hn
      cases fuel with
      | zero => exact Nat.zero_le _
      | succ fuel =>
          rw [leBytes]
          split
          · exact Nat.zero_le _
          · have hdiv : n / 256 < 256 ^ k := by
              rw [Nat.div_lt_iff_lt_mul (by decide), ← pow_succ]
              exact hn
            rw [List.length_cons]
            exact Nat.succ_le_succ (ih fuel hdiv)

theorem length_scriptNum_le {k n : ℕ} (hn : n < 256 ^ k) : (scriptNum n).length ≤ k + 1 := by
  have hle := length_leBytes_le n hn
  simp only [scriptNum]
  split
  · rw [List.length_append, List.length_singleton]
    omega
  · omega

theorem eq_zero_of_leBytes_eq_nil {fuel n : ℕ} (hfuel : 0 < fuel) (h : leBytes fuel n = []) :
    n = 0 := by
  cases fuel with
  | zero => exact absurd hfuel (lt_irrefl 0)
  | succ fuel =>
      rw [leBytes] at h
      split at h
      · assumption
      · cases h

/-- A number written as one byte is that byte. -/
theorem eq_toNat_of_scriptNum_eq {n : ℕ} {b : UInt8} (hb : b ≠ 0) (h : scriptNum n = [b]) :
    n = b.toNat := by
  have hbytes : leBytes n n = [b] := by
    simp only [scriptNum] at h
    split at h
    · have hlast := congrArg List.getLast? h
      simp only [List.getLast?_append, List.getLast?_singleton, Option.some_or,
        Option.some.injEq] at hlast
      exact absurd hlast.symm hb
    · exact h
  cases n with
  | zero => cases hbytes
  | succ n =>
      rw [leBytes, if_neg (Nat.succ_ne_zero n)] at hbytes
      obtain ⟨hlow, hhigh⟩ := List.cons.inj hbytes
      have hdiv : (n + 1) / 256 = 0 := by
        by_cases hn : n = 0
        · rw [hn]
        · exact eq_zero_of_leBytes_eq_nil (Nat.pos_of_ne_zero hn) hhigh
      rw [← hlow, UInt8.toNat_ofNat']
      omega

/-- The bytes of a number are its digits. -/
theorem leBytes_eq_digits :
    ∀ {fuel n : ℕ}, n ≤ fuel → leBytes fuel n = (Nat.digits 256 n).map UInt8.ofNat := by
  intro fuel
  induction fuel with
  | zero =>
      intro n hn
      obtain rfl : n = 0 := Nat.le_zero.mp hn
      simp [leBytes]
  | succ fuel ih =>
      intro n hn
      rw [leBytes]
      split
      · next hzero => simp [hzero]
      · next hzero =>
          have hdiv : n / 256 < n := Nat.div_lt_self (Nat.pos_of_ne_zero hzero) (by decide)
          rw [Nat.digits_of_two_le_of_pos (by decide) (Nat.pos_of_ne_zero hzero), List.map_cons,
            ih (by omega)]

theorem ofDigits_leBytes {fuel n : ℕ} (hn : n ≤ fuel) :
    Nat.ofDigits 256 ((leBytes fuel n).map UInt8.toNat) = n := by
  rw [leBytes_eq_digits hn, List.map_map]
  have hdigits : (Nat.digits 256 n).map (UInt8.toNat ∘ UInt8.ofNat) = Nat.digits 256 n := by
    conv_rhs => rw [← List.map_id (Nat.digits 256 n)]
    refine List.map_congr_left fun digit hdigit => ?_
    have hlt : digit < 256 := Nat.digits_lt_base (by decide) hdigit
    show (UInt8.ofNat digit).toNat = digit
    rw [UInt8.toNat_ofNat', Nat.mod_eq_of_lt hlt]
  rw [hdigits, Nat.ofDigits_digits]

/-- A string without a sign is the number with its bytes as digits. -/
theorem scriptNumValue_eq_ofDigits :
    ∀ {bytes : Bytes}, bytes.getLast?.getD 0 < 0x80 →
      scriptNumValue bytes = Nat.ofDigits 256 (bytes.map UInt8.toNat) := by
  intro bytes
  induction bytes with
  | nil => intro _; rfl
  | cons b bytes ih =>
      intro hlast
      cases bytes with
      | nil =>
          have hb : b < 0x80 := by simpa using hlast
          have hand : b &&& 0x7f = b := by
            rw [← UInt8.toNat_inj, UInt8.toNat_and]
            show b.toNat &&& (2 ^ 7 - 1) = b.toNat
            have hlt : b.toNat < 2 ^ 7 := UInt8.lt_iff_toNat_lt.mp hb
            rw [Nat.and_two_pow_sub_one_eq_mod, Nat.mod_eq_of_lt hlt]
          simp [scriptNumValue, hand]
      | cons b' bytes =>
          have hrest : (b' :: bytes).getLast?.getD 0 < 0x80 := by
            rwa [List.getLast?_cons_cons] at hlast
          rw [scriptNumValue, ih hrest]
          · simp [Nat.ofDigits_cons]
          · simp

/-- The last byte of a nonnegative number has no sign. -/
theorem getLast_scriptNum_lt (n : ℕ) : (scriptNum n).getLast?.getD 0 < 0x80 := by
  simp only [scriptNum]
  split
  · simp
  · next hlast => exact UInt8.not_le.mp hlast

/-- **A number is read as it was written.** -/
theorem scriptNumValue_scriptNum (n : ℕ) : scriptNumValue (scriptNum n) = n := by
  rw [scriptNumValue_eq_ofDigits (getLast_scriptNum_lt n)]
  simp only [scriptNum]
  split
  · rw [List.map_append, Nat.ofDigits_append, ofDigits_leBytes le_rfl]
    simp
  · exact ofDigits_leBytes le_rfl

/-! ## Building a script -/

/-- The opcodes an HTLC is made of. -/
inductive Opcode where
  | opIf
  | opElse
  | opEndif
  | opDrop
  | opSize
  | opEqualverify
  | opSha256
  | opHash160
  | opChecksig
  | opChecksigverify
  | opCltv
  | other (code : UInt8)
  deriving DecidableEq, Repr

/-- The byte of an opcode. -/
def Opcode.toU8 : Opcode → UInt8
  | opIf => 0x63
  | opElse => 0x67
  | opEndif => 0x68
  | opDrop => 0x75
  | opSize => 0x82
  | opEqualverify => 0x88
  | opSha256 => 0xa8
  | opHash160 => 0xa9
  | opChecksig => 0xac
  | opChecksigverify => 0xad
  | opCltv => 0xb1
  | other code => code

/-- The opcode of a byte. -/
def Opcode.ofU8 (code : UInt8) : Opcode :=
  if code = 0x63 then opIf
  else if code = 0x67 then opElse
  else if code = 0x68 then opEndif
  else if code = 0x75 then opDrop
  else if code = 0x82 then opSize
  else if code = 0x88 then opEqualverify
  else if code = 0xa8 then opSha256
  else if code = 0xa9 then opHash160
  else if code = 0xac then opChecksig
  else if code = 0xad then opChecksigverify
  else if code = 0xb1 then opCltv
  else other code

/-- What a builder is given. -/
inductive Piece where
  | opcode (op : Opcode)
  | slice (data : Bytes)
  | int (n : ℕ)
  deriving DecidableEq, Repr

/-- `push_slice`. -/
def pushSlice (data : Bytes) : Bytes :=
  if data.length < 0x4c then UInt8.ofNat data.length :: data
  else if data.length < 0x100 then 0x4c :: UInt8.ofNat data.length :: data
  else 0x4d :: UInt8.ofNat (data.length % 256) :: UInt8.ofNat (data.length / 256) :: data

/-- `push_int`, for a nonnegative number. -/
def pushInt (n : ℕ) : Bytes :=
  if n = 0 then [0x00]
  else if n ≤ 16 then [UInt8.ofNat (0x50 + n)]
  else pushSlice (scriptNum n)

/-- The bytes one piece adds. -/
def Piece.encode : Piece → Bytes
  | opcode op => [op.toU8]
  | slice data => pushSlice data
  | int n => pushInt n

/-- The script a builder produces. -/
def encode (pieces : List Piece) : Bytes := pieces.flatMap Piece.encode

theorem length_lt_length_pushSlice (data : Bytes) : data.length < (pushSlice data).length := by
  unfold pushSlice
  split
  · exact Nat.lt_succ_self _
  · split <;> simp only [List.length_cons] <;> omega

/-- A script is longer than anything it pushes. -/
theorem length_lt_length_encode {pieces : List Piece} {data : Bytes}
    (hmem : .slice data ∈ pieces) : data.length < (encode pieces).length := by
  have hle : (Piece.slice data).encode.length ≤ (encode pieces).length := by
    rw [encode, List.length_flatMap]
    exact List.single_le_sum (fun _ _ => Nat.zero_le _) _ (List.mem_map_of_mem hmem)
  exact lt_of_lt_of_le (length_lt_length_pushSlice data) hle

/-! ## Reading a script -/

/-- What a node reads. -/
inductive Instr where
  | push (data : Bytes)
  | op (op : Opcode)
  deriving DecidableEq, Repr

/-- A push of `n` bytes. -/
def takePush (n : ℕ) (bytes : Bytes) : Option (Instr × Bytes) :=
  if n ≤ bytes.length then some (.push (bytes.take n), bytes.drop n) else none

/-- The first instruction of a script and what follows it. -/
def nextInstr : Bytes → Option (Instr × Bytes)
  | [] => none
  | b :: bytes =>
      if b.toNat < 0x4c then takePush b.toNat bytes
      else if b = 0x4c then
        match bytes with
        | n :: bytes => takePush n.toNat bytes
        | _ => none
      else if b = 0x4d then
        match bytes with
        | lo :: hi :: bytes => takePush (lo.toNat + 256 * hi.toNat) bytes
        | _ => none
      else if b = 0x4e then
        match bytes with
        | b₀ :: b₁ :: b₂ :: b₃ :: bytes =>
            takePush (b₀.toNat + 256 * (b₁.toNat + 256 * (b₂.toNat + 256 * b₃.toNat))) bytes
        | _ => none
      else if b = 0x4f then some (.push [0x81], bytes)
      else if 0x51 ≤ b.toNat ∧ b.toNat ≤ 0x60 then
        some (.push [UInt8.ofNat (b.toNat - 0x50)], bytes)
      else some (.op (.ofU8 b), bytes)

/-- The instructions of a script, none when a push runs past its end. -/
def parseUpTo : ℕ → Bytes → Option (List Instr)
  | _, [] => some []
  | 0, _ :: _ => none
  | fuel + 1, bytes =>
      match nextInstr bytes with
      | none => none
      | some (instr, rest) => (parseUpTo fuel rest).map (instr :: ·)

/-- The instructions of a script. -/
def parse (script : Bytes) : Option (List Instr) := parseUpTo script.length script

/-- How a node reads a piece. -/
def Piece.instr : Piece → Instr
  | opcode op => .op op
  | slice data => .push data
  | int n => .push (scriptNum n)

/-- The pieces a builder writes so that a node reads them back. -/
def Piece.Plain : Piece → Prop
  | opcode op => op ≠ .other op.toU8
  | slice data => data.length < 0x4c
  | int n => n < 2 ^ 32

theorem nextInstr_cons_of_lt {b : UInt8} (hb : b.toNat < 0x4c) (bytes : Bytes) :
    nextInstr (b :: bytes) = takePush b.toNat bytes :=
  if_pos hb

theorem nextInstr_pushSlice {data : Bytes} (hdata : data.length < 0x4c) (rest : Bytes) :
    nextInstr (pushSlice data ++ rest) = some (.push data, rest) := by
  have hbyte : (UInt8.ofNat data.length).toNat = data.length := by
    rw [UInt8.toNat_ofNat']
    omega
  have hlt : (UInt8.ofNat data.length).toNat < 0x4c := by omega
  rw [pushSlice, if_pos hdata, List.cons_append, nextInstr_cons_of_lt hlt, hbyte, takePush,
    if_pos (by rw [List.length_append]; omega), List.take_left, List.drop_left]

theorem nextInstr_pushInt {n : ℕ} (hn : n < 2 ^ 32) (rest : Bytes) :
    nextInstr (pushInt n ++ rest) = some (.push (scriptNum n), rest) := by
  unfold pushInt
  split
  · next hzero =>
      subst hzero
      rfl
  · split
    · next hsmall =>
        interval_cases n <;> first | contradiction | rfl
    · refine nextInstr_pushSlice ?_ rest
      have hlen : (scriptNum n).length ≤ 4 + 1 := length_scriptNum_le (by omega)
      omega

/-- One piece is read back as itself. -/
theorem nextInstr_encode {piece : Piece} (hplain : piece.Plain) (rest : Bytes) :
    nextInstr (piece.encode ++ rest) = some (piece.instr, rest) := by
  cases piece with
  | opcode op =>
      cases op with
      | other code => exact absurd rfl hplain
      | _ => rfl
  | slice data => exact nextInstr_pushSlice hplain rest
  | int n => exact nextInstr_pushInt hplain rest

theorem Piece.encode_ne_nil (piece : Piece) : piece.encode ≠ [] := by
  cases piece with
  | opcode op => exact List.cons_ne_nil _ _
  | slice data =>
      rw [encode, pushSlice]
      split
      · exact List.cons_ne_nil _ _
      · split <;> exact List.cons_ne_nil _ _
  | int n =>
      rw [encode, pushInt, pushSlice]
      repeat' split
      all_goals exact List.cons_ne_nil _ _

theorem parseUpTo_succ (fuel : ℕ) (b : UInt8) (bytes : Bytes) :
    parseUpTo (fuel + 1) (b :: bytes) =
      match nextInstr (b :: bytes) with
      | none => none
      | some (instr, rest) => (parseUpTo fuel rest).map (instr :: ·) := rfl

theorem parseUpTo_encode :
    ∀ (pieces : List Piece) {fuel : ℕ}, (∀ piece ∈ pieces, piece.Plain) →
      (encode pieces).length ≤ fuel →
      parseUpTo fuel (encode pieces) = some (pieces.map Piece.instr) := by
  intro pieces
  induction pieces with
  | nil =>
      intro fuel _ _
      cases fuel <;> rfl
  | cons piece pieces ih =>
      intro fuel hplain hfuel
      have hsplit : encode (piece :: pieces) = piece.encode ++ encode pieces := rfl
      have hpos : 0 < piece.encode.length := List.length_pos_iff.mpr piece.encode_ne_nil
      rw [hsplit, List.length_append] at hfuel
      obtain ⟨b, bytes, hbytes⟩ := List.exists_cons_of_ne_nil piece.encode_ne_nil
      cases fuel with
      | zero => omega
      | succ fuel =>
          have hnext := nextInstr_encode (hplain piece List.mem_cons_self) (encode pieces)
          rw [hsplit]
          rw [hbytes, List.cons_append] at hnext ⊢
          rw [parseUpTo_succ, hnext]
          simp only
          rw [ih (fun p hp => hplain p (List.mem_cons_of_mem _ hp)) (by omega)]
          rfl

/-- **A node reads what the builder wrote.** -/
theorem parse_encode {pieces : List Piece} (hplain : ∀ piece ∈ pieces, piece.Plain) :
    parse (encode pieces) = some (pieces.map Piece.instr) :=
  parseUpTo_encode pieces hplain le_rfl

/-! ## Running a script -/

/-- What a script asks of its surroundings. -/
structure Context where
  sha256 : Bytes → Bytes
  ripemd160 : Bytes → Bytes
  /-- Whether a signature is good for a key; none when its encoding already fails
  the script. -/
  checkSig : Bytes → Bytes → Option Bool
  lockTime : ℕ
  sequence : ℕ
  /-- Whether `OP_IF` takes only an empty string or a single one. -/
  minimalIf : Bool

/-- The interpreter's state: the stack, top first, and the open conditionals,
innermost first. -/
structure Machine where
  stack : List Bytes
  conds : List Bool
  deriving DecidableEq, Repr

/-- A string is true unless it is a zero, of either sign. -/
def truthy (bytes : Bytes) : Bool :=
  bytes.dropLast.any (· ≠ 0) || (bytes.getLast?.getD 0 ≠ 0 && bytes.getLast?.getD 0 ≠ 0x80)

/-- A number other than zero is true. -/
theorem truthy_of_scriptNumValue_ne_zero :
    ∀ {bytes : Bytes}, scriptNumValue bytes ≠ 0 → truthy bytes = true := by
  intro bytes
  induction bytes with
  | nil => intro h; exact absurd rfl h
  | cons b bytes ih =>
      intro h
      cases bytes with
      | nil =>
          have hb : (b &&& 0x7f).toNat ≠ 0 := h
          have hne : b ≠ 0 ∧ b ≠ 0x80 := by
            constructor
            · rintro rfl
              exact hb rfl
            · rintro rfl
              exact hb rfl
          simp [truthy, hne]
      | cons b' bytes =>
          rw [scriptNumValue] at h
          · by_cases hb : b = 0
            · have hrest : scriptNumValue (b' :: bytes) ≠ 0 := by
                intro hzero
                rw [hzero, hb] at h
                exact h rfl
              have htail := ih hrest
              simp only [truthy, List.dropLast_cons_cons, List.any_cons,
                List.getLast?_cons_cons] at htail ⊢
              rw [Bool.or_assoc, htail, Bool.or_true]
            · simp [truthy, hb]
          · simp

/-- Heights and times lie on either side of this value. -/
def lockTimeThreshold : ℕ := 500000000

/-- `OP_CHECKLOCKTIMEVERIFY`'s condition on its argument. -/
def Context.lockTimeReached (ctx : Context) (arg : Bytes) : Bool :=
  let n := scriptNumValue arg
  arg.length ≤ 5 ∧ arg.getLast?.getD 0 < 0x80 ∧
    (n < lockTimeThreshold ↔ ctx.lockTime < lockTimeThreshold) ∧ n ≤ ctx.lockTime ∧
    ctx.sequence ≠ 0xffffffff

/-- What `OP_CHECKLOCKTIMEVERIFY` asks of a written number. -/
theorem Context.lockTimeReached_scriptNum {ctx : Context} {n : ℕ} (hn : n < 2 ^ 32) :
    ctx.lockTimeReached (scriptNum n) = true ↔
      (n < lockTimeThreshold ↔ ctx.lockTime < lockTimeThreshold) ∧ n ≤ ctx.lockTime ∧
        ctx.sequence ≠ 0xffffffff := by
  have hlen : (scriptNum n).length ≤ 4 + 1 := length_scriptNum_le (by omega)
  unfold lockTimeReached
  rw [scriptNumValue_scriptNum, decide_eq_true_eq]
  exact ⟨fun h => h.2.2, fun h => ⟨hlen, getLast_scriptNum_lt n, h⟩⟩

/-- An opcode outside the conditionals, on the stack. -/
def execOp (ctx : Context) : Opcode → List Bytes → Option (List Bytes)
  | .opDrop, _ :: stack => some stack
  | .opSize, x :: stack => some (scriptNum x.length :: x :: stack)
  | .opEqualverify, x :: y :: stack => if x = y then some stack else none
  | .opSha256, x :: stack => some (ctx.sha256 x :: stack)
  | .opHash160, x :: stack => some (ctx.ripemd160 (ctx.sha256 x) :: stack)
  | .opChecksig, key :: sig :: stack =>
      (ctx.checkSig sig key).map fun good => (if good then [1] else []) :: stack
  | .opChecksigverify, key :: sig :: stack =>
      if ctx.checkSig sig key = some true then some stack else none
  | .opCltv, x :: stack => if ctx.lockTimeReached x then some (x :: stack) else none
  | _, _ => none

/-- One instruction. -/
def execInstr (ctx : Context) (instr : Instr) (m : Machine) : Option Machine :=
  let executing := m.conds.all id
  match instr with
  | .push data =>
      if data.length ≤ 520 then
        some (if executing then { m with stack := data :: m.stack } else m)
      else none
  | .op .opIf =>
      if executing then
        match m.stack with
        | [] => none
        | top :: stack =>
            if ctx.minimalIf ∧ top ≠ [] ∧ top ≠ [1] then none
            else some ⟨stack, truthy top :: m.conds⟩
      else some { m with conds := false :: m.conds }
  | .op .opElse =>
      match m.conds with
      | [] => none
      | cond :: conds => some { m with conds := (!cond) :: conds }
  | .op .opEndif =>
      match m.conds with
      | [] => none
      | _ :: conds => some { m with conds := conds }
  | .op op =>
      if executing then (execOp ctx op m.stack).map fun stack => { m with stack := stack }
      else some m

/-- A whole script. -/
def exec (ctx : Context) : List Instr → Machine → Option Machine
  | [], m => some m
  | instr :: instrs, m => (execInstr ctx instr m).bind (exec ctx instrs)

@[simp] theorem exec_nil (ctx : Context) (m : Machine) : exec ctx [] m = some m := rfl

@[simp] theorem exec_cons (ctx : Context) (instr : Instr) (instrs : List Instr) (m : Machine) :
    exec ctx (instr :: instrs) m = (execInstr ctx instr m).bind (exec ctx instrs) := rfl

theorem exec_cons_eq_some {ctx : Context} {instr : Instr} {instrs : List Instr}
    {m m' : Machine} :
    exec ctx (instr :: instrs) m = some m' ↔
      ∃ m₁, execInstr ctx instr m = some m₁ ∧ exec ctx instrs m₁ = some m' :=
  Option.bind_eq_some_iff

/-- **A hash lock and a signature**: a run past them has found the digest it was
looking for and a signature whose verdict it leaves on the stack. -/
theorem exec_hashlock_checksig {ctx : Context} {hash key digest : Bytes} {rest : List Instr}
    {stack : List Bytes} {conds : List Bool} {m : Machine} (hlive : conds.all id = true)
    (hhash : hash.length ≤ 520) (hkey : key.length ≤ 520)
    (h : exec ctx (.push hash :: .op .opEqualverify :: .push key :: .op .opChecksig :: rest)
      ⟨digest :: stack, conds⟩ = some m) :
    digest = hash ∧ ∃ sig stack' good, stack = sig :: stack' ∧
      ctx.checkSig sig key = some good ∧
      exec ctx rest ⟨(if good then [1] else []) :: stack', conds⟩ = some m := by
  obtain ⟨m₁, hpush, h⟩ := exec_cons_eq_some.mp h
  simp only [execInstr, hlive, hhash, if_true, Option.some.injEq] at hpush
  subst hpush
  obtain ⟨m₂, hequal, h⟩ := exec_cons_eq_some.mp h
  simp only [execInstr, execOp, hlive, if_true, Option.map_eq_some_iff] at hequal
  obtain ⟨stack₂, hequal, rfl⟩ := hequal
  split at hequal
  · next heq =>
      cases hequal
      obtain ⟨m₃, hpush, h⟩ := exec_cons_eq_some.mp h
      simp only [execInstr, hlive, hkey, if_true, Option.some.injEq] at hpush
      subst hpush
      obtain ⟨m₄, hcheck, h⟩ := exec_cons_eq_some.mp h
      simp only [execInstr, hlive, if_true, Option.map_eq_some_iff] at hcheck
      obtain ⟨stack₄, hcheck, rfl⟩ := hcheck
      cases stack with
      | nil => cases hcheck
      | cons sig stack' =>
          simp only [execOp, Option.map_eq_some_iff] at hcheck
          obtain ⟨good, hgood, rfl⟩ := hcheck
          exact ⟨heq.symm, sig, stack', good, rfl, hgood, h⟩
  · cases hequal

/-- A signature check leaves its verdict. -/
theorem exec_checksig {ctx : Context} {key : Bytes} {rest : List Instr} {stack : List Bytes}
    {conds : List Bool} {m : Machine} (hlive : conds.all id = true) (hkey : key.length ≤ 520)
    (h : exec ctx (.push key :: .op .opChecksig :: rest) ⟨stack, conds⟩ = some m) :
    ∃ sig stack' good, stack = sig :: stack' ∧ ctx.checkSig sig key = some good ∧
      exec ctx rest ⟨(if good then [1] else []) :: stack', conds⟩ = some m := by
  obtain ⟨m₁, hpush, h⟩ := exec_cons_eq_some.mp h
  simp only [execInstr, hlive, hkey, if_true, Option.some.injEq] at hpush
  subst hpush
  obtain ⟨m₂, hcheck, h⟩ := exec_cons_eq_some.mp h
  simp only [execInstr, hlive, if_true, Option.map_eq_some_iff] at hcheck
  obtain ⟨stack₂, hcheck, rfl⟩ := hcheck
  cases stack with
  | nil => cases hcheck
  | cons sig stack' =>
      simp only [execOp, Option.map_eq_some_iff] at hcheck
      obtain ⟨good, hgood, rfl⟩ := hcheck
      exact ⟨sig, stack', good, rfl, hgood, h⟩

/-- Whether a run ended well: outside every conditional, one true element left. -/
def Machine.success (m : Machine) : Bool :=
  m.conds.isEmpty &&
    match m.stack with
    | [top] => truthy top
    | _ => false

/-- A run that ends on the verdict of a signature check has nothing below it,
and the verdict was good. -/
theorem success_verdict {good : Bool} {stack : List Bytes}
    (h : (Machine.mk ((if good then [1] else []) :: stack) []).success = true) :
    good = true ∧ stack = [] := by
  cases stack with
  | nil =>
      refine ⟨?_, rfl⟩
      cases good with
      | true => rfl
      | false => exact absurd h (by decide)
  | cons top stack =>
      simp only [Machine.success, Bool.and_false, Bool.false_eq_true] at h

/-- **Acceptance** of an initial stack, top first, by a witness script. -/
def accepts (ctx : Context) (script : Bytes) (stack : List Bytes) : Bool :=
  stack.all (·.length ≤ 520) &&
    match parse script with
    | none => false
    | some instrs =>
        match exec ctx instrs ⟨stack, []⟩ with
        | none => false
        | some m => m.success

/-- Acceptance of a script that a builder wrote. -/
theorem accepts_encode (ctx : Context) {pieces : List Piece}
    (hplain : ∀ piece ∈ pieces, piece.Plain) (stack : List Bytes) :
    accepts ctx (encode pieces) stack = true ↔
      (∀ x ∈ stack, x.length ≤ 520) ∧
        ∃ m, exec ctx (pieces.map Piece.instr) ⟨stack, []⟩ = some m ∧ m.success = true := by
  unfold accepts
  rw [parse_encode hplain, Bool.and_eq_true, List.all_eq_true]
  simp only [decide_eq_true_eq]
  refine and_congr_right fun _ => ?_
  cases exec ctx (pieces.map Piece.instr) ⟨stack, []⟩ with
  | none => simp
  | some m => simp

end BitcoinScript
