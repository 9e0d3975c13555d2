import PubkySwap.Taproot

/-!
# The scripts, run symbolically

Each of the three scripts an HTLC can end with is run once, on a stack nothing is
known of.  What comes out is the list of the stacks it accepts: `HtlcStack` for the
P2WSH script, with its two branches, `ClaimLeafStack` for the claim leaf of either
direction, and one signature under the lock for the refund leaf.

Both readings are used.  That nothing else is accepted bounds what a stranger can
spend; that these are accepted is what the program's own spends rely on.
-/

namespace PubkySwap

open BitcoinScript

/-- A compressed key is well within what a script may push. -/
theorem length_serialized_le (key : PublicKey) : key.serialized.length ≤ 520 := by
  have hlen := key.length_eq
  split at hlen <;> omega

/-- So is a height. -/
theorem length_scriptNum_le_520 {n : ℕ} (hn : n < 2 ^ 32) : (scriptNum n).length ≤ 520 := by
  have hlen : (scriptNum n).length ≤ 4 + 1 := length_scriptNum_le (by omega)
  omega

/-- So is a hash. -/
theorem length_bytes32_le (bytes : Bytes32) : bytes.val.length ≤ 520 := by
  rw [bytes.property]
  decide

/-- **The stacks the P2WSH script accepts**, top first. -/
inductive HtlcStack (ctx : Context) (paymentHash : PaymentHash)
    (claimPubkey refundPubkey : PublicKey) (timeout : ℕ) : List Bytes → Prop where
  | claim {selector x sig : Bytes} (hselector : truthy selector = true)
      (hminimal : ctx.minimalIf = true → selector = [1]) (hx : ctx.sha256 x = paymentHash.val)
      (hsig : ctx.checkSig sig claimPubkey.serialized = some true) :
      HtlcStack ctx paymentHash claimPubkey refundPubkey timeout [selector, x, sig]
  | refund {selector sig : Bytes} (hselector : truthy selector = false)
      (hminimal : ctx.minimalIf = true → selector = [])
      (hlock : ctx.lockTimeReached (scriptNum timeout) = true)
      (hsig : ctx.checkSig sig refundPubkey.serialized = some true) :
      HtlcStack ctx paymentHash claimPubkey refundPubkey timeout [selector, sig]

section
variable {ctx : Context} {paymentHash : PaymentHash} {claimPubkey refundPubkey : PublicKey}
  {timeout : ℕ} {stack : List Bytes}

/-- **What unlocks the P2WSH script**: the claimer's signature with a preimage of the hash, or
the refunder's once the lock is reached, and nothing else.  The script is run symbolically on
a stack nothing is known of; the other direction runs it on each of the two stacks. -/
theorem htlc_accepts_iff (htimeout : timeout < 2 ^ 32) :
    accepts ctx (buildHtlcScript paymentHash claimPubkey refundPubkey timeout) stack = true ↔
      (∀ x ∈ stack, x.length ≤ 520) ∧
        HtlcStack ctx paymentHash claimPubkey refundPubkey timeout stack := by
  rw [buildHtlcScript,
    accepts_encode ctx (htlcPieces_plain paymentHash claimPubkey refundPubkey htimeout)]
  refine and_congr_right fun _ => ?_
  have hhash := length_bytes32_le paymentHash
  have hclaim := length_serialized_le claimPubkey
  have hrefund := length_serialized_le refundPubkey
  have hnum := length_scriptNum_le_520 htimeout
  simp only [htlcPieces, List.map_cons, Piece.instr, List.map_nil]
  constructor
  · rintro ⟨m, hexec, hsuccess⟩
    cases stack with
    | nil =>
        obtain ⟨m₁, hif, -⟩ := exec_cons_eq_some.mp hexec
        cases hif
    | cons selector stack =>
        obtain ⟨m₁, hif, hexec⟩ := exec_cons_eq_some.mp hexec
        simp only [execInstr, List.all_nil, if_true] at hif
        split at hif
        · cases hif
        rename_i hminimal
        cases hif
        cases hselector : truthy selector with
        | true =>
            rw [hselector] at hexec
            have hone (hmin : ctx.minimalIf = true) : selector = [1] := by
              by_contra hne
              refine hminimal ⟨hmin, ?_, hne⟩
              rintro rfl
              cases hselector
            cases stack with
            | nil =>
                obtain ⟨m₂, hsha, -⟩ := exec_cons_eq_some.mp hexec
                cases hsha
            | cons x stack =>
                obtain ⟨m₂, hsha, hexec⟩ := exec_cons_eq_some.mp hexec
                cases hsha
                obtain ⟨hx, sig, stack, good, rfl, hgood, hexec⟩ :=
                  exec_hashlock_checksig rfl hhash hclaim hexec
                -- The refund branch is skipped, so the verdict is what is left.
                have hskip : m = ⟨(if good then [1] else []) :: stack, []⟩ := by
                  simp only [exec_cons, exec_nil, execInstr, List.all_cons, List.all_nil, id_eq,
                    Bool.and_true, Bool.not_true, Option.bind_some, hnum, hrefund, if_true,
                    Bool.false_eq_true, if_false, Option.some.injEq] at hexec
                  exact hexec.symm
                rw [hskip] at hsuccess
                obtain ⟨rfl, rfl⟩ := success_verdict hsuccess
                exact .claim hselector hone hx hgood
        | false =>
            rw [hselector] at hexec
            have hnone (hmin : ctx.minimalIf = true) : selector = [] := by
              by_contra hne
              refine hminimal ⟨hmin, hne, ?_⟩
              rintro rfl
              cases hselector
            -- The claim branch is skipped.
            simp only [exec_cons, execInstr, List.all_cons, List.all_nil, id_eq, Bool.and_true,
              Bool.false_eq_true, if_false, Option.bind_some, hhash, hclaim, hnum, if_true,
              Bool.not_false, execOp] at hexec
            have hlock : ctx.lockTimeReached (scriptNum timeout) = true := by
              by_contra hlock
              rw [if_neg hlock] at hexec
              cases hexec
            rw [if_pos hlock] at hexec
            have hcheck : exec ctx (.push refundPubkey.serialized :: .op .opChecksig ::
                [.op .opEndif]) ⟨stack, [true]⟩ = some m := hexec
            obtain ⟨sig, stack, good, rfl, hgood, hend⟩ := exec_checksig rfl hrefund hcheck
            cases hend
            obtain ⟨rfl, rfl⟩ := success_verdict hsuccess
            exact .refund hselector hnone hlock hgood
  · intro hstack
    cases hstack with
    | @claim selector x sig hselector hminimal hx hsig =>
        have hif : ¬(ctx.minimalIf = true ∧ selector ≠ [] ∧ selector ≠ [1]) :=
          fun h => h.2.2 (hminimal h.1)
        refine ⟨⟨[[1]], []⟩, ?_, rfl⟩
        simp only [exec_cons, exec_nil, execInstr, execOp, List.all_cons, List.all_nil, id_eq,
          Bool.and_true, Bool.not_true, Bool.false_eq_true, if_true, if_false, if_neg hif,
          hselector, hx, hsig, hhash, hclaim, hrefund, hnum, Option.map_some, Option.bind_some]
    | @refund selector sig hselector hminimal hlock hsig =>
        have hif : ¬(ctx.minimalIf = true ∧ selector ≠ [] ∧ selector ≠ [1]) :=
          fun h => h.2.1 (hminimal h.1)
        refine ⟨⟨[[1]], []⟩, ?_, rfl⟩
        simp only [exec_cons, exec_nil, execInstr, execOp, List.all_cons, List.all_nil, id_eq,
          Bool.and_true, Bool.not_false, Bool.false_eq_true, if_true, if_false, if_neg hif,
          hselector, hlock, hsig, hhash, hclaim, hrefund, hnum, Option.map_some, Option.bind_some]

/-- **The stacks a claim leaf accepts**, top first.  That of a reverse swap asks for
the size of the preimage. -/
inductive ClaimLeafStack [Crypto] (ctx : Context) (direction : SwapDirection)
    (paymentHash : PaymentHash) (key : Bytes32) : List Bytes → Prop where
  | intro {x sig : Bytes} (hsize : direction = .reverse → x.length = 32)
      (hx : ctx.ripemd160 (ctx.sha256 x) = (Crypto.ripemd160 paymentHash.val).val)
      (hsig : ctx.checkSig sig key.val = some true) :
      ClaimLeafStack ctx direction paymentHash key [x, sig]

/-- **What unlocks the claim leaf**: a signature of the claim key and something that hashes to
the payment hash, which in a reverse swap must be as long as a preimage. -/
theorem claimLeaf_accepts_iff [Crypto] {direction : SwapDirection} {key : Bytes32} :
    accepts ctx (buildClaimScript direction paymentHash key) stack = true ↔
      (∀ x ∈ stack, x.length ≤ 520) ∧ ClaimLeafStack ctx direction paymentHash key stack := by
  rw [buildClaimScript, accepts_encode ctx (claimPieces_plain direction paymentHash key)]
  refine and_congr_right fun _ => ?_
  have hhash : (Crypto.ripemd160 paymentHash.val).val.length ≤ 520 := by
    rw [(Crypto.ripemd160 paymentHash.val).property]
    decide
  have hkey := length_bytes32_le key
  constructor
  · rintro ⟨m, hexec, hsuccess⟩
    -- from the hash on, the two directions run the same
    have hlocked {x : Bytes} {stack : List Bytes}
        (h : exec ctx [.push (Crypto.ripemd160 paymentHash.val).val, .op .opEqualverify,
          .push key.val, .op .opChecksig] ⟨ctx.ripemd160 (ctx.sha256 x) :: stack, []⟩ = some m) :
        ctx.ripemd160 (ctx.sha256 x) = (Crypto.ripemd160 paymentHash.val).val ∧
          ∃ sig, stack = [sig] ∧ ctx.checkSig sig key.val = some true := by
      obtain ⟨hx, sig, stack, good, rfl, hgood, hend⟩ := exec_hashlock_checksig rfl hhash hkey h
      cases hend
      obtain ⟨rfl, rfl⟩ := success_verdict hsuccess
      exact ⟨hx, sig, rfl, hgood⟩
    cases direction with
    | submarine =>
        simp only [claimPieces, List.nil_append, List.map_cons, Piece.instr, List.map_nil] at hexec
        cases stack with
        | nil =>
            obtain ⟨m₁, hhash160, -⟩ := exec_cons_eq_some.mp hexec
            cases hhash160
        | cons x stack =>
            obtain ⟨m₁, hhash160, hexec⟩ := exec_cons_eq_some.mp hexec
            cases hhash160
            obtain ⟨hx, sig, rfl, hgood⟩ := hlocked hexec
            exact .intro (fun hreverse => by cases hreverse) hx hgood
    | reverse =>
        simp only [claimPieces, List.cons_append, List.nil_append, List.map_cons, Piece.instr,
          List.map_nil] at hexec
        cases stack with
        | nil =>
            obtain ⟨m₁, hsize, -⟩ := exec_cons_eq_some.mp hexec
            cases hsize
        | cons x stack =>
            obtain ⟨m₁, hsize, hexec⟩ := exec_cons_eq_some.mp hexec
            cases hsize
            obtain ⟨m₂, hpush, hexec⟩ := exec_cons_eq_some.mp hexec
            cases hpush
            obtain ⟨m₃, hequal, hexec⟩ := exec_cons_eq_some.mp hexec
            simp only [execInstr, execOp, List.all_nil, if_true, Option.map_eq_some_iff] at hequal
            obtain ⟨stack₃, hequal, rfl⟩ := hequal
            split at hequal
            · next hlen =>
                cases hequal
                obtain ⟨m₄, hhash160, hexec⟩ := exec_cons_eq_some.mp hexec
                cases hhash160
                obtain ⟨hx, sig, rfl, hgood⟩ := hlocked hexec
                -- the size is pushed as a number, and only 32 is written with that byte
                have hsize : x.length = 32 :=
                  eq_toNat_of_scriptNum_eq (b := 32) (by decide) (hlen.symm.trans (by decide))
                exact .intro (fun _ => hsize) hx hgood
            · cases hequal
  · rintro ⟨hsize, hx, hsig⟩
    refine ⟨⟨[[1]], []⟩, ?_, rfl⟩
    cases direction with
    | submarine =>
        simp only [claimPieces, List.nil_append, List.map_cons, List.map_nil, Piece.instr,
          exec_cons, exec_nil, execInstr, execOp, List.all_nil, if_true, hx, hsig, hhash, hkey,
          Option.map_some, Option.bind_some]
    | reverse =>
        have hnum : (scriptNum 32).length ≤ 520 := length_scriptNum_le_520 (by decide)
        simp only [claimPieces, List.cons_append, List.nil_append, List.map_cons, List.map_nil,
          Piece.instr, exec_cons, exec_nil, execInstr, execOp, List.all_nil, if_true, hsize rfl,
          hnum, hx, hsig, hhash, hkey, Option.map_some, Option.bind_some]

/-- Every piece of a refund leaf is read back as it was written. -/
theorem refundPieces_plain (key : Bytes32) (htimeout : timeout < 2 ^ 32) :
    ∀ piece ∈ refundPieces key timeout, piece.Plain := by
  have hkey : key.val.length < 0x4c := by
    rw [key.property]
    decide
  intro piece hpiece
  simp only [refundPieces, List.mem_cons, List.not_mem_nil, or_false] at hpiece
  rcases hpiece with rfl | rfl | rfl | rfl
  · exact hkey
  · exact fun h => by cases h
  · exact htimeout
  · exact fun h => by cases h

/-- **The stacks a refund leaf accepts**: a signature, and the lock.  The timeout stays
on the stack and is its verdict. -/
theorem refundLeaf_accepts_iff {key : Bytes32} (htimeout : timeout < 2 ^ 32) (hpos : timeout ≠ 0) :
    accepts ctx (buildRefundScript key timeout) stack = true ↔
      (∀ x ∈ stack, x.length ≤ 520) ∧ ∃ sig, stack = [sig] ∧
        ctx.lockTimeReached (scriptNum timeout) = true ∧ ctx.checkSig sig key.val = some true := by
  rw [buildRefundScript, accepts_encode ctx (refundPieces_plain key htimeout)]
  refine and_congr_right fun _ => ?_
  have hkey := length_bytes32_le key
  have hnum := length_scriptNum_le_520 htimeout
  have htruthy : truthy (scriptNum timeout) = true :=
    truthy_of_scriptNumValue_ne_zero (by rwa [scriptNumValue_scriptNum])
  simp only [refundPieces, List.map_cons, List.map_nil, Piece.instr]
  constructor
  · rintro ⟨m, hexec, hsuccess⟩
    cases stack with
    | nil => simp [execInstr, execOp, hkey] at hexec
    | cons sig stack =>
        simp only [exec_cons, exec_nil, execInstr, execOp, List.all_nil, if_true, hkey, hnum,
          Option.bind_some] at hexec
        have hsig : ctx.checkSig sig key.val = some true := by
          by_contra hsig
          rw [if_neg hsig] at hexec
          cases hexec
        rw [if_pos hsig] at hexec
        simp only [exec_cons, exec_nil, execInstr, execOp, List.all_nil, if_true, hnum,
          Option.map_some, Option.bind_some] at hexec
        have hlock : ctx.lockTimeReached (scriptNum timeout) = true := by
          by_contra hlock
          rw [if_neg hlock] at hexec
          cases hexec
        rw [if_pos hlock] at hexec
        cases hexec
        cases stack with
        | nil => exact ⟨sig, rfl, hlock, hsig⟩
        | cons => simp [Machine.success] at hsuccess
  · rintro ⟨sig, rfl, hlock, hsig⟩
    refine ⟨⟨[scriptNum timeout], []⟩, ?_, htruthy⟩
    simp only [exec_cons, exec_nil, execInstr, execOp, List.all_nil, if_true, hkey, hnum, hlock,
      hsig, Option.map_some, Option.bind_some]
end

end PubkySwap
