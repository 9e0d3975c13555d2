import PubkySwap.ScriptRun

/-!
# What an on-chain claim teaches

The provider of a reverse swap settles its hold invoice with the preimage it
finds in the client's claim.  Two pieces of code have to agree for that: the
script, which decides what a claim must carry, and `extractPreimage`, which only
takes a 32-byte element.

The interpreter is run symbolically once per script (`htlc_accepts_iff`,
`claimLeaf_accepts_iff`): whatever the claimer pushed, an accepted claim has
exactly the shape the program itself would have produced, up to the *length* of
the preimage.  The Taproot leaf fixes that length.  The P2WSH script does not, so
there the two agree exactly when the claimer pushed 32 bytes.
-/

namespace PubkySwap

open BitcoinScript

section

variable [Crypto]

/-! ## Spending through the claim branch -/

/-- The two contracts a reverse swap can use. -/
inductive HtlcContract where
  | p2wsh (paymentHash : PaymentHash) (claimPubkey refundPubkey : PublicKey) (timeout : ℕ)
      (htimeout : timeout < 2 ^ 32)
  | taproot (contract : BoltzTaprootSwap) (hdirection : contract.parameters.direction = .reverse)

def HtlcContract.paymentHash : HtlcContract → PaymentHash
  | p2wsh paymentHash .. => paymentHash
  | taproot contract _ => contract.parameters.paymentHash

/-- Whether the contract's claim branch fixes the size of the preimage. -/
def HtlcContract.isTaproot : HtlcContract → Bool
  | p2wsh .. => false
  | taproot .. => true

/-- What consensus gives a script of an input: the hash functions, a signature
check and the locks of the transaction. -/
def scriptContext (checkSig : Bytes → Bytes → Option Bool) (tx : Transaction) (input : TxIn)
    (tapscript : Bool) : Context where
  sha256 bytes := (Crypto.sha256 bytes).val
  ripemd160 bytes := (Crypto.ripemd160 bytes).val
  checkSig := checkSig
  lockTime := tx.lockTime
  sequence := input.sequence
  minimalIf := tapscript

/-- **An input that consensus accepts through the claim branch.**  A P2WSH
witness ends with a script whose hash is the program, and its selector takes the
first branch; a Taproot one ends with the claim leaf and its proof, and possibly
an annex.  What stands before is the claimer's choice. -/
def SpendsByClaim (checkSig : Bytes → Bytes → Option Bool) (tx : Transaction) (input : TxIn) :
    HtlcContract → Prop
  | .p2wsh paymentHash claimPubkey refundPubkey timeout _ =>
      ∃ stack script,
        input.witness = stack ++ [script] ∧
        Crypto.sha256 script =
          Crypto.sha256 (buildHtlcScript paymentHash claimPubkey refundPubkey timeout) ∧
        accepts (scriptContext checkSig tx input false) script stack.reverse = true ∧
        truthy (stack.getLast?.getD []) = true
  | .taproot contract _ =>
      ∃ stack control annex,
        input.witness = stack ++ [contract.claimScript, control] ++ annex ∧
        (annex = [] ∨ ∃ bytes, annex = [0x50 :: bytes]) ∧
        accepts (scriptContext checkSig tx input true) contract.claimScript stack.reverse = true

/-- The hash functions do not collide on the strings of this spend: on what the
witness carries and the contract's own script, and, for the second hash of the
Taproot leaf, on the payment hash and what the claimer's string hashes to. -/
structure NoCollision (contract : HtlcContract) (witness : List Bytes) : Prop where
  sha256 : ∀ a ∈ witness, ∀ b ∈ witness, Crypto.sha256 a = Crypto.sha256 b → a = b
  script : ∀ paymentHash claimPubkey refundPubkey timeout h,
    contract = .p2wsh paymentHash claimPubkey refundPubkey timeout h →
    ∀ a ∈ witness, Crypto.sha256 a =
        Crypto.sha256 (buildHtlcScript paymentHash claimPubkey refundPubkey timeout) →
      a = buildHtlcScript paymentHash claimPubkey refundPubkey timeout
  ripemd160 : contract.isTaproot = true → ∀ a ∈ witness,
    Crypto.ripemd160 (Crypto.sha256 a).val = Crypto.ripemd160 contract.paymentHash.val →
      Crypto.sha256 a = contract.paymentHash

omit [Crypto] in
/-- **An accepted P2WSH claim** is a signature by the claim key, some string
with the payment hash, and a selector. -/
theorem htlc_claim_stack {ctx : Context} {paymentHash : PaymentHash}
    {claimPubkey refundPubkey : PublicKey} {timeout : ℕ} (htimeout : timeout < 2 ^ 32)
    {stack : List Bytes}
    (haccepts : accepts ctx (buildHtlcScript paymentHash claimPubkey refundPubkey timeout)
      stack = true)
    (hclaim : truthy (stack.head?.getD []) = true) :
    ∃ selector x sig, stack = [selector, x, sig] ∧ ctx.sha256 x = paymentHash.val ∧
      ctx.checkSig sig claimPubkey.serialized = some true := by
  obtain ⟨-, hstack⟩ := (htlc_accepts_iff htimeout).mp haccepts
  cases hstack with
  | claim hselector hminimal hx hsig => exact ⟨_, _, _, rfl, hx, hsig⟩
  | refund hselector hminimal hlock hsig =>
      -- The selector took the other branch.
      rw [List.head?_cons, Option.getD_some, hselector] at hclaim
      cases hclaim

/-! ## Claims teach, refunds do not -/

/-- The string a claimer pushes for the hash lock, the second of its witness. -/
def claimedElement (witness : List Bytes) : Bytes := witness[1]?.getD []

/-- **An accepted claim pushes a string with the payment hash**, which is 32
bytes long whenever the contract says so. -/
theorem SpendsByClaim.claimedElement {checkSig : Bytes → Bytes → Option Bool}
    {tx : Transaction} {input : TxIn} {contract : HtlcContract}
    (hclaim : SpendsByClaim checkSig tx input contract)
    (hcollision : NoCollision contract input.witness) :
    PubkySwap.claimedElement input.witness ∈ input.witness ∧
      Crypto.sha256 (PubkySwap.claimedElement input.witness) = contract.paymentHash ∧
      (contract.isTaproot = true → (PubkySwap.claimedElement input.witness).length = 32) := by
  cases contract with
  | p2wsh paymentHash claimPubkey refundPubkey timeout htimeout =>
      obtain ⟨stack, script, hwitness, hprogram, haccepts, hbranch⟩ := hclaim
      have hscript := hcollision.script _ _ _ _ htimeout rfl script
        (by rw [hwitness]; simp) hprogram
      subst hscript
      rw [← List.head?_reverse] at hbranch
      obtain ⟨selector, x, sig, hstack, hx, -⟩ := htlc_claim_stack htimeout haccepts hbranch
      have hpushed : stack = [sig, x, selector] := by
        rw [← List.reverse_reverse stack, hstack]
        rfl
      have helement : PubkySwap.claimedElement input.witness = x := by
        rw [hwitness, hpushed]
        rfl
      rw [helement]
      refine ⟨?_, Subtype.ext hx, fun h => by cases h⟩
      rw [hwitness, hpushed]
      simp
  | taproot contract hdirection =>
      obtain ⟨stack, control, annex, hwitness, -, haccepts⟩ := hclaim
      rw [contract.claimScript_eq, hdirection] at haccepts
      obtain ⟨-, hstack⟩ := claimLeaf_accepts_iff.mp haccepts
      generalize hrev : stack.reverse = pushed at hstack
      obtain ⟨hsize, hx, -⟩ := hstack
      rename_i x sig
      have hpushed : stack = [sig, x] := by
        rw [← List.reverse_reverse stack, hrev]
        rfl
      have helement : PubkySwap.claimedElement input.witness = x := by
        rw [hwitness, hpushed]
        rfl
      have hmem : x ∈ input.witness := by
        rw [hwitness, hpushed]
        simp
      rw [helement]
      exact ⟨hmem, hcollision.ripemd160 rfl x hmem (Subtype.ext hx), fun _ => hsize rfl⟩

/-- A refund the program builds: by `build_refund_tx` for a P2WSH contract, by
the contract's own `refund_tx` for a Taproot one. -/
def BuiltRefund (outpoint : OutPoint) (tx : Transaction) : HtlcContract → Prop
  | .p2wsh paymentHash claimPubkey refundPubkey timeout _ =>
      ∃ valueSat destSpk feeSat key,
        buildRefundTx outpoint valueSat
          (buildHtlcScript paymentHash claimPubkey refundPubkey timeout) destSpk feeSat timeout
          key = .ok tx
  | .taproot contract _ =>
      ∃ valueSat destination feeSat key,
        contract.refundTx outpoint valueSat destination feeSat key = .ok tx

/-- A spend none of whose witness elements has 32 bytes reveals nothing. -/
theorem extractPreimage_withWitness_eq_none {outpoint spent : OutPoint} {valueSat : ℕ}
    {destination : Bytes} {lockTime : ℕ} {witness : List Bytes} {paymentHash : PaymentHash}
    (hlen : ∀ element ∈ witness, element.length ≠ 32) :
    extractPreimage ((unsignedSpend spent valueSat destination lockTime).withWitness witness)
      outpoint paymentHash = none := by
  rw [← Option.not_isSome_iff_eq_none, extractPreimage_isSome_iff]
  rintro ⟨input, hmem, -, element, helement, h32, -⟩
  simp only [Transaction.withWitness, unsignedSpend, List.map_cons, List.map_nil,
    List.mem_singleton] at hmem
  subst hmem
  exact hlen element helement h32

/-- **A refund never looks like a claim**: no element of its witness has the
size of a preimage. -/
theorem extractPreimage_refund
    (hder : ∀ digest key, (Crypto.signEcdsa digest key).length ≠ 31)
    {contract : HtlcContract} {outpoint : OutPoint} {tx : Transaction}
    (hrefund : BuiltRefund outpoint tx contract) :
    extractPreimage tx outpoint contract.paymentHash = none := by
  cases contract with
  | p2wsh paymentHash claimPubkey refundPubkey timeout htimeout =>
      obtain ⟨valueSat, destSpk, feeSat, key, hbuilt⟩ := hrefund
      obtain ⟨lockTime, sighash, rfl⟩ := buildHtlcSpend_eq_ok hbuilt
      apply extractPreimage_withWitness_eq_none
      intro element helement
      have hscript :
          32 < (buildHtlcScript paymentHash claimPubkey refundPubkey timeout).length := by
        have hpushed : .slice paymentHash.val ∈
            htlcPieces paymentHash claimPubkey refundPubkey timeout := by simp [htlcPieces]
        have hlt := length_lt_length_encode hpushed
        rwa [paymentHash.property] at hlt
      simp only [htlcWitness, List.mem_cons, List.not_mem_nil, or_false] at helement
      rcases helement with rfl | rfl | rfl
      · have hlen := hder sighash key
        rw [serializeEcdsa, List.length_append, List.length_singleton]
        omega
      · decide
      · exact hscript.ne'
  | taproot contract hdirection =>
      obtain ⟨valueSat, destination, feeSat, key, hbuilt⟩ := hrefund
      obtain ⟨outputValue, signature, rfl⟩ := BoltzTaprootSwap.spendTx_eq_ok hbuilt
      apply extractPreimage_withWitness_eq_none
      intro element helement
      have hscript : 32 < contract.refundScript.length := by
        have hpushed : .slice contract.refundKey.val ∈
            refundPieces contract.refundKey contract.parameters.timeout := by simp [refundPieces]
        have hlt := length_lt_length_encode hpushed
        rw [contract.refundKey.property] at hlt
        rw [contract.refundScript_eq]
        exact hlt
      simp only [BoltzTaprootSwap.witness, List.mem_cons, List.not_mem_nil, or_false] at helement
      rcases helement with rfl | rfl | rfl
      · rw [signature.property]
        decide
      · exact hscript.ne'
      · have hcontrol := contract.refundControlBlock.property
        omega

/-- **When an on-chain claim teaches the provider a preimage.**  Of an input
that consensus accepts through the claim branch, `extractPreimage` finds a
preimage of the payment hash exactly when the contract is the Taproot one or the
string the claimer pushed for the hash lock has 32 bytes.  And no refund the
program builds makes it find one. -/
theorem claim_teaches_preimage_iff
    (hder : ∀ digest key, (Crypto.signEcdsa digest key).length ≠ 31)
    (contract : HtlcContract) (outpoint : OutPoint) :
    (∀ (checkSig : Bytes → Bytes → Option Bool) (tx : Transaction) (input : TxIn),
      input ∈ tx.input → input.previousOutput = outpoint →
      (tx.input.map TxIn.previousOutput).Nodup →
      SpendsByClaim checkSig tx input contract → NoCollision contract input.witness →
      ((∃ preimage, extractPreimage tx outpoint contract.paymentHash = some preimage ∧
          Crypto.sha256 preimage.val = contract.paymentHash) ↔
        contract.isTaproot = true ∨ (claimedElement input.witness).length = 32)) ∧
    ∀ tx, BuiltRefund outpoint tx contract →
      extractPreimage tx outpoint contract.paymentHash = none := by
  refine ⟨?_, fun tx hrefund => extractPreimage_refund hder hrefund⟩
  intro checkSig tx input hmem hspends hdistinct hclaim hcollision
  obtain ⟨helement, hhash, htaproot⟩ := hclaim.claimedElement hcollision
  constructor
  · rintro ⟨preimage, hextract, -⟩
    obtain ⟨input', hmem', hspends', element, helement', hlen, hhash'⟩ :=
      extractPreimage_isSome_iff.mp (Option.isSome_iff_exists.mpr ⟨preimage, hextract⟩)
    have hinput : input' = input :=
      List.inj_on_of_nodup_map hdistinct hmem' hmem (hspends'.trans hspends.symm)
    subst hinput
    have hsame := hcollision.sha256 element helement' _ helement (hhash'.trans hhash.symm)
    exact Or.inr (hsame ▸ hlen)
  · intro hsize
    have hlen : (claimedElement input.witness).length = 32 := hsize.elim htaproot id
    have hsome := extractPreimage_isSome_iff.mpr
      ⟨input, hmem, hspends, claimedElement input.witness, helement, hlen, hhash⟩
    obtain ⟨preimage, hextract⟩ := Option.isSome_iff_exists.mp hsome
    exact ⟨preimage, hextract, (extractPreimage_eq_some hextract).2⟩

end

/-! ## The empty string as a preimage -/

namespace EmptyPreimage

/-- The SHA256 of the empty string, as a payment hash. -/
def hash : PaymentHash :=
  Bytes32.ofNat 0xe3b0c44298fc1c149afbf4c8996fb92427ae41e4649b934ca495991b7852b855

def claimPubkey : PublicKey := ⟨true, 0x02 :: List.replicate 32 0x11, by decide⟩

def refundPubkey : PublicKey := ⟨true, 0x03 :: List.replicate 32 0x22, by decide⟩

def sig : Bytes := List.replicate 71 0x30 ++ [0x01]

def script : Bytes := buildHtlcScript hash claimPubkey refundPubkey 800000

/-- The digests of the strings of this claim. -/
local instance realHashes : Crypto := tableCrypto
  [([], hash),
    (sig, Bytes32.ofNat 0x47a567419922ddb7ba66978213de810ae9b60fcfc485e6b99255b708d118a46b),
    ([0x01], Bytes32.ofNat 0x4bf5122f344554c53bde2ebb8cd2b7e3d1600ad631c385a5d7cce23c7785459a),
    (script, Bytes32.ofNat 0xddc839fa62ee94a559f4df43d0fa49243ef6276f89cbc365a0f0e0d1c0f6bea4)]

def contract : HtlcContract := .p2wsh hash claimPubkey refundPubkey 800000 (by decide)

def outpoint : OutPoint := ⟨7, 0⟩

/-- The claim: the empty string where the preimage goes. -/
def input : TxIn := ⟨outpoint, [], enableRbfNoLocktime, [sig, [], [0x01], script]⟩

def claim : Transaction := ⟨2, 0, [input], [⟨50000, []⟩]⟩

/-- The claimer's signature is good. -/
def checkSig (s key : Bytes) : Option Bool := some (s = sig ∧ key = claimPubkey.serialized)

theorem spendsByClaim : SpendsByClaim checkSig claim input contract :=
  ⟨[sig, [], [0x01]], script, rfl, rfl, by decide +kernel, by decide⟩

theorem noCollision : NoCollision contract input.witness where
  sha256 := by decide +kernel
  script paymentHash claimPubkey refundPubkey timeout h heq := by
    cases heq
    decide +kernel
  ripemd160 h := by cases h

/-- **The provider learns nothing from a claim with the empty string**, although
consensus accepts it. -/
theorem claim_teaches_nothing :
    input ∈ claim.input ∧ input.previousOutput = outpoint ∧
      (claim.input.map TxIn.previousOutput).Nodup ∧
      SpendsByClaim checkSig claim input contract ∧ NoCollision contract input.witness ∧
      ¬ ∃ preimage, extractPreimage claim outpoint contract.paymentHash = some preimage ∧
        Crypto.sha256 preimage.val = contract.paymentHash := by
  refine ⟨by decide, rfl, by decide, spendsByClaim, noCollision, ?_⟩
  rintro ⟨preimage, hextract, -⟩
  have hnone : extractPreimage claim outpoint contract.paymentHash = none := by decide +kernel
  rw [hnone] at hextract
  cases hextract

theorem claim_teaches_preimage_iff_empty :
    (∃ preimage, extractPreimage claim outpoint contract.paymentHash = some preimage ∧
        Crypto.sha256 preimage.val = contract.paymentHash) ↔
      contract.isTaproot = true ∨ (claimedElement input.witness).length = 32 := by
  have hder : ∀ digest key, (Crypto.signEcdsa digest key).length ≠ 31 := by
    intro digest key
    show (List.replicate 70 (0x30 : UInt8)).length ≠ 31
    decide
  exact (claim_teaches_preimage_iff hder contract outpoint).1 checkSig claim input
    (by decide) rfl (by decide) spendsByClaim noCollision

end EmptyPreimage

end PubkySwap
