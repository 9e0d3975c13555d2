import PubkySwap.Onchain

/-!
# Taproot HTLCs

The two-leaf contract: the claim leaf asks for a preimage and the receiver's
signature, the refund leaf for the funder's signature and the timeout.  For a
reverse swap the claim leaf also asks for the preimage's size, which the P2WSH
script does not.

`BoltzTaprootSwap` is the validated contract.  Its fields beyond the parameters
are determined by them, and the structure says so, so a contract whose scripts
or proofs belong to other parameters cannot be built.
-/

namespace PubkySwap

open BitcoinScript (Bytes Piece Opcode encode)

/-- What `build_refund_script` pushes. -/
def refundPieces (key : Bytes32) (timeout : ℕ) : List Piece :=
  [.slice key.val, .opcode .opChecksigverify, .int timeout, .opcode .opCltv]

/-- `build_refund_script`. -/
def buildRefundScript (key : Bytes32) (timeout : ℕ) : Bytes := encode (refundPieces key timeout)

/-- The public parameters a contract is rebuilt from. -/
structure TaprootParameters where
  direction : SwapDirection
  paymentHash : PaymentHash
  claimPublicKey : PublicKey
  refundPublicKey : PublicKey
  timeout : ℕ
  deriving DecidableEq, Repr

/-- `validate_parameters`. -/
def validateParameters (claim refund : PublicKey) (timeout : ℕ) : Except SwapError Unit :=
  if !claim.compressed || !refund.compressed || claim.xOnly == refund.xOnly then
    .error (.invalidPubkey "Taproot requires distinct compressed public keys")
  else if timeout = 0 ∨ BitcoinScript.lockTimeThreshold ≤ timeout then
    .error (.htlc "Taproot timeout must be a nonzero block height")
  else .ok ()

/-- `Amount::MAX_MONEY`. -/
def maxMoneySat : ℕ := 2100000000000000

variable [Crypto]

/-- What `build_claim_script` pushes. -/
def claimPieces (direction : SwapDirection) (paymentHash : PaymentHash) (key : Bytes32) :
    List Piece :=
  (match direction with
    | .submarine => []
    | .reverse => [.opcode .opSize, .int 32, .opcode .opEqualverify]) ++
  [.opcode .opHash160, .slice (Crypto.ripemd160 paymentHash.val).val, .opcode .opEqualverify,
    .slice key.val, .opcode .opChecksig]

/-- `build_claim_script`. -/
def buildClaimScript (direction : SwapDirection) (paymentHash : PaymentHash) (key : Bytes32) :
    Bytes :=
  encode (claimPieces direction paymentHash key)

/-- **A validated contract.** -/
structure BoltzTaprootSwap where
  parameters : TaprootParameters
  claimKey : Bytes32
  refundKey : Bytes32
  claimScript : Bytes
  refundScript : Bytes
  spendInfo : TaprootSpendInfo
  claimControlBlock : ControlBlock
  refundControlBlock : ControlBlock
  claimScript_eq :
    claimScript = buildClaimScript parameters.direction parameters.paymentHash claimKey
  refundScript_eq : refundScript = buildRefundScript refundKey parameters.timeout
  claimControlBlock_eq : spendInfo.controlBlock claimScript = some claimControlBlock
  refundControlBlock_eq : spendInfo.controlBlock refundScript = some refundControlBlock

/-- `aggregate_internal_key`: the provider's key first. -/
def aggregateInternalKey (direction : SwapDirection) (claim refund : PublicKey) :
    Except SwapError Bytes32 :=
  match direction with
  | .submarine => Crypto.aggregateKeys claim refund
  | .reverse => Crypto.aggregateKeys refund claim

/-- `BoltzTaprootSwap::new`. -/
def BoltzTaprootSwap.new (direction : SwapDirection) (paymentHash : PaymentHash)
    (claim refund : PublicKey) (timeout : ℕ) : Except SwapError BoltzTaprootSwap := do
  validateParameters claim refund timeout
  let claimScript := buildClaimScript direction paymentHash claim.xOnly
  let refundScript := buildRefundScript refund.xOnly timeout
  let internalKey ← aggregateInternalKey direction claim refund
  let spendInfo ← Crypto.finalizeTaproot internalKey [(1, claimScript), (1, refundScript)]
  match hclaim : spendInfo.controlBlock claimScript,
      hrefund : spendInfo.controlBlock refundScript with
  | some claimControlBlock, some refundControlBlock =>
      .ok
        { parameters := ⟨direction, paymentHash, claim, refund, timeout⟩
          claimKey := claim.xOnly
          refundKey := refund.xOnly
          claimScript := claimScript
          refundScript := refundScript
          spendInfo := spendInfo
          claimControlBlock := claimControlBlock
          refundControlBlock := refundControlBlock
          claimScript_eq := rfl
          refundScript_eq := rfl
          claimControlBlock_eq := hclaim
          refundControlBlock_eq := hrefund }
  | _, _ => .error (.htlc "Taproot leaf missing from commitment")

omit [Crypto] in
/-- Accepted parameters: two compressed keys, and a block height other than zero. -/
theorem validateParameters_eq_ok {claim refund : PublicKey} {timeout : ℕ}
    (h : validateParameters claim refund timeout = .ok ()) :
    claim.compressed = true ∧ refund.compressed = true ∧ timeout ≠ 0 ∧
      timeout < BitcoinScript.lockTimeThreshold := by
  unfold validateParameters at h
  split at h
  · cases h
  · rename_i hkeys
    split at h
    · cases h
    · rename_i htimeout
      simp only [Bool.or_eq_true, Bool.not_eq_true', not_or, Bool.not_eq_false] at hkeys
      rw [not_or, not_le] at htimeout
      exact ⟨hkeys.1.1, hkeys.1.2, htimeout⟩

/-- **What a new contract is**: its parameters, the keys and scripts they determine, and
the commitment to both scripts under the aggregate key. -/
theorem BoltzTaprootSwap.new_eq_ok {direction : SwapDirection} {paymentHash : PaymentHash}
    {claim refund : PublicKey} {timeout : ℕ} {contract : BoltzTaprootSwap}
    (h : BoltzTaprootSwap.new direction paymentHash claim refund timeout = .ok contract) :
    validateParameters claim refund timeout = .ok () ∧
      contract.parameters = ⟨direction, paymentHash, claim, refund, timeout⟩ ∧
      contract.claimKey = claim.xOnly ∧ contract.refundKey = refund.xOnly ∧
      ∃ internalKey, aggregateInternalKey direction claim refund = .ok internalKey ∧
        Crypto.finalizeTaproot internalKey [(1, contract.claimScript), (1, contract.refundScript)] =
          .ok contract.spendInfo := by
  obtain ⟨_, hvalid, h⟩ := bind_eq_ok h
  obtain ⟨internalKey, hinternal, h⟩ := bind_eq_ok h
  obtain ⟨spendInfo, hinfo, h⟩ := bind_eq_ok h
  split at h
  · cases h
    exact ⟨hvalid, rfl, rfl, rfl, internalKey, hinternal, hinfo⟩
  · cases h

namespace BoltzTaprootSwap

variable (contract : BoltzTaprootSwap)

/-- The funding output's script: the witness version and the output key. -/
def scriptPubkey : Bytes := 0x51 :: 0x20 :: contract.spendInfo.outputKey.val

def leafScript : SpendPath → Bytes
  | .claim _ => contract.claimScript
  | .refund => contract.refundScript

/-- Only the refund has a lock time. -/
def lockTime : SpendPath → ℕ
  | .claim _ => 0
  | .refund => contract.parameters.timeout

/-- The witness of a spend: the stack, then the leaf and its proof. -/
def witness (path : SpendPath) (signature : Bytes64) : List Bytes :=
  match path with
  | .claim preimage =>
      [signature.val, preimage.val, contract.claimScript, contract.claimControlBlock.val]
  | .refund => [signature.val, contract.refundScript, contract.refundControlBlock.val]

omit [Crypto] in
theorem length_placeholder : (List.replicate 64 (0 : UInt8)).length = 64 := rfl

/-- `spend_vsize`: the size of the spend with a placeholder signature. -/
def spendVsize (destination : Bytes) (isClaim : Bool) : ℕ :=
  let path := if isClaim then .claim ⟨List.replicate 32 0, rfl⟩ else .refund
  ((unsignedSpend ⟨0, 0xffffffff⟩ 0 destination (contract.lockTime path)).withWitness
    (contract.witness path ⟨List.replicate 64 0, length_placeholder⟩)).vsize

/-- `validate_signing_key`. -/
def validateSigningKey (path : SpendPath) (actual : Bytes32) : Except SwapError Unit :=
  let expected := match path with
    | .claim _ => contract.claimKey
    | .refund => contract.refundKey
  if actual ≠ expected then .error (.invalidPubkey "key does not own the Taproot script path")
  else .ok ()

end BoltzTaprootSwap

/-- `spend_output_value`. -/
def spendOutputValue (valueSat feeSat : ℕ) (destination : Bytes) : Except SwapError ℕ :=
  if maxMoneySat < valueSat ∨ feeSat = 0 then
    .error (.invalidAmount "invalid Taproot funding value or zero fee")
  else
    match Word.checkedSub valueSat feeSat with
    | none => .error (.invalidAmount "Taproot spend fee exceeds funding value")
    | some value =>
        let dust := max (Crypto.minimalNonDust destination) dustThreshold
        if value < dust then
          .error (.invalidAmount s!"Taproot spend output is below dust ({dust} sat)")
        else .ok value

namespace BoltzTaprootSwap

variable (contract : BoltzTaprootSwap)

/-- `spend_tx`. -/
def spendTx (outpoint : OutPoint) (valueSat : ℕ) (destination : Bytes) (feeSat : ℕ)
    (path : SpendPath) (key : SecretKey) : Except SwapError Transaction := do
  contract.validateSigningKey path (Crypto.xOnlyPublicKey key)
  let outputValue ← spendOutputValue valueSat feeSat destination
  let tx := unsignedSpend outpoint outputValue destination (contract.lockTime path)
  let sighash ← (Crypto.taprootSignatureHash tx 0 [⟨valueSat, contract.scriptPubkey⟩]
    (Crypto.tapLeafHash (contract.leafScript path))).mapError
      fun e => .htlc ("Taproot sighash: " ++ e)
  .ok (tx.withWitness (contract.witness path (Crypto.signSchnorr sighash key)))

/-- `claim_tx`. -/
def claimTx (outpoint : OutPoint) (valueSat : ℕ) (destination : Bytes) (feeSat : ℕ)
    (preimage : Preimage) (key : SecretKey) : Except SwapError Transaction :=
  if paymentHash preimage ≠ contract.parameters.paymentHash then
    .error (.invalidPreimage "Taproot claim preimage does not match")
  else contract.spendTx outpoint valueSat destination feeSat (.claim preimage) key

/-- `refund_tx`. -/
def refundTx (outpoint : OutPoint) (valueSat : ℕ) (destination : Bytes) (feeSat : ℕ)
    (key : SecretKey) : Except SwapError Transaction :=
  contract.spendTx outpoint valueSat destination feeSat .refund key

/-- The key a path asks for. -/
def pathKey : SpendPath → Bytes32
  | .claim _ => contract.claimKey
  | .refund => contract.refundKey

theorem validateSigningKey_eq_ok {contract : BoltzTaprootSwap} {path : SpendPath}
    {actual : Bytes32} (h : contract.validateSigningKey path actual = .ok ()) :
    actual = contract.pathKey path := by
  unfold validateSigningKey at h
  cases path with
  | claim preimage => exact not_not.mp (ite_error_eq_ok.mp h).1
  | refund => exact not_not.mp (ite_error_eq_ok.mp h).1

theorem spendOutputValue_eq_ok {valueSat feeSat value : ℕ} {destination : Bytes}
    (h : spendOutputValue valueSat feeSat destination = .ok value) :
    value = valueSat - feeSat ∧ feeSat ≤ valueSat ∧ dustThreshold ≤ value := by
  unfold spendOutputValue at h
  split at h
  · cases h
  · unfold Word.checkedSub at h
    split at h
    · cases h
    · rename_i found hfound
      split at hfound
      · rename_i hle
        cases hfound
        simp only at h
        split at h
        · cases h
        · rename_i hdust
          cases h
          exact ⟨rfl, hle, (le_max_right _ _).trans (not_lt.mp hdust)⟩
      · cases hfound

/-- **What a built spend is**: the unsigned spend of the outpoint, for all but the fee,
with the witness of its path, signed by the key of the path for the output that is
spent. -/
structure Spend (contract : BoltzTaprootSwap) (outpoint : OutPoint) (valueSat : ℕ)
    (destination : Bytes) (feeSat : ℕ) (path : SpendPath) (key : SecretKey) (sighash : Bytes32)
    (tx : Transaction) : Prop where
  key_eq : Crypto.xOnlyPublicKey key = contract.pathKey path
  fee : feeSat ≤ valueSat
  dust : dustThreshold ≤ valueSat - feeSat
  digest : Crypto.taprootSignatureHash
    (unsignedSpend outpoint (valueSat - feeSat) destination (contract.lockTime path)) 0
      [⟨valueSat, contract.scriptPubkey⟩] (Crypto.tapLeafHash (contract.leafScript path)) =
        .ok sighash
  tx_eq : tx = (unsignedSpend outpoint (valueSat - feeSat) destination
    (contract.lockTime path)).withWitness (contract.witness path (Crypto.signSchnorr sighash key))

theorem spend_of_spendTx {contract : BoltzTaprootSwap} {outpoint : OutPoint} {valueSat : ℕ}
    {destination : Bytes} {feeSat : ℕ} {path : SpendPath} {key : SecretKey} {tx : Transaction}
    (h : contract.spendTx outpoint valueSat destination feeSat path key = .ok tx) :
    ∃ sighash, contract.Spend outpoint valueSat destination feeSat path key sighash tx := by
  obtain ⟨_, hkey, h⟩ := bind_eq_ok h
  obtain ⟨outputValue, hvalue, h⟩ := bind_eq_ok h
  obtain ⟨rfl, hfee, hdust⟩ := spendOutputValue_eq_ok hvalue
  obtain ⟨sighash, hsighash, h⟩ := bind_eq_ok h
  cases h
  exact ⟨sighash, validateSigningKey_eq_ok hkey, hfee, hdust, mapError_eq_ok.mp hsighash, rfl⟩

/-- The transaction of a built spend. -/
theorem spendTx_eq_ok {contract : BoltzTaprootSwap} {outpoint : OutPoint} {valueSat : ℕ}
    {destination : Bytes} {feeSat : ℕ} {path : SpendPath} {key : SecretKey} {tx : Transaction}
    (h : contract.spendTx outpoint valueSat destination feeSat path key = .ok tx) :
    ∃ outputValue signature,
      tx = (unsignedSpend outpoint outputValue destination (contract.lockTime path)).withWitness
        (contract.witness path signature) := by
  obtain ⟨sighash, hspend⟩ := spend_of_spendTx h
  exact ⟨_, _, hspend.tx_eq⟩

theorem spendTx_spends {contract : BoltzTaprootSwap} {outpoint : OutPoint} {valueSat : ℕ}
    {destination : Bytes} {feeSat : ℕ} {path : SpendPath} {key : SecretKey} {tx : Transaction}
    (h : contract.spendTx outpoint valueSat destination feeSat path key = .ok tx) :
    tx.Spends outpoint := by
  obtain ⟨outputValue, signature, rfl⟩ := spendTx_eq_ok h
  exact ⟨_, List.mem_singleton_self _, rfl⟩

end BoltzTaprootSwap

/-- Every piece of a claim leaf is read back as it was written. -/
theorem claimPieces_plain (direction : SwapDirection) (paymentHash : PaymentHash)
    (key : Bytes32) : ∀ piece ∈ claimPieces direction paymentHash key, piece.Plain := by
  have hkey : key.val.length < 0x4c := by
    rw [key.property]
    decide
  have hhash : (Crypto.ripemd160 paymentHash.val).val.length < 0x4c := by
    rw [(Crypto.ripemd160 paymentHash.val).property]
    decide
  have hsize : (32 : ℕ) < 2 ^ 32 := by decide
  intro piece hpiece
  cases direction with
  | submarine =>
      simp only [claimPieces, List.nil_append, List.mem_cons, List.not_mem_nil, or_false] at hpiece
      rcases hpiece with rfl | rfl | rfl | rfl | rfl
      all_goals first
        | exact hhash
        | exact hkey
        | exact fun h => by cases h
  | reverse =>
      simp only [claimPieces, List.cons_append, List.nil_append, List.mem_cons,
        List.not_mem_nil, or_false] at hpiece
      rcases hpiece with rfl | rfl | rfl | rfl | rfl | rfl | rfl | rfl
      all_goals first
        | exact hhash
        | exact hkey
        | exact hsize
        | exact fun h => by cases h

end PubkySwap
