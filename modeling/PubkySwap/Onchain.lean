import PubkySwap.Htlc
import PubkySwap.Lib.Word

/-!
# HTLC spends: building them, pricing them and reading them back

`buildHtlcSpend` signs a claim or a refund of a P2WSH HTLC.  The witness items
are those of the branch taken, so a refund never carries a preimage.
`extractPreimage` is how the other party learns one from a claim: it looks only
at the inputs that spend the HTLC, and there at every witness element.

Fees are a size times a rate, and the rate of a spend is bounded by a floor, by a
cap and, on the way up, by the height the spend has to confirm by.
-/

namespace PubkySwap

open BitcoinScript (Bytes)

/-! ## Pricing -/

/-- The size of a one-input, one-output spend of a P2WSH HTLC. -/
def spendVsize (redeemScript destSpk : Bytes) (isClaim : Bool) : ℕ :=
  let base := 4 + 1 + 36 + 1 + 4 + 1 + 8 + 1 + destSpk.length + 4
  let scriptLen := redeemScript.length
  let witness := 1 + 1 + 72 + varintLen scriptLen + scriptLen
  let witness := witness + if isClaim then 1 + 32 + 1 + 1 else 1
  let weight := base * 4 + witness + 2
  (weight + 3) / 4

/-- The absolute fee of a spend. -/
def estimateSpendFee (feeRateSatVb vsize : ℕ) : ℕ := Word.saturatingMul 64 vsize feeRateSatVb

/-- Confirmation target of a claim. -/
def claimFeeTargetBlocks : ℕ := 3

/-- Confirmation target of a refund. -/
def refundFeeTargetBlocks : ℕ := 6

/-- The rate of a first broadcast: an estimate, between the floor and the cap. -/
def resolveFeeRate (estimate : Option ℕ) (floorSatVb capSatVb : ℕ) : ℕ :=
  min (max (estimate.getD floorSatVb) floorSatVb) (max capSatVb floorSatVb)

/-- Ceiling on the rate any spend escalates to. -/
def absoluteMaxFeeRateSatVb : ℕ := 1000

/-- Share of an HTLC's value that may go to its sweep, in basis points. -/
def defaultMaxFeeBps : ℕ := 2000

/-- The ceiling for sweeping a value with a transaction of a size. -/
def feeRateCap (htlcValueSat vsize maxFeeBps absoluteCapSatVb floorSatVb : ℕ) : ℕ :=
  let maxFee := Word.truncate 64 (htlcValueSat * maxFeeBps / 10000)
  max (min (maxFee / max vsize 1) absoluteCapSatVb) floorSatVb

/-- The confirmation target with this many blocks left. -/
def targetForRemaining (remaining : ℕ) : ℕ :=
  if remaining ≤ 3 then 1
  else if remaining ≤ 9 then 2
  else if remaining ≤ 19 then 3
  else if remaining ≤ 49 then 6
  else 12

/-- The blocks left before a deadline; without one there is no end of them. -/
def remainingBlocks (tip : ℕ) (deadlineHeight : Option ℕ) : ℕ :=
  match deadlineHeight with
  | some deadline => deadline - tip
  | none => Word.maxValue 32

/-- The least rate that replaces a transaction paying `previous`. -/
def minBump (previous floorSatVb : ℕ) : ℕ :=
  max (Word.saturatingAdd 64 (Word.saturatingAdd 64 previous (previous / 4)) 1) floorSatVb

/-! ## Building a spend -/

/-- Outputs below this are not relayed. -/
def dustThreshold : ℕ := 546

/-- Which branch of the HTLC to spend. -/
inductive SpendPath where
  | claim (preimage : Preimage)
  | refund

/-- `Sequence::ENABLE_RBF_NO_LOCKTIME`. -/
def enableRbfNoLocktime : ℕ := 0xfffffffd

/-- `LockTime::from_height`. -/
def lockTimeFromHeight (height : ℕ) : Except SwapError ℕ :=
  if height < BitcoinScript.lockTimeThreshold then .ok height
  else .error (.other (s!"locktime: invalid lock time value {height}, " ++
    "expected lock-by-blockheight (must be < 500000000)"))

/-- The lock time of a branch: only the refund has one. -/
def SpendPath.lockTime (timeout : ℕ) : SpendPath → Except SwapError ℕ
  | claim _ => .ok 0
  | refund => lockTimeFromHeight timeout

/-- A spend of one outpoint to one output, not signed yet. -/
def unsignedSpend (outpoint : OutPoint) (valueSat : ℕ) (destination : Bytes) (lockTime : ℕ) :
    Transaction where
  version := 2
  lockTime := lockTime
  input := [{ previousOutput := outpoint, scriptSig := [], sequence := enableRbfNoLocktime,
              witness := [] }]
  output := [{ value := valueSat, scriptPubkey := destination }]

/-- The same transaction with the witness of its input. -/
def Transaction.withWitness (tx : Transaction) (witness : List Bytes) : Transaction :=
  { tx with input := tx.input.map fun input => { input with witness := witness } }

/-- The witness of a spend: signature, branch, script. -/
def htlcWitness (path : SpendPath) (sig redeemScript : Bytes) : List Bytes :=
  match path with
  | .claim preimage => [sig, preimage.val, [1], redeemScript]
  | .refund => [sig, [], redeemScript]

variable [Crypto]

/-- A signature with its sighash type, as `ecdsa::Signature::serialize` writes it. -/
def serializeEcdsa (digest : Bytes32) (key : SecretKey) : Bytes :=
  Crypto.signEcdsa digest key ++ [0x01]

/-- `build_htlc_spend`. -/
def buildHtlcSpend (htlcOutpoint : OutPoint) (htlcValueSat : ℕ) (redeemScript destSpk : Bytes)
    (feeSat timeout : ℕ) (path : SpendPath) (signingKey : SecretKey) :
    Except SwapError Transaction :=
  if htlcValueSat ≤ feeSat then
    .error (.other s!"fee {feeSat} >= htlc value {htlcValueSat}")
  else
    let outValue := htlcValueSat - feeSat
    if outValue < dustThreshold then
      .error (.other s!"swept output {outValue} below dust threshold")
    else do
      let lockTime ← path.lockTime timeout
      let tx := unsignedSpend htlcOutpoint outValue destSpk lockTime
      let sighash ← (Crypto.p2wshSignatureHash tx 0 redeemScript htlcValueSat).mapError
        fun e => .htlc ("sighash: " ++ e)
      .ok (tx.withWitness (htlcWitness path (serializeEcdsa sighash signingKey) redeemScript))

/-- `build_claim_tx`. -/
def buildClaimTx (htlcOutpoint : OutPoint) (htlcValueSat : ℕ) (redeemScript destSpk : Bytes)
    (feeSat : ℕ) (preimage : Preimage) (claimKey : SecretKey) : Except SwapError Transaction :=
  buildHtlcSpend htlcOutpoint htlcValueSat redeemScript destSpk feeSat 0 (.claim preimage) claimKey

/-- `build_refund_tx`. -/
def buildRefundTx (htlcOutpoint : OutPoint) (htlcValueSat : ℕ) (redeemScript destSpk : Bytes)
    (feeSat timeout : ℕ) (refundKey : SecretKey) : Except SwapError Transaction :=
  buildHtlcSpend htlcOutpoint htlcValueSat redeemScript destSpk feeSat timeout .refund refundKey

omit [Crypto] in
/-- A height is a lock time when it is one. -/
theorem lockTimeFromHeight_eq_ok {height lockTime : ℕ}
    (h : lockTimeFromHeight height = .ok lockTime) :
    lockTime = height ∧ height < BitcoinScript.lockTimeThreshold := by
  unfold lockTimeFromHeight at h
  split at h
  · next hheight => exact ⟨(Except.ok.inj h).symm, hheight⟩
  · cases h

/-- **What a built spend is**: the unsigned spend of the outpoint, for all but the fee,
with the witness of its branch, signed for the value that is spent. -/
structure HtlcSpend (htlcOutpoint : OutPoint) (htlcValueSat : ℕ) (redeemScript destSpk : Bytes)
    (feeSat timeout : ℕ) (path : SpendPath) (signingKey : SecretKey) (lockTime : ℕ)
    (sighash : Bytes32) (tx : Transaction) : Prop where
  fee : feeSat < htlcValueSat
  dust : dustThreshold ≤ htlcValueSat - feeSat
  locked : path.lockTime timeout = .ok lockTime
  digest : Crypto.p2wshSignatureHash
    (unsignedSpend htlcOutpoint (htlcValueSat - feeSat) destSpk lockTime) 0 redeemScript
      htlcValueSat = .ok sighash
  tx_eq : tx = (unsignedSpend htlcOutpoint (htlcValueSat - feeSat) destSpk lockTime).withWitness
    (htlcWitness path (serializeEcdsa sighash signingKey) redeemScript)

theorem htlcSpend_of_build {htlcOutpoint : OutPoint} {htlcValueSat : ℕ}
    {redeemScript destSpk : Bytes} {feeSat timeout : ℕ} {path : SpendPath}
    {signingKey : SecretKey} {tx : Transaction}
    (h : buildHtlcSpend htlcOutpoint htlcValueSat redeemScript destSpk feeSat timeout path
      signingKey = .ok tx) :
    ∃ lockTime sighash, HtlcSpend htlcOutpoint htlcValueSat redeemScript destSpk feeSat timeout path
      signingKey lockTime sighash tx := by
  unfold buildHtlcSpend at h
  split at h
  · cases h
  · rename_i hfee
    simp only at h
    split at h
    · cases h
    · rename_i hdust
      obtain ⟨lockTime, hlock, h⟩ := bind_eq_ok h
      obtain ⟨sighash, hsighash, h⟩ := bind_eq_ok h
      cases h
      exact ⟨lockTime, sighash, not_le.mp hfee, not_lt.mp hdust, hlock, mapError_eq_ok.mp hsighash,
        rfl⟩

theorem HtlcSpend.build {htlcOutpoint : OutPoint} {htlcValueSat : ℕ}
    {redeemScript destSpk : Bytes} {feeSat timeout : ℕ} {path : SpendPath}
    {signingKey : SecretKey} {lockTime : ℕ} {sighash : Bytes32} {tx : Transaction}
    (h : HtlcSpend htlcOutpoint htlcValueSat redeemScript destSpk feeSat timeout path signingKey
      lockTime sighash tx) :
    buildHtlcSpend htlcOutpoint htlcValueSat redeemScript destSpk feeSat timeout path signingKey =
      .ok tx := by
  unfold buildHtlcSpend
  rw [if_neg (not_le.mpr h.fee)]
  dsimp only
  rw [if_neg (not_lt.mpr h.dust), h.locked, h.tx_eq]
  dsimp only [bind, Except.bind]
  rw [h.digest]
  rfl

/-- The transaction of a built spend. -/
theorem buildHtlcSpend_eq_ok {htlcOutpoint : OutPoint} {htlcValueSat : ℕ}
    {redeemScript destSpk : Bytes} {feeSat timeout : ℕ} {path : SpendPath}
    {signingKey : SecretKey} {tx : Transaction}
    (h : buildHtlcSpend htlcOutpoint htlcValueSat redeemScript destSpk feeSat timeout path
      signingKey = .ok tx) :
    ∃ lockTime sighash,
      tx = (unsignedSpend htlcOutpoint (htlcValueSat - feeSat) destSpk lockTime).withWitness
        (htlcWitness path (serializeEcdsa sighash signingKey) redeemScript) := by
  obtain ⟨lockTime, sighash, hspend⟩ := htlcSpend_of_build h
  exact ⟨lockTime, sighash, hspend.tx_eq⟩

/-- A built spend spends the outpoint it was built for. -/
theorem buildHtlcSpend_spends {htlcOutpoint : OutPoint} {htlcValueSat : ℕ}
    {redeemScript destSpk : Bytes} {feeSat timeout : ℕ} {path : SpendPath}
    {signingKey : SecretKey} {tx : Transaction}
    (h : buildHtlcSpend htlcOutpoint htlcValueSat redeemScript destSpk feeSat timeout path
      signingKey = .ok tx) : tx.Spends htlcOutpoint := by
  obtain ⟨lockTime, sighash, rfl⟩ := buildHtlcSpend_eq_ok h
  exact ⟨_, List.mem_singleton_self _, rfl⟩

/-! ## Reading a spend back -/

/-- The first element that is a preimage of the hash. -/
def preimageIn (paymentHash : PaymentHash) (elements : List Bytes) : Option Preimage :=
  elements.findSome? fun element =>
    if hlen : element.length = 32 then
      if Crypto.sha256 element = paymentHash then some ⟨element, hlen⟩ else none
    else none

/-- `extract_preimage`. -/
def extractPreimage (tx : Transaction) (htlcOutpoint : OutPoint) (paymentHash : PaymentHash) :
    Option Preimage :=
  tx.input.findSome? fun input =>
    if input.previousOutput ≠ htlcOutpoint then none
    else preimageIn paymentHash input.witness

theorem preimageIn_eq_some {paymentHash : PaymentHash} {elements : List Bytes}
    {preimage : Preimage} (h : preimageIn paymentHash elements = some preimage) :
    preimage.val ∈ elements ∧ Crypto.sha256 preimage.val = paymentHash := by
  obtain ⟨element, hmem, helement⟩ := List.exists_of_findSome?_eq_some h
  split at helement
  · split at helement
    · next hhash =>
        cases helement
        exact ⟨hmem, hhash⟩
    · cases helement
  · cases helement

theorem preimageIn_isSome_iff {paymentHash : PaymentHash} {elements : List Bytes} :
    (preimageIn paymentHash elements).isSome ↔
      ∃ element ∈ elements, element.length = 32 ∧ Crypto.sha256 element = paymentHash := by
  constructor
  · intro h
    obtain ⟨preimage, hpreimage⟩ := Option.isSome_iff_exists.mp h
    obtain ⟨hmem, hhash⟩ := preimageIn_eq_some hpreimage
    exact ⟨preimage.val, hmem, preimage.property, hhash⟩
  · rintro ⟨element, hmem, hlen, hhash⟩
    rw [preimageIn, List.findSome?_isSome_iff]
    exact ⟨element, hmem, by rw [dif_pos hlen, if_pos hhash]; rfl⟩

/-- What is extracted is a preimage, revealed by an input that spends the HTLC. -/
theorem extractPreimage_eq_some {tx : Transaction} {htlcOutpoint : OutPoint}
    {paymentHash : PaymentHash} {preimage : Preimage}
    (h : extractPreimage tx htlcOutpoint paymentHash = some preimage) :
    tx.Spends htlcOutpoint ∧ Crypto.sha256 preimage.val = paymentHash := by
  obtain ⟨input, hmem, hinput⟩ := List.exists_of_findSome?_eq_some h
  split at hinput
  · cases hinput
  · next hspends => exact ⟨⟨input, hmem, not_not.mp hspends⟩, (preimageIn_eq_some hinput).2⟩

/-- **Extraction succeeds exactly when** some input that spends the HTLC carries
a 32-byte element with the right hash. -/
theorem extractPreimage_isSome_iff {tx : Transaction} {htlcOutpoint : OutPoint}
    {paymentHash : PaymentHash} :
    (extractPreimage tx htlcOutpoint paymentHash).isSome ↔
      ∃ input ∈ tx.input, input.previousOutput = htlcOutpoint ∧
        ∃ element ∈ input.witness, element.length = 32 ∧
          Crypto.sha256 element = paymentHash := by
  rw [extractPreimage, List.findSome?_isSome_iff]
  refine exists_congr fun input => and_congr_right fun _ => ?_
  by_cases hspends : input.previousOutput = htlcOutpoint
  · rw [if_neg (not_not.mpr hspends), preimageIn_isSome_iff]
    exact ⟨fun h => ⟨hspends, h⟩, fun h => h.2⟩
  · rw [if_pos hspends]
    exact ⟨fun h => (by cases h), fun h => absurd h.1 hspends⟩

end PubkySwap
