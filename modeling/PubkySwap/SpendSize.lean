import PubkySwap.Taproot

/-!
# The size of a spend

A spend is priced before it is signed.  For a P2WSH HTLC `spendVsize` adds up the bytes of
the transaction with a signature of 72 bytes, the longest there is; for a Taproot HTLC the
contract measures the transaction itself with a placeholder, as all signatures are of one
length.

Both are the size of the transaction that is broadcast: a P2WSH spend weighs less by the
bytes its signature falls short (`spendVsize_covers`), a Taproot spend weighs the same
(`BoltzTaprootSwap.vsize_spendTx`).
-/

namespace PubkySwap

open BitcoinScript (Bytes)

/-- `matches!(path, SpendPath::Claim { .. })`. -/
def SpendPath.isClaim : SpendPath → Bool
  | claim _ => true
  | refund => false

/-! ## Parts of a transaction -/

theorem varintLen_of_lt {n : ℕ} (h : n < 253) : varintLen n = 1 :=
  if_pos (Nat.le_of_lt_succ h)

theorem prefixedLen_of_lt {bytes : Bytes} (h : bytes.length < 253) :
    prefixedLen bytes = 1 + bytes.length := by
  rw [prefixedLen, varintLen_of_lt h]

/-- The bytes of a spend but for its witness: 60, and the destination's. -/
theorem baseSize_unsignedSpend {destination : Bytes} (hdest : destination.length < 253)
    (outpoint : OutPoint) (valueSat lockTime : ℕ) (witness : List Bytes) :
    ((unsignedSpend outpoint valueSat destination lockTime).withWitness witness).baseSize =
      60 + destination.length := by
  show 4 + 1 + (36 + 1 + 4) + 1 + (8 + prefixedLen destination) + 4 = 60 + destination.length
  rw [prefixedLen_of_lt hdest]
  omega

/-- The bytes of its witness: marker and flag, the number of items, the items. -/
theorem witnessSize_unsignedSpend {witness : List Bytes} (hne : witness ≠ [])
    (outpoint : OutPoint) (valueSat lockTime : ℕ) (destination : Bytes) :
    ((unsignedSpend outpoint valueSat destination lockTime).withWitness witness).witnessSize =
      2 + (varintLen witness.length + (witness.map prefixedLen).sum) := by
  have hall : ([witness].all (·.isEmpty)) = false := by
    cases witness with
    | nil => exact absurd rfl hne
    | cons item items => rfl
  show (if [witness].all (·.isEmpty) = true then 0 else _) = _
  rw [hall]
  rfl

/-- The items of an HTLC's witness, with a signature that a single byte prefixes. -/
theorem sum_htlcWitness {signature : Bytes} (hsig : signature.length < 253) (path : SpendPath)
    (redeemScript : Bytes) :
    ((htlcWitness path signature redeemScript).map prefixedLen).sum =
      1 + signature.length + (if path.isClaim then 1 + 32 + 1 + 1 else 1) +
        prefixedLen redeemScript := by
  cases path with
  | claim preimage =>
      show prefixedLen signature +
        (prefixedLen preimage.val + (2 + (prefixedLen redeemScript + 0))) =
        1 + signature.length + 35 + prefixedLen redeemScript
      have hpreimage : preimage.val.length < 253 := by
        rw [preimage.property]
        decide
      rw [prefixedLen_of_lt hsig, prefixedLen_of_lt hpreimage, preimage.property]
      omega
  | refund =>
      show prefixedLen signature + (1 + (prefixedLen redeemScript + 0)) =
        1 + signature.length + 1 + prefixedLen redeemScript
      rw [prefixedLen_of_lt hsig]
      omega

theorem varintLen_htlcWitness (path : SpendPath) (signature redeemScript : Bytes) :
    varintLen (htlcWitness path signature redeemScript).length = 1 := by
  cases path with
  | claim preimage => rfl
  | refund => rfl

/-! ## The two sizes -/

/-- The weight of a spend with a signature of the given length. -/
def htlcSpendWeight (redeemScript destination : Bytes) (isClaim : Bool) (signature : ℕ) : ℕ :=
  (60 + destination.length) * 4 + 2 + 1 + 1 + signature +
    (if isClaim then 1 + 32 + 1 + 1 else 1) + prefixedLen redeemScript

/-- The estimate is the size with a signature of 72 bytes. -/
theorem spendVsize_eq (redeemScript destination : Bytes) (isClaim : Bool) :
    spendVsize redeemScript destination isClaim =
      (htlcSpendWeight redeemScript destination isClaim 72 + 3) / 4 := by
  rw [spendVsize, htlcSpendWeight, prefixedLen]
  congr 1
  omega

/-- The size of a signed spend. -/
theorem vsize_htlcSpend {signature destination : Bytes} (hsig : signature.length < 253)
    (hdest : destination.length < 253) (outpoint : OutPoint) (valueSat lockTime : ℕ)
    (path : SpendPath) (redeemScript : Bytes) :
    ((unsignedSpend outpoint valueSat destination lockTime).withWitness
        (htlcWitness path signature redeemScript)).vsize =
      (htlcSpendWeight redeemScript destination path.isClaim signature.length + 3) / 4 := by
  have hne : htlcWitness path signature redeemScript ≠ [] := by
    cases path with
    | claim preimage => exact List.cons_ne_nil _ _
    | refund => exact List.cons_ne_nil _ _
  rw [Transaction.vsize, baseSize_unsignedSpend hdest, witnessSize_unsignedSpend hne,
    varintLen_htlcWitness, sum_htlcWitness hsig, htlcSpendWeight]
  congr 1
  omega

/-- What a shorter signature saves. -/
theorem htlcSpendWeight_add (redeemScript destination : Bytes) (isClaim : Bool) {signature : ℕ}
    (h : signature ≤ 72) :
    htlcSpendWeight redeemScript destination isClaim signature + (72 - signature) =
      htlcSpendWeight redeemScript destination isClaim 72 := by
  rw [htlcSpendWeight, htlcSpendWeight]
  omega

/-- The size of a spend depends on its witness through the lengths of the items only. -/
theorem vsize_withWitness_congr {witness witness' : List Bytes} (hne : witness ≠ [])
    (hlength : witness.map List.length = witness'.map List.length) (outpoint outpoint' : OutPoint)
    (valueSat valueSat' lockTime lockTime' : ℕ) (destination : Bytes) :
    ((unsignedSpend outpoint valueSat destination lockTime).withWitness witness).vsize =
      ((unsignedSpend outpoint' valueSat' destination lockTime').withWitness witness').vsize := by
  have hprefixed (items : List Bytes) :
      items.map prefixedLen = (items.map List.length).map fun n => varintLen n + n := by
    rw [List.map_map]
    rfl
  have hcount : witness.length = witness'.length := by
    simpa using congrArg List.length hlength
  have hne' : witness' ≠ [] := by
    rw [← List.length_pos_iff, ← hcount, List.length_pos_iff]
    exact hne
  rw [Transaction.vsize, Transaction.vsize, witnessSize_unsignedSpend hne,
    witnessSize_unsignedSpend hne', hprefixed, hprefixed, hlength, hcount]
  rfl

section

variable [Crypto]

/-- **The estimate covers the spend**: it is at least the size of the transaction that is
built, and above it by no more than what the signature falls short of 72 bytes. -/
theorem spendVsize_covers {htlcOutpoint : OutPoint} {htlcValueSat : ℕ}
    {redeemScript destSpk : Bytes} {feeSat timeout : ℕ} {path : SpendPath}
    {signingKey : SecretKey} {tx : Transaction}
    (hbuilt : buildHtlcSpend htlcOutpoint htlcValueSat redeemScript destSpk feeSat timeout path
      signingKey = .ok tx) (hdest : destSpk.length < 253) :
    ∃ signature, tx.input.map TxIn.witness = [htlcWitness path signature redeemScript] ∧
      (signature.length ≤ 72 →
        tx.vsize ≤ spendVsize redeemScript destSpk path.isClaim ∧
          spendVsize redeemScript destSpk path.isClaim ≤
            tx.vsize + ((72 - signature.length + 3) / 4 + 1)) := by
  obtain ⟨lockTime, sighash, rfl⟩ := buildHtlcSpend_eq_ok hbuilt
  refine ⟨serializeEcdsa sighash signingKey, rfl, fun hsig => ?_⟩
  have hweight := htlcSpendWeight_add redeemScript destSpk path.isClaim hsig
  rw [vsize_htlcSpend (by omega) hdest, spendVsize_eq]
  omega

/-- **A Taproot spend is of the size it is priced at**, for any destination. -/
theorem BoltzTaprootSwap.vsize_spendTx {contract : BoltzTaprootSwap} {outpoint : OutPoint}
    {valueSat feeSat : ℕ} {destination : Bytes} {path : SpendPath} {key : SecretKey}
    {tx : Transaction}
    (h : contract.spendTx outpoint valueSat destination feeSat path key = .ok tx) :
    tx.vsize = contract.spendVsize destination path.isClaim := by
  obtain ⟨sighash, hspend⟩ := BoltzTaprootSwap.spend_of_spendTx h
  rw [hspend.tx_eq, BoltzTaprootSwap.spendVsize]
  have hsig : (Crypto.signSchnorr sighash key).val.length =
    (List.replicate 64 (0 : UInt8)).length :=
    (Crypto.signSchnorr sighash key).property
  cases path with
  | claim preimage =>
      refine vsize_withWitness_congr (List.cons_ne_nil _ _) ?_ _ _ _ _ _ _ _
      show [_, _, _, _] = [_, _, _, _]
      rw [hsig, preimage.property]
      rfl
  | refund =>
      refine vsize_withWitness_congr (List.cons_ne_nil _ _) ?_ _ _ _ _ _ _ _
      show [_, _, _] = [_, _, _]
      rw [hsig]

end

/-! ## A spend of a known HTLC -/

namespace SizedSpend

local instance tables : Crypto := tableCrypto []

/-- A refund of a script that takes three bytes to prefix. -/
def redeemScript : Bytes := List.replicate 300 0x51

def destination : Bytes := 0x00 :: 0x14 :: List.replicate 20 0xab

theorem length_key : (List.replicate 32 (0x11 : UInt8)).length = 32 := rfl

def key : SecretKey := ⟨List.replicate 32 0x11, length_key⟩

def tx : Transaction :=
  ⟨2, 800000, [⟨⟨7, 0⟩, [], enableRbfNoLocktime,
    htlcWitness .refund (List.replicate 70 0x30 ++ [0x01]) redeemScript⟩], [⟨99000, destination⟩]⟩

/-- The general statement at this refund, whose signature is one byte short. -/
theorem refund_covered :
    tx.vsize ≤ spendVsize redeemScript destination SpendPath.refund.isClaim ∧
      spendVsize redeemScript destination SpendPath.refund.isClaim ≤ tx.vsize + 2 := by
  have hbuilt : buildHtlcSpend ⟨7, 0⟩ 100000 redeemScript destination 1000 800000 .refund key =
      .ok tx := rfl
  obtain ⟨signature, hwitness, hbounds⟩ := spendVsize_covers hbuilt (by decide)
  have hsig : List.replicate 70 0x30 ++ [0x01] = signature := by
    have hitems : [_, [], redeemScript] = [signature, [], redeemScript] :=
      List.singleton_inj.mp hwitness
    exact (List.cons.inj hitems).1
  have hlength : signature.length = 71 := by
    rw [← hsig, List.length_append, List.length_replicate, List.length_singleton]
  rw [hlength] at hbounds
  exact hbounds (by decide)

end SizedSpend

end PubkySwap
