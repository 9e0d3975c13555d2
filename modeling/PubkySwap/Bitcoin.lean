import PubkySwap.Lib.BitcoinScript
import PubkySwap.Swap

/-!
# Transactions, keys and what the crypto crates provide

The parts of a Bitcoin transaction a swap builds and reads.  Hashing, signing,
key aggregation and the assembly of a Taproot tree are not part of the swap
code: they come from the crates it uses and stand in the class `Crypto`, each as
a function of what the code passes to it.
-/

namespace PubkySwap

open BitcoinScript (Bytes)

/-- `[u8; 32]`. -/
abbrev Bytes32 : Type := { bytes : Bytes // bytes.length = 32 }

/-- `[u8; 64]`. -/
abbrev Bytes64 : Type := { bytes : Bytes // bytes.length = 64 }

/-- A transaction id, compared as a number. -/
abbrev Txid : Type := ℕ

structure OutPoint where
  txid : Txid
  vout : ℕ
  deriving DecidableEq, Repr

structure TxIn where
  previousOutput : OutPoint
  scriptSig : Bytes
  sequence : ℕ
  witness : List Bytes
  deriving DecidableEq, Repr

structure TxOut where
  value : ℕ
  scriptPubkey : Bytes
  deriving DecidableEq, Repr

structure Transaction where
  version : ℕ
  lockTime : ℕ
  input : List TxIn
  output : List TxOut
  deriving DecidableEq, Repr

/-- Whether the transaction has an input that spends the outpoint. -/
def Transaction.Spends (tx : Transaction) (outpoint : OutPoint) : Prop :=
  ∃ input ∈ tx.input, input.previousOutput = outpoint

instance (tx : Transaction) (outpoint : OutPoint) : Decidable (tx.Spends outpoint) :=
  inferInstanceAs (Decidable (∃ input ∈ tx.input, input.previousOutput = outpoint))

/-- A secret key. -/
abbrev SecretKey : Type := Bytes32

/-- A public key, as it is serialized. -/
structure PublicKey where
  compressed : Bool
  serialized : Bytes
  length_eq : serialized.length = if compressed then 33 else 65
  deriving DecidableEq, Repr

/-- The key's coordinate, which is the whole of an x-only key. -/
def PublicKey.xOnly (key : PublicKey) : Bytes32 :=
  ⟨(key.serialized.drop 1).take 32, by
    have hlen := key.length_eq
    rw [List.length_take, List.length_drop]
    split at hlen <;> omega⟩

/-- `ControlBlock::serialize`: a leaf version and an internal key, then the
Merkle path. -/
abbrev ControlBlock : Type := { bytes : Bytes // 33 ≤ bytes.length }

/-- The commitment of a Taproot output, with the proof of each of its leaves. -/
structure TaprootSpendInfo where
  outputKey : Bytes32
  controlBlock : Bytes → Option ControlBlock

/-- **What the crypto crates provide.** -/
class Crypto where
  /-- `sha256::Hash::hash`. -/
  sha256 : Bytes → Bytes32
  /-- `ripemd160::Hash::hash`. -/
  ripemd160 : Bytes → { bytes : Bytes // bytes.length = 20 }
  /-- `Transaction::compute_txid`, which ignores the witnesses. -/
  computeTxid : Transaction → Txid
  /-- The BIP143 digest of an input over a witness script and an amount. -/
  p2wshSignatureHash : Transaction → ℕ → Bytes → ℕ → Except String Bytes32
  /-- A DER signature. -/
  signEcdsa : Bytes32 → SecretKey → Bytes
  /-- `TapLeafHash::from_script`. -/
  tapLeafHash : Bytes → Bytes32
  /-- The BIP341 digest of an input over all previous outputs and a leaf. -/
  taprootSignatureHash : Transaction → ℕ → List TxOut → Bytes32 → Except String Bytes32
  /-- A Schnorr signature. -/
  signSchnorr : Bytes32 → SecretKey → Bytes64
  /-- The x-only public key of a secret key. -/
  xOnlyPublicKey : SecretKey → Bytes32
  /-- `KeyAggContext::new` and its aggregate, in the order given. -/
  aggregateKeys : PublicKey → PublicKey → Except SwapError Bytes32
  /-- `TaprootBuilder` with each leaf at its depth, finalized for a key. -/
  finalizeTaproot : Bytes32 → List (ℕ × Bytes) → Except SwapError TaprootSpendInfo
  /-- `Script::minimal_non_dust`. -/
  minimalNonDust : Bytes → ℕ

/-- A 32-byte string as the number it writes, most significant byte first. -/
def Bytes32.ofNat (n : ℕ) : Bytes32 :=
  ⟨(List.range 32).map fun i => UInt8.ofNat (n / 256 ^ (31 - i)), by simp⟩

/-- A `Crypto` for concrete runs: its SHA256 is looked up, a transaction is
identified by what it pays, and every signature is good. -/
@[reducible] def tableCrypto (sha256Table : List (Bytes × Bytes32)) : Crypto where
  sha256 bytes := (sha256Table.lookup bytes).getD (Bytes32.ofNat 0)
  ripemd160 _ := ⟨List.replicate 20 0, rfl⟩
  computeTxid tx := (tx.output.map TxOut.value).sum
  p2wshSignatureHash _ _ _ _ := .ok (Bytes32.ofNat 0)
  signEcdsa _ _ := List.replicate 70 0x30
  tapLeafHash _ := Bytes32.ofNat 0
  taprootSignatureHash _ _ _ _ := .ok (Bytes32.ofNat 0)
  signSchnorr _ _ := ⟨List.replicate 64 0, rfl⟩
  xOnlyPublicKey key := key
  aggregateKeys claim _ := .ok claim.xOnly
  finalizeTaproot key _ := .ok ⟨key, fun _ => some ⟨List.replicate 65 0xc0, by decide⟩⟩
  minimalNonDust _ := 330

/-! ## Sizes -/

/-- The length of a CompactSize. -/
def varintLen (n : ℕ) : ℕ :=
  if n ≤ 0xfc then 1
  else if n ≤ 0xffff then 3
  else if n ≤ 0xffffffff then 5
  else 9

/-- The bytes of a length-prefixed string. -/
def prefixedLen (bytes : Bytes) : ℕ := varintLen bytes.length + bytes.length

/-- The bytes of a transaction without its witnesses. -/
def Transaction.baseSize (tx : Transaction) : ℕ :=
  4 + varintLen tx.input.length +
    (tx.input.map fun input => 36 + prefixedLen input.scriptSig + 4).sum +
    varintLen tx.output.length + (tx.output.map fun out => 8 + prefixedLen out.scriptPubkey).sum + 4

/-- The bytes the witnesses add: none when no input has one. -/
def Transaction.witnessSize (tx : Transaction) : ℕ :=
  if tx.input.all (·.witness.isEmpty) then 0
  else 2 + (tx.input.map fun input =>
    varintLen input.witness.length + (input.witness.map prefixedLen).sum).sum

/-- `Transaction::vsize`. -/
def Transaction.vsize (tx : Transaction) : ℕ := (tx.baseSize * 4 + tx.witnessSize + 3) / 4

end PubkySwap
