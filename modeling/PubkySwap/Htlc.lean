import PubkySwap.Bitcoin

/-!
# P2WSH HTLC scripts

The script both directions of a swap can lock coins under, and the hash that
links it to the Lightning invoice.
-/

namespace PubkySwap

open BitcoinScript (Bytes Piece Opcode encode)

/-- A 32-byte swap preimage. -/
abbrev Preimage : Type := Bytes32

/-- The payment hash shared with the Lightning invoice. -/
abbrev PaymentHash : Type := Bytes32

/-- `payment_hash`: the SHA256 of a preimage. -/
def paymentHash [Crypto] (preimage : Preimage) : PaymentHash := Crypto.sha256 preimage.val

/-- What `build_htlc_script` pushes: the claim under the first branch, the
refund under the second. -/
def htlcPieces (paymentHash : PaymentHash) (claimPubkey refundPubkey : PublicKey)
    (timeout : ℕ) : List Piece :=
  [.opcode .opIf,
    .opcode .opSha256, .slice paymentHash.val, .opcode .opEqualverify,
    .slice claimPubkey.serialized, .opcode .opChecksig,
    .opcode .opElse,
    .int timeout, .opcode .opCltv, .opcode .opDrop,
    .slice refundPubkey.serialized, .opcode .opChecksig,
    .opcode .opEndif]

/-- `build_htlc_script`. -/
def buildHtlcScript (paymentHash : PaymentHash) (claimPubkey refundPubkey : PublicKey)
    (timeout : ℕ) : Bytes :=
  encode (htlcPieces paymentHash claimPubkey refundPubkey timeout)

/-- The script's P2WSH output: the witness version and the script's hash. -/
def htlcP2wshScriptPubkey [Crypto] (redeemScript : Bytes) : Bytes :=
  0x00 :: 0x20 :: (Crypto.sha256 redeemScript).val

/-- Every piece of the script is read back as it was written. -/
theorem htlcPieces_plain (paymentHash : PaymentHash) (claimPubkey refundPubkey : PublicKey)
    {timeout : ℕ} (htimeout : timeout < 2 ^ 32) :
    ∀ piece ∈ htlcPieces paymentHash claimPubkey refundPubkey timeout, piece.Plain := by
  have hkey : ∀ key : PublicKey, key.serialized.length < 0x4c := by
    intro key
    have hlen := key.length_eq
    split at hlen <;> omega
  have hhash : paymentHash.val.length < 0x4c := by
    rw [paymentHash.property]
    decide
  intro piece hpiece
  simp only [htlcPieces, List.mem_cons, List.not_mem_nil, or_false] at hpiece
  rcases hpiece with rfl | rfl | rfl | rfl | rfl | rfl | rfl | rfl | rfl | rfl | rfl | rfl | rfl
  all_goals first
    | exact hhash
    | exact hkey _
    | exact htimeout
    | exact fun h => by cases h

end PubkySwap
