import PubkySwap.Taproot
import PubkySwap.Validate

/-!
# The contract of an acceptance

A client derives the contract from its own key and payment hash.  What the provider
sent of it is compared and not used, except for the one thing that cannot be
derived: the provider's key.

The client executes P2WSH contracts only; a Taproot one is verified when a swap is
rebuilt from a provider's listing.
-/

namespace PubkySwap

open BitcoinScript (Bytes)

/-- **What the key and address crates provide the client.** -/
class ClientCrates where
  /-- `PublicKey::from_secret_key`, in compressed form. -/
  publicKey : SecretKey → PublicKey
  /-- `SecretKey::from_slice`. -/
  secretKeyFromSlice : Bytes → Except String SecretKey
  /-- `PublicKey::from_slice`. -/
  publicKeyFromSlice : Bytes → Except String PublicKey
  /-- What `PublicKey::from_str` says of a text it refuses; it accepts the digits of
  what `from_slice` accepts. -/
  publicKeyRefusal : String → String
  /-- The text of the address of an output script. -/
  addressText : NetworkSpec → Bytes → String
  /-- `Address::from_str`, required to be of the network, and its output script. -/
  parseAddress : NetworkSpec → String → Except String Bytes
  /-- `same_pubky`. -/
  samePubky : String → String → Bool

/-- A `ClientCrates` for concrete runs: a public key is its secret key with a prefix. -/
@[reducible] def plainCrates : ClientCrates where
  publicKey key := ⟨true, 2 :: key.val, by simp [key.property]⟩
  secretKeyFromSlice bytes :=
    if h : bytes.length = 32 then .ok ⟨bytes, h⟩ else .error "malformed or out-of-range secret key"
  publicKeyFromSlice bytes :=
    if h : bytes.length = 33 then .ok ⟨true, bytes, h⟩ else .error "invalid length"
  publicKeyRefusal _ := "invalid public key"
  addressText _ spk := Hex.encode spk
  parseAddress _ text := okOr (Hex.decode text) "invalid address"
  samePubky a b := a == b

/-- `swap_tree`: both leaves, under the leaf version of tapscript. -/
def BoltzTaprootSwap.swapTree [Crypto] (contract : BoltzTaprootSwap) : BoltzSwapTree where
  claimLeaf := ⟨192, Hex.encode contract.claimScript⟩
  refundLeaf := ⟨192, Hex.encode contract.refundScript⟩

section

variable [ClientCrates]

/-- `parse_pubkey`. -/
def parsePubkey (text : String) : Except String PublicKey := do
  let bytes ← okOr (Hex.decode text) ("decode pubkey hex: " ++ Hex.refusal text)
  (ClientCrates.publicKeyFromSlice bytes).mapError fun e => "parse public key: " ++ e

variable [Crypto]

/-- The contract of a type, from the keys of its two branches: the redeem script and
the tree as texts, and the output script. -/
def deriveContract (scriptType : SwapScript) (direction : SwapDirection)
    (paymentHash : PaymentHash) (claim refund : PublicKey) (timeout : ℕ) :
    Except ValidationError (String × Option BoltzSwapTree × Bytes) :=
  match scriptType with
  | .p2wsh =>
      let script := buildHtlcScript paymentHash claim refund timeout
      .ok (Hex.encode script, none, htlcP2wshScriptPubkey script)
  | .taprootBoltz => do
      let contract ← (BoltzTaprootSwap.new direction paymentHash claim refund timeout).mapError
        fun e => .invalidContract e.display
      .ok ("", some contract.swapTree, contract.scriptPubkey)

/-- `verify_contract`: the output script of the contract, once everything the
acceptance says about it agrees. -/
def verifyContract (accept : SwapAccept) (direction : SwapDirection) (paymentHash : PaymentHash)
    (clientPubkey : PublicKey) (network : NetworkSpec) : Except ValidationError Bytes :=
  if accept.direction ≠ direction then .error .directionMismatch
  else do
    let provider ← (parsePubkey accept.providerPubkeyHex).mapError fun _ =>
      .invalidContract
        ("provider_pubkey_hex: " ++ ClientCrates.publicKeyRefusal accept.providerPubkeyHex)
    let (claim, refund) := match direction with
      | .reverse => (clientPubkey, provider)
      | .submarine => (provider, clientPubkey)
    let (scriptHex, tree, spk) ← deriveContract accept.scriptType direction paymentHash claim refund
      accept.timeoutBlockHeight
    if accept.htlcScriptHex ≠ "" ∧ accept.htlcScriptHex ≠ scriptHex then
      .error (.contractMismatch "htlc_script_hex")
    else if accept.swapTree.isSome ∧ accept.swapTree ≠ tree then
      .error (.contractMismatch "swap_tree")
    else if accept.htlcAddress ≠ "" ∧
        accept.htlcAddress ≠ ClientCrates.addressText network spk then
      .error (.contractMismatch "htlc_address")
    else .ok spk

/-- What `{:?}` writes. -/
def SwapScript.debug : SwapScript → String
  | p2wsh => "P2wsh"
  | taprootBoltz => "TaprootBoltz"

/-- `verify_p2wsh_contract`: the redeem script and the output script to execute
against. -/
def verifyP2wshContract (accept : SwapAccept) (direction : SwapDirection)
    (paymentHash : PaymentHash) (ourKey : PublicKey) (network : NetworkSpec) :
    Except String (Bytes × Bytes) :=
  if accept.scriptType ≠ .p2wsh then
    .error ("provider answered with a " ++ accept.scriptType.debug ++
      " contract, and this client executes only P2WSH")
  else do
    let htlcSpk ← (verifyContract accept direction paymentHash ourKey network).mapError
      fun e => "refusing the provider's HTLC: " ++ e.display
    let provider ← parsePubkey accept.providerPubkeyHex
    let (claim, refund) := match direction with
      | .reverse => (ourKey, provider)
      | .submarine => (provider, ourKey)
    .ok (buildHtlcScript paymentHash claim refund accept.timeoutBlockHeight, htlcSpk)

end

end PubkySwap
