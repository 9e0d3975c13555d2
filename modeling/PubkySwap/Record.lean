import PubkySwap.Contract
import PubkySwap.PaykitCap

/-!
# The record of a swap

What a swap writes down so that a restart can resume it.  The markers among the
fields are written before the act they name; `SwapRecord.resume` is all a driver
may conclude from an earlier run.

The fields kept here are those that admission, a driver's progress and its recovery
read or write.  Transaction ids are the numbers themselves, not their hexadecimal
texts.  Keys, hashes and scripts are texts, and what reads them back may fail.
-/

namespace PubkySwap

open BitcoinScript (Bytes)

/-- `PendingHoldInvoice`: what a hold invoice is created with. -/
structure PendingHoldInvoice where
  amountMsat : ℕ
  expirySecs : ℕ
  cltvExpiryDelta : ℕ
  memo : String
  deriving DecidableEq, Repr

/-- `SwapRecord`: the swap itself, the progress, the intent markers, what the client
recovers with, and the diagnostics. -/
structure SwapRecord where
  swapId : Uuid := 0
  /-- Set from before the hold invoice is created until it is known. -/
  pendingHoldInvoice : Option PendingHoldInvoice := none
  swapRequest : Option SwapRequest := none
  swapAccept : Option SwapAccept := none
  /-- What a Taproot contract is rebuilt from. -/
  taproot : Option TaprootParameters := none
  role : SwapRole := .provider
  direction : SwapDirection := .reverse
  peer : String := ""
  /-- The account and the scope that authorized a delegated key. -/
  peerAccount : Option String := none
  peerAuthorizationScope : Option String := none
  network : NetworkSpec := .regtest
  paymentHashHex : String := ""
  onchainAmountSat : ℕ := 0
  feeRateSatVb : ℕ := 0
  htlcScriptHex : String := ""
  timeoutHeight : ℕ := 0
  /-- The key of this side's branch. -/
  secretKeyHex : String := ""
  invoice : String := ""
  maxRoutingFeeMsat : ℕ := 0
  serviceFeeSat : ℕ := 0
  onchainFeeSat : ℕ := 0
  requiredConfirmations : ℕ := 0
  fundingTxid : Option Txid := none
  fundingVout : Option ℕ := none
  fundingFeeSat : Option ℕ := none
  state : SwapState := .created
  /-- Set before a funding is broadcast, cleared once its outpoint is known. -/
  fundingIntentAtHeight : Option ℕ := none
  fundingAttempts : ℕ := 0
  /-- Set before an invoice payment is attempted. -/
  invoicePayStartedAtUnix : Option ℕ := none
  claimObservedTxid : Option Txid := none
  spendTxid : Option Txid := none
  claimableHint : Bool := false
  claimableAtUnix : Option ℕ := none
  ourSpendTxids : List Txid := []
  /-- The client's, in a reverse swap: it is written down nowhere else. -/
  preimageHex : Option String := none
  destSpkHex : Option String := none
  /-- The total the client agreed to. -/
  quoteTotalSat : ℕ := 0
  clientQuote : Option Quote := none
  /-- Set before the creation request is first sent. -/
  clientCreationStarted : Bool := false
  clientCreationTip : Option ℕ := none
  /-- Set once everything has been validated that a driver relies on. -/
  clientExecutionReady : Bool := false
  capContract : Option ContractReply := none
  /-- The lowest height at which a reorg was seen. -/
  reorgSeenAtHeight : Option ℕ := none
  lastError : Option String := none
  retryCount : ℕ := 0
  nextRetryAtUnix : Option ℕ := none
  updatedAtUnix : ℕ := 0
  createdAtUnix : ℕ := 0
  deriving DecidableEq, Repr

/-- What a restarted driver knows about a swap already in flight; the default is
a fresh start. -/
structure Resume where
  invoicePayStartedAtUnix : Option ℕ := none
  funding : Option OutPoint := none
  fundingIntentAtHeight : Option ℕ := none
  ourSpends : List Txid := []
  reorgSeenAtHeight : Option ℕ := none
  deriving DecidableEq, Repr

/-- `is_fresh`: whether this is a first run. -/
def Resume.isFresh (resume : Resume) : Bool := resume = {}

/-- Whether a funding may exist: its outpoint is known, or the intent is recorded. -/
def Resume.marked (resume : Resume) : Bool :=
  resume.funding.isSome || resume.fundingIntentAtHeight.isSome

/-- `MAX_TRACKED_OUR_SPENDS`. -/
def maxTrackedOurSpends : ℕ := 16

namespace SwapRecord

/-! ## Reading the texts back -/

/-- `preimage`. -/
def preimage (rec : SwapRecord) : Except String (Option Preimage) :=
  match rec.preimageHex with
  | none => .ok none
  | some text => do
      let bytes ← okOr (Hex.decode text) "decode preimage_hex"
      if h : bytes.length = 32 then .ok (some ⟨bytes, h⟩)
      else .error "preimage must be 32 bytes"

/-- `dest_spk`. -/
def destSpk (rec : SwapRecord) : Except String (Option Bytes) :=
  match rec.destSpkHex with
  | none => .ok none
  | some text => do
      let bytes ← okOr (Hex.decode text) "parse dest_spk"
      .ok (some bytes)

/-- `htlc_script`. -/
def htlcScript (rec : SwapRecord) : Except String Bytes :=
  okOr (Hex.decode rec.htlcScriptHex) "parse htlc script"

/-- `payment_hash`. -/
def paymentHash (rec : SwapRecord) : Except String PaymentHash := do
  let bytes ← okOr (Hex.decode rec.paymentHashHex) "decode payment_hash_hex"
  if h : bytes.length = 32 then .ok ⟨bytes, h⟩ else .error "payment hash must be 32 bytes"

/-- `secret_key`. -/
def secretKey [ClientCrates] (rec : SwapRecord) : Except String SecretKey := do
  let bytes ← okOr (Hex.decode rec.secretKeyHex) "decode secret_key_hex"
  (ClientCrates.secretKeyFromSlice bytes).mapError fun e => "parse secret key: " ++ e

/-- `htlc_spk`: of the Taproot contract, or of the redeem script. -/
def htlcSpk [Crypto] (rec : SwapRecord) : Except String Bytes :=
  match rec.taproot with
  | some parameters =>
      match BoltzTaprootSwap.new parameters.direction parameters.paymentHash
          parameters.claimPublicKey parameters.refundPublicKey parameters.timeout with
      | .ok contract => .ok contract.scriptPubkey
      | .error e => .error e.display
  | none => do
      let script ← rec.htlcScript
      .ok (htlcP2wshScriptPubkey script)

/-! ## Progress -/

/-- `funding_outpoint`. -/
def fundingOutpoint (rec : SwapRecord) : Option OutPoint := do
  let txid ← rec.fundingTxid
  let vout ← rec.fundingVout
  pure ⟨txid, vout⟩

/-- `our_spends`. -/
def ourSpends (rec : SwapRecord) : List Txid := rec.ourSpendTxids ++ rec.spendTxid.toList

/-- `resume`. -/
def resume (rec : SwapRecord) : Resume where
  invoicePayStartedAtUnix := rec.invoicePayStartedAtUnix
  funding := rec.fundingOutpoint
  fundingIntentAtHeight := rec.fundingIntentAtHeight
  ourSpends := rec.ourSpends
  reorgSeenAtHeight := rec.reorgSeenAtHeight

/-- `note_our_spend`: bounded and free of repeats. -/
def noteOurSpend (rec : SwapRecord) (txid : Txid) : SwapRecord :=
  let tracked :=
    if txid ∈ rec.ourSpendTxids then rec.ourSpendTxids
    else
      let pushed := rec.ourSpendTxids ++ [txid]
      if maxTrackedOurSpends < pushed.length then pushed.tail else pushed
  { rec with ourSpendTxids := tracked, spendTxid := some txid }

/-- `progressed`: the next failure starts a fresh backoff. -/
def progressed (rec : SwapRecord) : SwapRecord :=
  { rec with retryCount := 0, nextRetryAtUnix := none, lastError := none }

/-- Whether this side is the one that funds the HTLC. -/
def fundsOnchain (rec : SwapRecord) : Bool :=
  match rec.role, rec.direction with
  | .provider, .reverse => true
  | .client, .submarine => true
  | _, _ => false

/-- `funds_at_risk`. -/
def fundsAtRisk (rec : SwapRecord) : Bool :=
  let committed :=
    if rec.fundsOnchain then rec.fundingIntentAtHeight.isSome || rec.fundingOutpoint.isSome
    else rec.invoicePayStartedAtUnix.isSome
  committed || !rec.ourSpendTxids.isEmpty || rec.spendTxid.isSome

/-! ## What the owner is shown -/

/-- `Txid::to_string`. -/
def txidText (txid : Txid) : String := String.ofList (hexDigits 64 txid)

/-- `status_snapshot`. -/
def statusSnapshot (rec : SwapRecord) (requestId : Option Uuid) (observedAtUnix : ℕ) :
    Option SwapStatusSnapshot := do
  let accept ← rec.swapAccept
  some
    { requestId := requestId
      accept := accept
      network := rec.network
      state := rec.state
      fundingTxidHex := rec.fundingTxid.map txidText
      fundingVout := rec.fundingVout
      spendTxidHex := rec.spendTxid.map txidText
      claimObservedTxidHex := rec.claimObservedTxid.map txidText
      requiredConfirmations := rec.requiredConfirmations
      updatedAtUnix := rec.updatedAtUnix
      observedAtUnix := observedAtUnix
      createdAtUnix := rec.createdAtUnix
      paymentHashHex := rec.paymentHashHex
      ownerRef := rec.swapRequest.bind SwapRequest.ownerRef
      claimable := rec.claimableHint && rec.claimableAtUnix.isSome }

/-! ## Writing -/

/-- What `persist_record` writes for a record: the time of the first write and the
signed contract are kept from the record on disk, as far as it can be read. -/
def stamped (rec : SwapRecord) (existing : Option SwapRecord) (unix : ℕ) : SwapRecord :=
  { rec with
    createdAtUnix :=
      if rec.createdAtUnix = 0 then
        ((existing.map createdAtUnix).filter (0 < ·)).getD unix
      else rec.createdAtUnix
    capContract := rec.capContract.or (existing.bind capContract) }

end SwapRecord

end PubkySwap
