import PubkySwap.ClientReverse
import PubkySwap.ClientSubmarine

/-!
# The client's store

What the client writes down about its swaps, and when.  `ClientOp` lists what a
client operation talks to: the store, the provider, its own backends, and, through
`drive`, everything a driver of a swap talks to.  A client operation is a `Program`
over it.

Every write but the first is a load, a change and a put, so a write that fails
leaves an error, and possibly the new record.  `progress` is the sink a driver
reports to: the four reports are carried out on the store, everything else a driver
asks for goes on to the outside.
-/

namespace PubkySwap

open BitcoinScript (Bytes)
open Program (ask orThrow)

/-! ## What a client operation talks to -/

/-- What a driver is given to execute. -/
inductive Execution where
  | reverse (claim : ReverseClaim) (requiredConfirmations : ℕ)
  | submarine (funding : SubmarineFunding)
  deriving DecidableEq

/-- The start of a driver. -/
structure DriverStart where
  swapId : Uuid
  execution : Execution
  resume : Resume
  deriving DecidableEq

/-- A call a client operation makes. -/
inductive ClientOp where
  | get (swapId : Uuid)
  | put (rec : SwapRecord)
  | loadAll
  | loadAllChecked
  | now
  /-- A connection to a provider; the answer is the client's own key. -/
  | connect (peer : String)
  | offer
  | quote (request : QuoteRequest)
  | create (request : SwapRequest)
  | recoverCreation (request : SwapRequest)
  | acknowledge (request : SwapRequest)
  | buildChain
  | makeBackend
  | buildWallet
  | tipHeight
  | receiveDestination
  | createInvoice (amountMsat expirySecs : ℕ) (memo : String)
  | decodeInvoice (invoice : String)
  /-- The call of `execute_reverse_swap` or `execute_submarine_swap`. -/
  | execute (start : DriverStart)
  /-- A call of the driver called last. -/
  | drive (op : Op)

/-- The answer to a call. -/
@[reducible] def ClientAns : ClientOp → Type
  | .get _ => Except String (Option SwapRecord)
  | .put _ => Except String Unit
  | .loadAll => Except String (List SwapRecord)
  | .loadAllChecked => Except String (List SwapRecord)
  | .now => ℕ
  | .connect _ => Except String String
  | .offer => Except String (List String)
  | .quote _ => Except String Quote
  | .create _ => Except String SwapAccept
  | .recoverCreation _ => Except String SwapAccept
  | .acknowledge _ => Except String Unit
  | .buildChain => Except String Unit
  | .makeBackend => Except String Unit
  | .buildWallet => Except String Unit
  | .tipHeight => Except SwapError ℕ
  | .receiveDestination => Bytes
  | .createInvoice .. => Except LightningError (PaymentHash × String)
  | .decodeInvoice _ => Except LightningError DecodedHoldInvoice
  | .execute _ => Unit
  | .drive op => Ans op

/-- A client operation, or a part of one. -/
abbrev ClientProgram (α : Type) : Type := Program ClientOp ClientAns DriverError α

/-- `now_unix`. -/
def nowUnix : ClientProgram ℕ := .call .now .pure

/-! ## Writing -/

/-- `put` under a context, which is what the error says. -/
def persist (rec : SwapRecord) (context : String) : ClientProgram Unit :=
  .call (.put rec) (orThrow fun _ => .message context)

/-- `load`. -/
def load (swapId : Uuid) : ClientProgram SwapRecord :=
  .call (.get swapId) fun answer =>
    (orThrow .message answer).bind fun found =>
      orThrow .message (okOr found ("swap " ++ uuidText swapId ++ " is not in the store"))

/-- `NewClientSwap`: what a client knows before it has sent anything. -/
structure NewClientSwap where
  swapId : Uuid
  direction : SwapDirection
  peer : String
  network : NetworkSpec
  paymentHash : PaymentHash
  /-- The claim key of a reverse swap, the refund key of a submarine one. -/
  branchKey : SecretKey
  preimage : Option Preimage
  invoice : String
  quoteTotalSat : ℕ
  requiredConfirmations : ℕ
  feeRateSatVb : ℕ

/-- `client_record`. -/
def clientRecord (swap : NewClientSwap) : SwapRecord where
  swapId := swap.swapId
  role := .client
  direction := swap.direction
  peer := swap.peer
  network := swap.network
  paymentHashHex := Hex.encode swap.paymentHash.val
  secretKeyHex := Hex.encode swap.branchKey.val
  preimageHex := swap.preimage.map fun preimage => Hex.encode preimage.val
  invoice := swap.invoice
  quoteTotalSat := swap.quoteTotalSat
  requiredConfirmations := swap.requiredConfirmations
  feeRateSatVb := swap.feeRateSatVb
  state := .created

/-- `record_negotiation_intent`: the keys, the agreed terms and the request, in one
record. -/
def recordNegotiationIntent (swap : NewClientSwap) (quote : Quote) (request : SwapRequest) :
    ClientProgram Unit :=
  if request.quoteId ≠ quote.quoteId ∨ request.direction ≠ swap.direction ∨
      request.paymentHashHex ≠ Hex.encode swap.paymentHash.val ∨
      quote.totalSat ≠ swap.quoteTotalSat then
    .throw (.message "creation intent does not match the saved swap terms")
  else
    persist { clientRecord swap with swapRequest := some request, clientQuote := some quote }
      "persist complete negotiation intent before publication"

/-- `record_creation_started`. -/
def recordCreationStarted (swapId : Uuid) (tip : Option ℕ) : ClientProgram Unit := do
  let rec ← load swapId
  if rec.clientCreationStarted then pure ()
  else
    persist { rec with clientCreationTip := tip, clientCreationStarted := true }
      "persist creation attempt before publication"

/-- The record with an acceptance saved: a reverse swap's invoice comes with it. -/
def SwapRecord.withReply (rec : SwapRecord) (accept : SwapAccept) : Except String SwapRecord :=
  match rec.direction with
  | .submarine => .ok { rec with swapAccept := some accept }
  | .reverse => do
      let invoice ← okOr accept.invoice "reverse acceptance lacks invoice"
      .ok { rec with invoice := invoice, swapAccept := some accept }

/-- `record_creation_reply`: the reply, once and for all. -/
def recordCreationReply (swapId : Uuid) (accept : SwapAccept) : ClientProgram Unit := do
  let rec ← load swapId
  if (rec.swapRequest.all fun request => request.quoteId ≠ accept.quoteId) ∨
      rec.direction ≠ accept.direction then
    .throw (.message "acceptance does not match the persisted request")
  else if rec.swapAccept.any fun saved => saved ≠ accept then
    .throw (.message "provider changed the persisted acceptance")
  else if rec.swapAccept = some accept then pure ()
  else do
    let replied ← orThrow .message (rec.withReply accept)
    persist replied "persist the complete creation reply before acknowledgment"

/-- The record with the contract of its acceptance. -/
def SwapRecord.readied (rec : SwapRecord) (accept : SwapAccept) (htlcScript : Bytes)
    (destSpkHex : String) : SwapRecord :=
  { rec with
    htlcScriptHex := Hex.encode htlcScript
    timeoutHeight := accept.timeoutBlockHeight
    onchainAmountSat := accept.onchainAmountSat
    destSpkHex := some destSpkHex
    clientExecutionReady := true }

/-- `record_accept`: the validated contract, ready for a driver. -/
def recordAccept (swapId : Uuid) (accept : SwapAccept) (htlcScript : Bytes)
    (destSpkHex : String) : ClientProgram Unit := do
  recordCreationReply swapId accept
  let rec ← load swapId
  persist (rec.readied accept htlcScript destSpkHex)
    "persist validated acceptance before moving funds"

/-- `execution_ready`. -/
def SwapRecord.executionReady (rec : SwapRecord) : Bool :=
  rec.swapRequest.isNone || rec.clientExecutionReady

/-- `record_payment_started`. -/
def recordPaymentStarted (swapId : Uuid) : ClientProgram Unit := do
  let rec ← load swapId
  if rec.invoicePayStartedAtUnix.isSome then pure ()
  else do
    let unix ← nowUnix
    persist { rec with invoicePayStartedAtUnix := some unix, state := .invoicePending }
      "persist invoice payment intent before submission"

/-- `record_funding_intent`. -/
def recordFundingIntent (swapId : Uuid) (tip : ℕ) : ClientProgram Unit := do
  let rec ← load swapId
  persist { rec with
      fundingIntentAtHeight := some tip
      fundingAttempts := Word.saturatingAdd 32 rec.fundingAttempts 1
      state := .lockupPending }
    "persist the funding intent"

/-- `record_funded`. -/
def recordFunded (swapId : Uuid) (outpoint : OutPoint) : ClientProgram Unit := do
  let rec ← load swapId
  persist { rec with
      fundingTxid := some outpoint.txid
      fundingVout := some outpoint.vout
      fundingIntentAtHeight := none
      state := .lockupConfirmed }
    "persist the funding outpoint"

/-- `record_our_spend`. -/
def recordOurSpend (swapId : Uuid) (txid : Txid) : ClientProgram Unit := do
  let rec ← load swapId
  persist (rec.noteOurSpend txid) "persist the broadcast spend"

/-- `record_terminal`. -/
def recordTerminal (swapId : Uuid) (state : SwapState) : ClientProgram Unit := do
  let rec ← load swapId
  let unix ← nowUnix
  persist { rec with state := state, updatedAtUnix := unix } "record the outcome"

/-- `unfinished`: the client's records that are still in flight. -/
def unfinished : ClientProgram (List SwapRecord) :=
  .call .loadAll fun answer =>
    (orThrow .message answer).bind fun records =>
      .pure (records.filter fun rec => !rec.state.isTerminal && rec.role = .client)

/-- A write whose failure is only logged. -/
def bestEffort (p : ClientProgram Unit) : ClientProgram Unit := do
  let _ ← (p.attempt : ClientProgram (Except DriverError Unit))
  pure ()

/-! ## What a driver reports -/

/-- Whether a call is a report to the sink. -/
def Op.isReport : Op → Bool
  | .fundingIntent _ | .funded _ | .spendBroadcast _ | .invoicePayStarted => true
  | _ => false

/-- A report that may fail: its error as a text. -/
def report (p : ClientProgram Unit) : ClientProgram (Except String Unit) := do
  let result ← (p.attempt : ClientProgram (Except DriverError Unit))
  pure (result.mapError DriverError.display)

/-- `RecordProgress`: a swap's driver, its reports carried out on the store. -/
def progress (swapId : Uuid) : (op : Op) → ClientProgram (Ans op)
  | .fundingIntent tip => report (recordFundingIntent swapId tip)
  | .funded outpoint => bestEffort (recordFunded swapId outpoint)
  | .spendBroadcast txid => bestEffort (recordOurSpend swapId txid)
  | .invoicePayStarted => report (recordPaymentStarted swapId)
  | op => ask (ClientOp.drive op)

end PubkySwap
