import PubkySwap.ClientStore

/-!
# Negotiating a swap

`runNegotiation` takes a swap from the request for a quote to the end of its driver:
the keys are on disk before the provider hears of the swap, the provider's reply is
on disk before it is acted on, and the record is made ready for a driver only when
the acceptance, the contract and the hold invoice have passed every check.

`recoverPending` finishes what a crash interrupted.  It goes through the same checks
with what the record says was agreed, and starts no driver: a record that has become
ready is left to be resumed.

The random values a negotiation draws are its arguments.
-/

namespace PubkySwap

open BitcoinScript (Bytes)
open Program (orThrow)

/-! ## Configuration -/

/-- Which transport carries requests to the provider. -/
inductive Negotiation where
  | auto
  | iroh
  | dm
  | paykitCap
  deriving DecidableEq, Repr

/-- `ClientConfig`: the settings the operations read. -/
structure ClientConfig where
  providerPkarr : String
  direction : SwapDirection := .reverse
  amountSat : ℕ := 0
  electrumUrl : String := ""
  claimAddress : String := ""
  walletBackend : String := "bdk"
  /-- `wallet_mnemonic.is_configured()`. -/
  walletMnemonicConfigured : Bool := false
  onchainFeeRateSatVb : ℕ := 2
  maxRoutingFeeMsat : ℕ := 10000
  quoteOnly : Bool := false
  negotiation : Negotiation := .auto
  minConfirmations : ℕ := 0
  maxFeeBps : ℕ := 500
  maxTotalSat : ℕ := 0
  deriving DecidableEq, Repr

/-- `wallet_is_self_sufficient`. -/
def ClientConfig.walletIsSelfSufficient (config : ClientConfig) : Bool :=
  config.walletBackend = "lnd" || config.walletBackend = "beignet"

/-- `wallet_is_configured`. -/
def ClientConfig.walletIsConfigured (config : ClientConfig) : Bool :=
  config.walletIsSelfSufficient || config.walletMnemonicConfigured

/-- `client_policy`: the policy this client holds providers to. -/
def clientPolicy (config : ClientConfig) (network : NetworkSpec) : ClientPolicy :=
  let policy := ClientPolicy.forNetwork network {}
  { policy with
    minRequiredConfirmations :=
      if 0 < config.minConfirmations then config.minConfirmations
      else policy.minRequiredConfirmations
    maxFeeBps := if 0 < config.maxFeeBps then config.maxFeeBps else policy.maxFeeBps
    maxTotalSat := if 0 < config.maxTotalSat then config.maxTotalSat else policy.maxTotalSat }

/-- The random values a negotiation draws. -/
structure Draws where
  claimKey : SecretKey
  preimage : Preimage
  requestId : Uuid
  refundKey : SecretKey
  swapId : Uuid
  deriving DecidableEq

/-! ## Calls as the operations spell them -/

/-- `require_paykit_cap`. -/
def requirePaykitCap (features : List String) : Except String Unit :=
  if "paykit-cap-v1" ∈ features then .ok ()
  else .error ("the provider does not advertise paykit-cap-v1, so it cannot answer " ++
    "negotiation = \"paykit-cap\"; use auto or iroh")

/-- The offer has to say that the provider serves the signed kinds, if those are to be
used. -/
def checkOffer (config : ClientConfig) : ClientProgram Unit :=
  if config.negotiation = .paykitCap then
    .call .offer fun answer =>
      (orThrow .message answer).bind fun features => orThrow .message (requirePaykitCap features)
  else pure ()

def requestQuote (request : QuoteRequest) : ClientProgram Quote :=
  .call (.quote request) (orThrow .message)

def createReply (request : SwapRequest) : ClientProgram SwapAccept :=
  .call (.create request) (orThrow .message)

def recoverReply (request : SwapRequest) : ClientProgram SwapAccept :=
  .call (.recoverCreation request) (orThrow .message)

def acknowledge (request : SwapRequest) : ClientProgram Unit :=
  .call (.acknowledge request) (orThrow .message)

def buildChain : ClientProgram Unit := .call .buildChain (orThrow .message)

def makeBackend : ClientProgram Unit := .call .makeBackend (orThrow .message)

def buildWallet : ClientProgram Unit := .call .buildWallet (orThrow .message)

def walletDestination : ClientProgram Bytes := .call .receiveDestination .pure

def execute (start : DriverStart) : ClientProgram Unit := .call (.execute start) .pure

/-- The tip, under a context. -/
def chainTip (what : String) : ClientProgram ℕ :=
  .call .tipHeight (orThrow (chainError what))

/-- `decode_invoice`, under a context. -/
def decodeInvoice (what invoice : String) : ClientProgram DecodedHoldInvoice :=
  .call (.decodeInvoice invoice) (orThrow (lightningError what))

/-- A validator, under a context. -/
def validated {α : Type} (what : String) (r : Except ValidationError α) : ClientProgram α :=
  orThrow (fun e => .message (what ++ ": " ++ e.display)) r

section

variable [Crypto] [ClientCrates]

/-- Where a reverse swap's claim pays out. -/
def claimDestination (config : ClientConfig) (network : NetworkSpec) : ClientProgram Bytes :=
  if config.walletIsSelfSufficient then do
    buildWallet
    walletDestination
  else orThrow .message (ClientCrates.parseAddress network config.claimAddress)

/-! ## Drivers -/

/-- How often a driver looks at the chain. -/
def driverPoll : ℕ := durationFromSecs 2

omit [ClientCrates] in
/-- `execute_reverse_swap`, reporting to the record. -/
def driveReverse (swapId : Uuid) (claim : ReverseClaim)
    (maxRoutingFeeMsat requiredConfirmations : ℕ) (resume : Resume) (fuel : ℕ) :
    ClientProgram Txid := do
  execute ⟨swapId, .reverse claim requiredConfirmations, resume⟩
  (executeReverseSwap claim maxRoutingFeeMsat requiredConfirmations driverPoll resume fuel).handle
    (progress swapId)

omit [ClientCrates] in
/-- `execute_submarine_swap`, reporting to the record. -/
def driveSubmarine (swapId : Uuid) (funding : SubmarineFunding) (resume : Resume) (fuel : ℕ) :
    ClientProgram SwapState := do
  execute ⟨swapId, .submarine funding, resume⟩
  (executeSubmarineSwap funding driverPoll resume fuel).handle (progress swapId)

/-! ## Negotiation -/

omit [Crypto] [ClientCrates] in
/-- The request goes out, and its reply is saved before it is acknowledged. -/
def createSwap (swapId : Uuid) (request : SwapRequest) (tip : Option ℕ) :
    ClientProgram SwapAccept := do
  recordCreationStarted swapId tip
  let accept ← createReply request
  recordCreationReply swapId accept
  acknowledge request
  pure accept

omit [Crypto] [ClientCrates] in
/-- The tip the reply will be validated at, where there is a chain to ask. -/
def creationTip (config : ClientConfig) : ClientProgram (Option ℕ) :=
  if config.electrumUrl = "" then pure none
  else do
    buildChain
    let tip ← chainTip "creation tip height"
    pure (some tip)

/-- The last checks of a reverse swap, and its driver. -/
def executeNegotiatedReverse (config : ClientConfig) (network : NetworkSpec) (draws : Draws)
    (quote : Quote) (accept : SwapAccept) (tip : Option ℕ) (script spk : Bytes) (fuel : ℕ) :
    ClientProgram Unit := do
  let policy := clientPolicy config network
  let requiredConfirmations := policy.effectiveConfirmations quote.requiredConfirmations
  let invoice ← orThrow .message (okOr accept.invoice "provider did not include a hold invoice")
  let destSpk ← claimDestination config network
  makeBackend
  let _ ← orThrow .message (okOr tip "chain access is required before payment")
  -- The invoice is the client's whole exposure: every field of it is bound to the quote.
  let decoded ← decodeInvoice "decode the provider's hold invoice" invoice
  let unix ← nowUnix
  validated "refusing the provider's hold invoice"
    (validateHoldInvoice decoded quote (paymentHash draws.preimage) unix policy)
  let currentTip ← chainTip "execution tip height"
  orThrow (fun e => .message ("insufficient time to start this swap: " ++ e.display))
    (checkClientTimeout config.direction currentTip accept.timeoutBlockHeight
      { policy.timelock with requiredConfirmations := requiredConfirmations })
  recordAccept draws.swapId accept script (Hex.encode destSpk)
  let claim : ReverseClaim :=
    { htlcScript := script
      htlcSpk := spk
      onchainAmountSat := quote.amountSat
      timeoutHeight := accept.timeoutBlockHeight
      invoice := invoice
      preimage := draws.preimage
      claimKey := draws.claimKey
      destSpk := destSpk
      feeRateSatVb := config.onchainFeeRateSatVb }
  let result ← ((driveReverse draws.swapId claim config.maxRoutingFeeMsat requiredConfirmations {}
    fuel).attempt : ClientProgram (Except DriverError Txid))
  match result with
  | .ok _ => bestEffort (recordTerminal draws.swapId .claimed)
  -- The record is kept: it holds the preimage and the claim key.
  | .error e => .throw e

/-- The reverse part of `run_negotiation`. -/
def negotiateReverse (config : ClientConfig) (network : NetworkSpec) (clientPkarr : String)
    (draws : Draws) (quote : Quote) (fuel : ℕ) : ClientProgram Unit := do
  let policy := clientPolicy config network
  let hash := paymentHash draws.preimage
  let claimPk := ClientCrates.publicKey draws.claimKey
  let request : SwapRequest :=
    { quoteId := quote.quoteId
      clientPkarr := clientPkarr
      direction := config.direction
      paymentHashHex := Hex.encode hash.val
      clientClaimPubkeyHex := some (Hex.encode claimPk.serialized) }
  recordNegotiationIntent
    { swapId := draws.swapId
      direction := .reverse
      peer := config.providerPkarr
      network := network
      paymentHash := hash
      branchKey := draws.claimKey
      preimage := some draws.preimage
      invoice := ""
      quoteTotalSat := quote.totalSat
      requiredConfirmations := policy.effectiveConfirmations quote.requiredConfirmations
      feeRateSatVb := config.onchainFeeRateSatVb } quote request
  let tip ← creationTip config
  let accept ← createSwap draws.swapId request tip
  validated "refusing the provider's swap acceptance" (validateAccept accept quote tip policy)
  let (script, spk) ← orThrow .message (verifyP2wshContract accept .reverse hash claimPk network)
  if config.electrumUrl = "" ∨ config.claimAddress = "" ∧ !config.walletIsSelfSufficient then
    pure ()
  else executeNegotiatedReverse config network draws quote accept tip script spk fuel

/-- The last checks of a submarine swap, and its driver. -/
def executeNegotiatedSubmarine (config : ClientConfig) (network : NetworkSpec) (draws : Draws)
    (quote : Quote) (hash : PaymentHash) (accept : SwapAccept) (script spk : Bytes) (fuel : ℕ) :
    ClientProgram Unit := do
  let policy := clientPolicy config network
  buildWallet
  let destSpk ← walletDestination
  let currentTip ← chainTip "execution tip height"
  orThrow (fun e => .message ("insufficient time to start this swap: " ++ e.display))
    (checkClientTimeout config.direction currentTip accept.timeoutBlockHeight
      { policy.timelock with
        requiredConfirmations := policy.effectiveConfirmations quote.requiredConfirmations })
  recordAccept draws.swapId accept script (Hex.encode destSpk)
  let funding : SubmarineFunding :=
    { htlcScript := script
      htlcSpk := spk
      onchainAmountSat := quote.totalSat
      paymentHash := hash
      refundKey := draws.refundKey
      timeoutHeight := accept.timeoutBlockHeight
      feeRateSatVb := config.onchainFeeRateSatVb }
  let state ← driveSubmarine draws.swapId funding {} fuel
  bestEffort (recordTerminal draws.swapId state)

/-- `run_submarine`. -/
def runSubmarine (config : ClientConfig) (network : NetworkSpec) (clientPkarr : String)
    (draws : Draws) (quote : Quote) (fuel : ℕ) : ClientProgram Unit :=
  if config.electrumUrl = "" ∨ !config.walletIsConfigured then pure ()
  else do
    let policy := clientPolicy config network
    makeBackend
    let (hash, invoice) ← Program.call (.createInvoice (Word.saturatingMul 64 quote.amountSat 1000)
      3600 "pubky-swap submarine") (orThrow (lightningError "create invoice"))
    let refundPk := ClientCrates.publicKey draws.refundKey
    let request : SwapRequest :=
      { quoteId := quote.quoteId
        clientPkarr := clientPkarr
        direction := .submarine
        paymentHashHex := Hex.encode hash.val
        clientRefundPubkeyHex := some (Hex.encode refundPk.serialized)
        invoice := some invoice }
    recordNegotiationIntent
      { swapId := draws.swapId
        direction := .submarine
        peer := config.providerPkarr
        network := network
        paymentHash := hash
        branchKey := draws.refundKey
        preimage := none
        invoice := invoice
        quoteTotalSat := quote.totalSat
        requiredConfirmations := policy.effectiveConfirmations quote.requiredConfirmations
        feeRateSatVb := config.onchainFeeRateSatVb } quote request
    buildChain
    let tip ← chainTip "tip height"
    let accept ← createSwap draws.swapId request (some tip)
    validated "refusing the provider's swap acceptance"
      (validateAccept accept quote (some tip) policy)
    let (script, spk) ← orThrow .message
      (verifyP2wshContract accept .submarine hash refundPk network)
    executeNegotiatedSubmarine config network draws quote hash accept script spk fuel

/-- `run_negotiation`. -/
def runNegotiation (config : ClientConfig) (network : NetworkSpec) (clientPkarr : String)
    (draws : Draws) (fuel : ℕ) : ClientProgram Unit := do
  checkOffer config
  let request : QuoteRequest :=
    { requestId := some draws.requestId
      offerId := 0
      clientPkarr := clientPkarr
      direction := config.direction
      amountSat := config.amountSat
      protocolVersion := protocolVersion }
  let quote ← requestQuote request
  let unix ← nowUnix
  validated "refusing the provider's quote"
    (validateQuote quote request unix (clientPolicy config network))
  if config.quoteOnly then pure ()
  else
    match config.direction with
    | .submarine => runSubmarine config network clientPkarr draws quote fuel
    | .reverse => negotiateReverse config network clientPkarr draws quote fuel

end

end PubkySwap
