import PubkySwap.ClientNegotiation

/-!
# What a later run does with what an earlier one left

Three operations turn records into running swaps without negotiating one:

* `recoverPending` finishes negotiations that were cut off;
* `restoreSnapshots` rebuilds records from a provider's listing, for a wallet that
  has only its seed;
* `resumeUnfinished` drives what is unfinished and ready.

A record made ready by any of them is driven by the same two functions that drive a
fresh swap, from what the record says.
-/

namespace PubkySwap

open BitcoinScript (Bytes)
open Program (orThrow)

variable [Crypto] [ClientCrates]

/-! ## Negotiation recovery -/

omit [Crypto] in
/-- The branch key of a request, which has to be the record's. -/
def SwapRequest.branchKey (request : SwapRequest) : SwapDirection → Option String
  | .reverse => request.clientClaimPubkeyHex
  | .submarine => request.clientRefundPubkeyHex

/-- `validate_intent`: whether the saved request is the one the record's keys and quote
belong to. -/
def validateIntent (rec : SwapRecord) : Except String Quote := do
  let request ← okOr rec.swapRequest "missing saved creation request"
  let quote ← okOr rec.clientQuote "missing saved quote"
  let key ← rec.secretKey
  let expectedKey := Hex.encode (ClientCrates.publicKey key).serialized
  if request.scriptType ≠ .p2wsh ∨ request.quoteId ≠ quote.quoteId ∨
      request.direction ≠ rec.direction ∨ quote.direction ≠ rec.direction ∨
      request.paymentHashHex ≠ rec.paymentHashHex ∨ quote.totalSat ≠ rec.quoteTotalSat ∨
      request.branchKey rec.direction ≠ some expectedKey then
    .error "saved creation request does not match its keys and quote"
  else
    match rec.direction with
    | .reverse => do
        let preimage ← okOr (← rec.preimage) "reverse creation lacks preimage"
        let hash ← rec.paymentHash
        if paymentHash preimage ≠ hash then
          .error "saved preimage does not match the creation payment hash"
        else .ok quote
    | .submarine =>
        if request.invoice ≠ some rec.invoice then
          .error "saved creation does not match its submarine invoice"
        else .ok quote

/-- `validate_contract`: the redeem script of the recovered acceptance. -/
def validateContract (rec : SwapRecord) (accept : SwapAccept) (network : NetworkSpec)
    (policy : ClientPolicy) (currentTip : Option ℕ) : Except String Bytes := do
  let quote ← validateIntent rec
  if accept.scriptType ≠ .p2wsh ∨ accept.swapTree.isSome then
    .error "saved acceptance uses an unexpected contract type"
  else do
    -- The creation anchor stays where it was: a restart does not move it to the current tip.
    (validateAccept accept quote (rec.clientCreationTip.or currentTip) policy).mapError
      fun _ => "validate the recovered acceptance against its saved quote"
    let key ← rec.secretKey
    let hash ← rec.paymentHash
    let (script, _) ← (verifyP2wshContract accept rec.direction hash (ClientCrates.publicKey key)
      network).mapError
        fun _ => "recovered HTLC does not match the saved payment hash and branch key"
    .ok script

omit [Crypto] [ClientCrates] in
/-- `validate_execution_window`. -/
def validateExecutionWindow (rec : SwapRecord) (accept : SwapAccept) (policy : ClientPolicy)
    (tip : ℕ) : Except String Unit :=
  (checkClientTimeout rec.direction tip accept.timeoutBlockHeight
    { policy.timelock with
      requiredConfirmations :=
        max rec.requiredConfirmations policy.minRequiredConfirmations }).mapError
    fun _ => "recovered HTLC no longer has enough time to start execution"

omit [Crypto] [ClientCrates] in
/-- The request again if it may have been sent before, or for the first time. -/
def repeatRequest (rec : SwapRecord) (request : SwapRequest) : ClientProgram SwapAccept :=
  if rec.clientCreationStarted then recoverReply request else createReply request

omit [Crypto] [ClientCrates] in
/-- `obtain_acceptance`: saved before it is acknowledged. -/
def obtainAcceptance (rec : SwapRecord) (tip : Option ℕ) : ClientProgram SwapAccept := do
  let request ← orThrow .message (okOr rec.swapRequest "missing saved creation request")
  recordCreationStarted rec.swapId tip
  let accept ← repeatRequest rec request
  recordCreationReply rec.swapId accept
  acknowledge request
  pure accept

/-- The acceptance of an interrupted negotiation: the saved one, or a new answer. -/
def recoverAcceptance (rec : SwapRecord) (tip : Option ℕ) : ClientProgram SwapAccept :=
  match rec.swapAccept with
  | some accept => pure accept
  | none =>
      Program.call (.connect rec.peer) fun answer =>
        (orThrow .message answer).bind fun owner => do
          let request ← orThrow .message (okOr rec.swapRequest "missing saved creation request")
          if !ClientCrates.samePubky request.clientPkarr owner then
            .throw (.message "saved creation belongs to another client identity")
          else obtainAcceptance rec tip

omit [Crypto] [ClientCrates] in
/-- The tip, when there is a chain to ask. -/
def recoveryTip : ClientProgram (Option ℕ) :=
  .call .buildChain fun answer =>
    match answer with
    | .error _ => .pure none
    | .ok () => .call .tipHeight fun answer =>
        (orThrow (fun _ => .message "read chain tip for negotiation recovery") answer).bind
          fun tip => .pure (some tip)

/-- The invoice of a recovered reverse swap has to be bound to its quote. -/
def validateSavedInvoice (rec : SwapRecord) (accept : SwapAccept) (quote : Quote)
    (policy : ClientPolicy) : ClientProgram Unit :=
  match rec.direction with
  | .submarine => pure ()
  | .reverse => do
      makeBackend
      let invoice ← orThrow .message (okOr accept.invoice "reverse acceptance lacks invoice")
      let decoded ← decodeInvoice "decode the saved hold invoice" invoice
      let hash ← orThrow .message rec.paymentHash
      let unix ← nowUnix
      orThrow (fun _ => .message "validate the saved hold invoice before payment")
        (validateHoldInvoice decoded quote hash unix policy)

/-- Where the swap pays out: where the record says, or as for a fresh one. -/
def recoveryDestination (config : ClientConfig) (network : NetworkSpec) (rec : SwapRecord) :
    ClientProgram Bytes := do
  match ← orThrow .message rec.destSpk with
  | some destination => pure destination
  | none =>
      if rec.direction = .reverse ∧ !config.walletIsSelfSufficient then
        orThrow .message (ClientCrates.parseAddress network config.claimAddress)
      else do
        buildWallet
        walletDestination

/-- The checks of a recovered acceptance, and the record made ready. -/
def acceptRecovered (config : ClientConfig) (network : NetworkSpec) (rec : SwapRecord)
    (accept : SwapAccept) (currentTip : Option ℕ) : ClientProgram Unit := do
  let policy := clientPolicy config network
  let htlcScript ← orThrow .message (validateContract rec accept network policy currentTip)
  let tip ← orThrow .message
    (okOr currentTip "chain access is required before recovering execution")
  orThrow .message (validateExecutionWindow rec accept policy tip)
  let quote ← orThrow .message (okOr rec.clientQuote "missing saved quote")
  validateSavedInvoice rec accept quote policy
  let destination ← recoveryDestination config network rec
  recordAccept rec.swapId accept htlcScript (Hex.encode destination)

/-- `recover_one`. -/
def recoverOne (config : ClientConfig) (network : NetworkSpec) (rec : SwapRecord) :
    ClientProgram Unit := do
  if rec.network ≠ network then
    .throw (.message "saved swap uses a different Bitcoin network")
  else do
    let _ ← orThrow .message (validateIntent rec)
    let currentTip ← recoveryTip
    let accept ← recoverAcceptance rec currentTip
    -- Read again: obtaining the reply may have pinned the creation tip.
    let found ← Program.call (.get rec.swapId) (orThrow .message)
    let saved ← orThrow .message (okOr found "creation record disappeared")
    acceptRecovered config network saved accept currentTip

omit [Crypto] [ClientCrates] in
/-- A negotiation of which nothing was sent and whose quote has expired. -/
def SwapRecord.neverStarted (rec : SwapRecord) (unix : ℕ) : Bool :=
  !rec.clientCreationStarted && rec.swapAccept.isNone && !rec.fundsAtRisk &&
    rec.clientQuote.any fun quote => quote.isExpired unix

/-- Attempt each of the incomplete negotiations; how many remain. -/
def recoverEach (config : ClientConfig) (network : NetworkSpec) :
    List SwapRecord → ClientProgram ℕ
  | [] => pure 0
  | rec :: rest => do
      let unix ← nowUnix
      if rec.neverStarted unix then do
        recordTerminal rec.swapId .expired
        recoverEach config network rest
      else do
        let result ← ((recoverOne config network rec).attempt :
          ClientProgram (Except DriverError Unit))
        let failures ← recoverEach config network rest
        match result with
        | .ok () => pure failures
        | .error _ => pure (failures + 1)

/-- `recover_pending`. -/
def recoverPending (config : ClientConfig) (network : NetworkSpec) : ClientProgram Unit := do
  let records ← Program.call .loadAllChecked (orThrow .message)
  let failures ← recoverEach config network
    (records.filter fun rec =>
      rec.role = .client && !rec.state.isTerminal && !rec.executionReady)
  if failures = 0 then pure ()
  else .throw (.message (toString failures ++ " creation intent(s) remain unresolved; recover " ++
    "them before starting another swap"))

/-! ## Restoring from a listing -/

/-- `RestoredKeys`: the secrets a wallet rebuilt for one listed swap. -/
structure RestoredKeys where
  branchKey : SecretKey
  preimage : Option Preimage

/-- `Restore`: what restored swaps need beyond the listing. -/
structure Restore where
  network : NetworkSpec
  destSpk : Bytes
  feeRateSatVb : ℕ

/-- `RestoreReport`: what a restore did with each listed swap. -/
structure RestoreReport where
  restored : List Uuid := []
  known : List Uuid := []
  finished : List Uuid := []
  unresolved : List Uuid := []
  unsupported : List Uuid := []
  deriving DecidableEq, Repr

/-- `Txid::from_str`. -/
def parseTxid (text : String) : Option Txid :=
  (hexBytes 32 text).map fun bytes => bytes.val.foldl (fun n byte => 256 * n + byte.toNat) 0

/-- `restored_state`. -/
def restoredState (snapshot : SwapStatusSnapshot) : SwapState :=
  if snapshot.fundingTxidHex.isSome then .lockupConfirmed
  else if snapshot.state = .created then .created
  else .invoicePending

/-- The contract a record is to hold: the redeem script as a text, or what the Taproot
contract is rebuilt from. -/
def restoredContract (accept : SwapAccept) (hash : PaymentHash) (claim provider : PublicKey) :
    Except String (String × Option TaprootParameters) :=
  match accept.scriptType with
  | .p2wsh =>
      .ok (Hex.encode (buildHtlcScript hash claim provider accept.timeoutBlockHeight), none)
  | .taprootBoltz => do
      let contract ← (BoltzTaprootSwap.new .reverse hash claim provider
        accept.timeoutBlockHeight).mapError SwapError.display
      .ok ("", some contract.parameters)

/-- `reverse_record`: the record of a listed swap, once the contract has been checked
against the wallet's own keys. -/
def reverseRecord (restore : Restore) (provider : String) (snapshot : SwapStatusSnapshot)
    (keys : RestoredKeys) : Except String SwapRecord := do
  let accept := snapshot.accept
  let preimage ← okOr keys.preimage "a reverse swap needs its preimage"
  let hash := paymentHash preimage
  if snapshot.paymentHashHex ≠ "" ∧ snapshot.paymentHashHex ≠ Hex.encode hash.val then
    .error "the preimage does not hash to the listed payment hash"
  else if snapshot.network ≠ restore.network then
    .error ("the swap is on " ++ snapshot.network.debug ++ ", not " ++ restore.network.debug)
  else do
    let claim := ClientCrates.publicKey keys.branchKey
    let _ ← (verifyContract accept .reverse hash claim restore.network).mapError
      fun e => "the listed contract does not match these keys: " ++ e.display
    let providerKey ← (parsePubkey accept.providerPubkeyHex).mapError fun _ => "provider_pubkey_hex"
    let (htlcScriptHex, taproot) ← restoredContract accept hash claim providerKey
    let invoice ← okOr accept.invoice "the listed acceptance has no hold invoice"
    .ok
      { swapId := accept.swapId
        role := .client
        direction := .reverse
        peer := provider
        network := restore.network
        paymentHashHex := Hex.encode hash.val
        secretKeyHex := Hex.encode keys.branchKey.val
        preimageHex := some (Hex.encode preimage.val)
        invoice := invoice
        requiredConfirmations := snapshot.requiredConfirmations
        feeRateSatVb := restore.feeRateSatVb
        htlcScriptHex := htlcScriptHex
        taproot := taproot
        timeoutHeight := accept.timeoutBlockHeight
        onchainAmountSat := accept.onchainAmountSat
        swapAccept := some accept
        destSpkHex := some (Hex.encode restore.destSpk)
        fundingTxid := snapshot.fundingTxidHex.bind parseTxid
        fundingVout := snapshot.fundingVout
        clientCreationStarted := true
        clientExecutionReady := true
        state := restoredState snapshot
        createdAtUnix := snapshot.createdAtUnix }

/-- What becomes of one listed swap, and the report with it. -/
def restoreSnapshot (restore : Restore) (provider : String)
    (resolve : SwapStatusSnapshot → Option RestoredKeys) (report : RestoreReport)
    (snapshot : SwapStatusSnapshot) : ClientProgram RestoreReport := do
  let swapId := snapshot.accept.swapId
  let found ← Program.call (.get swapId) (orThrow .message)
  if found.isSome then pure { report with known := report.known ++ [swapId] }
  else if snapshot.state.isTerminal then
    pure { report with finished := report.finished ++ [swapId] }
  else if snapshot.accept.direction ≠ .reverse then
    pure { report with unsupported := report.unsupported ++ [swapId] }
  else
    match resolve snapshot with
    | none => pure { report with unresolved := report.unresolved ++ [swapId] }
    | some keys =>
        match reverseRecord restore provider snapshot keys with
        | .error _ => pure { report with unresolved := report.unresolved ++ [swapId] }
        | .ok rec => do
            persist rec ("persist restored swap " ++ uuidText swapId)
            pure { report with restored := report.restored ++ [swapId] }

/-- `restore_snapshots`. -/
def restoreSnapshots (restore : Restore) (provider : String)
    (resolve : SwapStatusSnapshot → Option RestoredKeys) :
    RestoreReport → List SwapStatusSnapshot → ClientProgram RestoreReport
  | report, [] => pure report
  | report, snapshot :: rest => do
      let report ← restoreSnapshot restore provider resolve report snapshot
      restoreSnapshots restore provider resolve report rest

/-! ## Resuming -/

omit [Crypto] [ClientCrates] in
/-- `reverse_resume`: without a saved request, an earlier payment cannot be ruled out. -/
def reverseResume (rec : SwapRecord) : Resume :=
  let resume := rec.resume
  if rec.swapRequest.isNone ∧ resume.invoicePayStartedAtUnix.isNone then
    { resume with invoicePayStartedAtUnix := some 0 }
  else resume

/-- `submarine_funding_from_record`. -/
def submarineFundingFromRecord (rec : SwapRecord) : Except String SubmarineFunding := do
  .ok
    { htlcScript := ← rec.htlcScript
      htlcSpk := ← rec.htlcSpk
      onchainAmountSat := rec.onchainAmountSat
      paymentHash := ← rec.paymentHash
      refundKey := ← rec.secretKey
      timeoutHeight := rec.timeoutHeight
      feeRateSatVb := rec.feeRateSatVb }

/-- `reverse_claim_from_record`. -/
def reverseClaimFromRecord (rec : SwapRecord) : Except String ReverseClaim := do
  let preimageHex ← okOr rec.preimageHex
    "no preimage on the record; this swap cannot be claimed"
  let bytes ← okOr (Hex.decode preimageHex) "decode the preimage"
  let preimage ← okOr (if h : bytes.length = 32 then some ⟨bytes, h⟩ else none)
    "the preimage must be 32 bytes"
  let destSpkHex ← okOr rec.destSpkHex "no claim destination on the record"
  .ok
    { htlcScript := ← rec.htlcScript
      htlcSpk := ← rec.htlcSpk
      onchainAmountSat := rec.onchainAmountSat
      timeoutHeight := rec.timeoutHeight
      invoice := rec.invoice
      preimage := preimage
      claimKey := ← rec.secretKey
      destSpk := ← okOr (Hex.decode destSpkHex) "decode the claim destination"
      feeRateSatVb := rec.feeRateSatVb }

/-- `resume_submarine`. -/
def resumeSubmarine (hasWallet : Bool) (rec : SwapRecord) (fuel : ℕ) : ClientProgram SwapState :=
  if hasWallet then do
    let funding ← orThrow .message (submarineFundingFromRecord rec)
    driveSubmarine rec.swapId funding rec.resume fuel
  else
    .throw (.message ("a submarine swap needs a wallet to refund with; configure the same " ++
      "--wallet this swap was funded from"))

/-- `resume_reverse`: with the confirmations the swap agreed to, not today's flags. -/
def resumeReverse (maxRoutingFeeMsat : ℕ) (rec : SwapRecord) (fuel : ℕ) :
    ClientProgram SwapState := do
  let claim ← orThrow .message (reverseClaimFromRecord rec)
  let _ ← driveReverse rec.swapId claim maxRoutingFeeMsat rec.requiredConfirmations
    (reverseResume rec) fuel
  pure .claimed

/-- One unfinished swap, driven to an end. -/
def resumeOne (hasWallet : Bool) (maxRoutingFeeMsat : ℕ) (rec : SwapRecord) (fuel : ℕ) :
    ClientProgram SwapState :=
  match rec.direction with
  | .submarine => resumeSubmarine hasWallet rec fuel
  | .reverse => resumeReverse maxRoutingFeeMsat rec fuel

/-- The unfinished swaps one after another; one that fails does not stop the rest. -/
def resumeEach (hasWallet : Bool) (maxRoutingFeeMsat fuel : ℕ) :
    List SwapRecord → ClientProgram Unit
  | [] => pure ()
  | rec :: rest =>
      if !rec.executionReady then resumeEach hasWallet maxRoutingFeeMsat fuel rest
      else do
        let outcome ← ((resumeOne hasWallet maxRoutingFeeMsat rec fuel).attempt :
          ClientProgram (Except DriverError SwapState))
        match outcome with
        | .ok state => do
            bestEffort (recordTerminal rec.swapId state)
            resumeEach hasWallet maxRoutingFeeMsat fuel rest
        -- Not terminal: the record holds the only key that can recover the funds.
        | .error _ => resumeEach hasWallet maxRoutingFeeMsat fuel rest

/-- `resume_unfinished`. -/
def resumeUnfinished (hasWallet : Bool) (maxRoutingFeeMsat fuel : ℕ) : ClientProgram Unit := do
  let records ← unfinished
  resumeEach hasWallet maxRoutingFeeMsat fuel records

end PubkySwap
