import PubkySwap.Bitcoin
import PubkySwap.Messages
import PubkySwap.Timelock

/-!
# What a client checks before it commits

A provider chooses the numbers of a quote, of an acceptance and of an invoice.
The client acts on none of them before it has compared them with what it asked
for and with its own policy: the three validators below, in the order in which a
negotiation meets them.

`exposure_bounded` is what all of them together bound, for a provider that is
adversarial in every field.
-/

namespace PubkySwap

/-- `MAX_QUOTE_VALIDITY_SECS`. -/
def maxQuoteValiditySecs : ℕ := 3600

/-- `MAX_FUND_WITHIN_SECS`. -/
def maxFundWithinSecs : ℕ := 3600

/-- `ACCEPT_TIMEOUT_SLACK_BLOCKS`. -/
def acceptTimeoutSlackBlocks : ℕ := 6

/-- `MIN_MAINNET_CONFIRMATIONS`. -/
def minMainnetConfirmations : ℕ := 2

/-- `MAX_REQUIRED_CONFIRMATIONS`. -/
def maxRequiredConfirmations : ℕ := 12

/-- What a client will and will not accept from a provider. -/
structure ClientPolicy where
  minRequiredConfirmations : ℕ
  maxRequiredConfirmations : ℕ
  /-- In basis points of the swap amount. -/
  maxFeeBps : ℕ
  maxTotalSat : ℕ
  timelock : TimelockParams
  deriving DecidableEq, Repr

/-- `for_network`. -/
def ClientPolicy.forNetwork (network : NetworkSpec) (timelock : TimelockParams) : ClientPolicy where
  minRequiredConfirmations :=
    match network with
    | .bitcoin => minMainnetConfirmations
    | _ => 1
  maxRequiredConfirmations := PubkySwap.maxRequiredConfirmations
  maxFeeBps := 500
  maxTotalSat := Word.maxValue 64
  timelock := timelock

/-- `effective_confirmations`: never fewer than the client's own floor. -/
def ClientPolicy.effectiveConfirmations (policy : ClientPolicy) (quoted : ℕ) : ℕ :=
  max quoted policy.minRequiredConfirmations

/-- Why the client refused to proceed. -/
inductive ValidationError where
  | quoteIdMissing
  | unsupportedProtocolVersion (got max : ℕ)
  | offerMismatch (got want : String)
  | directionMismatch
  | amountMismatch (got want : ℕ)
  | quoteExpired (nowUnix validUntil : ℕ)
  | quoteNeverExpires
  | quoteValidTooLong (validForSecs max : ℕ)
  | fundWithinTooLong (fundWithinSecs max : ℕ)
  | totalNotAmountPlusFee (total amount fee : ℕ)
  | feeTooHigh (feeSat maxSat : ℕ)
  | feeItemisationMismatch (serviceSat onchainSat totalSat : ℕ)
  | totalTooLarge (totalSat maxSat : ℕ)
  | confirmationsTooLow (got min : ℕ)
  | confirmationsTooHigh (got max : ℕ)
  | swapIdMissing
  | onchainAmountMismatch (got want : ℕ)
  | timeoutMismatch (got want slack : ℕ)
  | timelock (violation : TimelockViolation)
  | contractMismatch (field : String)
  | invalidContract (reason : String)
  | paymentHashMismatch
  | invoiceAmountMismatch (gotMsat wantMsat : ℕ)
  | invoiceHasNoAmount
  | invoiceExpiresTooSoon (expiresAtUnix need : ℕ)
  | overflow
  deriving DecidableEq, Repr

/-- The `Display` text of a refusal. -/
def ValidationError.display : ValidationError → String
  | quoteIdMissing => "quote carries no id"
  | unsupportedProtocolVersion got max =>
      s!"the provider speaks wire protocol {got}, and this build speaks at most {max}"
  | offerMismatch got want => s!"quote is for offer {got}, not the requested {want}"
  | directionMismatch => "the reply is for a different swap direction"
  | amountMismatch got want => s!"quoted amount {got} sat, requested {want} sat"
  | quoteExpired nowUnix validUntil => s!"quote expired at {validUntil} (now {nowUnix})"
  | quoteNeverExpires => "quote claims never to expire; a firm price must carry an expiry"
  | quoteValidTooLong validForSecs max =>
      s!"quote claims {validForSecs}s of validity; the ceiling is {max}s"
  | fundWithinTooLong fundWithinSecs max =>
      s!"provider declares it funds within {fundWithinSecs}s; the ceiling is {max}s"
  | totalNotAmountPlusFee total amount fee =>
      s!"quote total {total} sat is not amount {amount} + fee {fee}"
  | feeTooHigh feeSat maxSat => s!"fee {feeSat} sat exceeds our ceiling of {maxSat} sat"
  | feeItemisationMismatch serviceSat onchainSat totalSat =>
      s!"quoted fee {totalSat} sat is not its parts: {serviceSat} service +" ++
        s!"                  {onchainSat} on-chain"
  | totalTooLarge totalSat maxSat => s!"total {totalSat} sat exceeds our ceiling of {maxSat} sat"
  | confirmationsTooLow got min =>
      s!"provider asks us to act at {got} confirmation(s); we require at least {min}"
  | confirmationsTooHigh got max =>
      s!"provider demands {got} confirmations; our ceiling is {max}"
  | swapIdMissing => "acceptance carries no swap id"
  | onchainAmountMismatch got want =>
      s!"provider asks for {got} sat on-chain but the quote agreed {want} sat"
  | timeoutMismatch got want slack =>
      s!"acceptance sets the timeout at {got}, but the quote implied {want} " ++
        s!"(tolerance {slack} blocks)"
  | timelock violation => violation.display
  | contractMismatch field =>
      s!"the acceptance's {field} does not match the contract built from our keys"
  | invalidContract reason =>
      s!"the acceptance does not describe a valid contract: {reason}"
  | paymentHashMismatch => "the invoice is not locked to our payment hash"
  | invoiceAmountMismatch gotMsat wantMsat =>
      s!"invoice asks for {gotMsat} msat but the quote agreed {wantMsat} msat"
  | invoiceHasNoAmount =>
      "invoice carries no amount, so paying it would let the provider choose"
  | invoiceExpiresTooSoon expiresAtUnix need =>
      s!"invoice expires at {expiresAtUnix}, before the swap can complete (need {need})"
  | overflow => "amount arithmetic overflowed"

/-- `.ok_or(Overflow)`. -/
def orOverflow (r : Option ℕ) : Except ValidationError ℕ :=
  match r with
  | some n => .ok n
  | none => .error .overflow

/-! ## The quote -/

/-- The total has to be exactly the amount and the fee, and the fee its parts. -/
def checkQuoteFee (quote : Quote) : Except ValidationError Unit := do
  let expectedTotal ← orOverflow (Word.checkedAdd 64 quote.amountSat quote.feeSat)
  if quote.totalSat ≠ expectedTotal then
    .error (.totalNotAmountPlusFee quote.totalSat quote.amountSat quote.feeSat)
  -- A provider that sends neither part is one from before the itemisation.
  else if quote.serviceFeeSat ≠ 0 ∨ quote.onchainFeeSat ≠ 0 then do
    let itemised ← orOverflow (Word.checkedAdd 64 quote.serviceFeeSat quote.onchainFeeSat)
    if itemised ≠ quote.feeSat then
      .error (.feeItemisationMismatch quote.serviceFeeSat quote.onchainFeeSat quote.feeSat)
    else .ok ()
  else .ok ()

/-- The expiry and the declared funding time. -/
def checkQuoteTimes (quote : Quote) (nowUnix : ℕ) : Except ValidationError Unit :=
  if quote.validUntilUnix = 0 then .error .quoteNeverExpires
  else if quote.isExpired nowUnix then .error (.quoteExpired nowUnix quote.validUntilUnix)
  else if maxQuoteValiditySecs < quote.validUntilUnix - nowUnix then
    .error (.quoteValidTooLong (quote.validUntilUnix - nowUnix) maxQuoteValiditySecs)
  else if maxFundWithinSecs < quote.fundWithinSecs then
    .error (.fundWithinTooLong quote.fundWithinSecs maxFundWithinSecs)
  else .ok ()

/-- `validate_quote`. -/
def validateQuote (quote : Quote) (request : QuoteRequest) (nowUnix : ℕ) (policy : ClientPolicy) :
    Except ValidationError Unit :=
  if quote.quoteId = 0 then .error .quoteIdMissing
  else if !protocolVersionSupported quote.protocolVersion then
    .error (.unsupportedProtocolVersion quote.protocolVersion protocolVersion)
  else if request.offerId ≠ 0 ∧ quote.offerId ≠ request.offerId then
    .error (.offerMismatch (uuidText quote.offerId) (uuidText request.offerId))
  else if quote.direction ≠ request.direction then .error .directionMismatch
  else if quote.amountSat ≠ request.amountSat then
    .error (.amountMismatch quote.amountSat request.amountSat)
  else do
    checkQuoteTimes quote nowUnix
    checkQuoteFee quote
    let maxFee := Word.truncate 64 (quote.amountSat * policy.maxFeeBps / 10000)
    if maxFee < quote.feeSat then .error (.feeTooHigh quote.feeSat maxFee)
    else if policy.maxTotalSat < quote.totalSat then
      .error (.totalTooLarge quote.totalSat policy.maxTotalSat)
    else if quote.requiredConfirmations < policy.minRequiredConfirmations then
      .error (.confirmationsTooLow quote.requiredConfirmations policy.minRequiredConfirmations)
    else if policy.maxRequiredConfirmations < quote.requiredConfirmations then
      .error (.confirmationsTooHigh quote.requiredConfirmations policy.maxRequiredConfirmations)
    else .ok ()

/-! ## The acceptance -/

/-- What the contract has to lock: the total of a submarine swap, the amount of
a reverse one. -/
def Quote.onchainAmountSat (quote : Quote) : ℕ :=
  match quote.direction with
  | .submarine => quote.totalSat
  | .reverse => quote.amountSat

/-- The timelock gate of a direction. -/
def checkClientTimeout (direction : SwapDirection) (tip timeoutHeight : ℕ) (p : TimelockParams) :
    Except TimelockViolation Unit :=
  match direction with
  | .reverse => checkClientReverseAccept tip timeoutHeight p
  | .submarine => checkClientSubmarineAccept tip timeoutHeight p

/-- The checks of an acceptance that need the tip. -/
def checkAcceptTimeout (accept : SwapAccept) (quote : Quote) (tip : ℕ) (policy : ClientPolicy) :
    Except ValidationError Unit :=
  let implied := Word.saturatingAdd 32 tip quote.htlcTimeoutBlocks
  if Word.saturatingAdd 32 implied acceptTimeoutSlackBlocks < accept.timeoutBlockHeight ∨
      -- A plain sum, which wraps.
      Word.truncate 32 (accept.timeoutBlockHeight + acceptTimeoutSlackBlocks) < implied then
    .error (.timeoutMismatch accept.timeoutBlockHeight implied acceptTimeoutSlackBlocks)
  else
    (checkClientTimeout quote.direction tip accept.timeoutBlockHeight
      { policy.timelock with
        requiredConfirmations :=
          policy.effectiveConfirmations quote.requiredConfirmations }).mapError .timelock

/-- `validate_accept`. -/
def validateAccept (accept : SwapAccept) (quote : Quote) (tip : Option ℕ) (policy : ClientPolicy) :
    Except ValidationError Unit :=
  if accept.quoteId ≠ quote.quoteId then
    .error (.offerMismatch (uuidText accept.quoteId) (uuidText quote.quoteId))
  else if accept.swapId = 0 then .error .swapIdMissing
  else if accept.direction ≠ quote.direction then .error .directionMismatch
  else if accept.onchainAmountSat ≠ quote.onchainAmountSat then
    .error (.onchainAmountMismatch accept.onchainAmountSat quote.onchainAmountSat)
  else
    match tip with
    | none => .ok ()
    | some tip => checkAcceptTimeout accept quote tip policy

/-! ## The hold invoice -/

/-- The decoded facts about a hold invoice. -/
structure DecodedHoldInvoice where
  paymentHash : Bytes32
  amountMsat : ℕ
  amountIsExplicit : Bool
  expiresAtUnix : ℕ
  deriving DecidableEq

/-- `validate_hold_invoice`. -/
def validateHoldInvoice (invoice : DecodedHoldInvoice) (quote : Quote) (ourPaymentHash : Bytes32)
    (nowUnix : ℕ) (policy : ClientPolicy) : Except ValidationError Unit :=
  if invoice.paymentHash ≠ ourPaymentHash then .error .paymentHashMismatch
  else if !invoice.amountIsExplicit then .error .invoiceHasNoAmount
  else do
    let wantMsat ← orOverflow (Word.checkedMul 64 quote.totalSat 1000)
    if invoice.amountMsat ≠ wantMsat then
      .error (.invoiceAmountMismatch invoice.amountMsat wantMsat)
    else do
      let confirmations := policy.effectiveConfirmations quote.requiredConfirmations
      let blocksNeeded ← orOverflow (Word.checkedAdd 64 confirmations clientClaimWindow)
      let need := Word.saturatingAdd 64 nowUnix (Word.saturatingMul 64 blocksNeeded 600)
      if invoice.expiresAtUnix ≠ 0 ∧ invoice.expiresAtUnix < need then
        .error (.invoiceExpiresTooSoon invoice.expiresAtUnix need)
      else .ok ()

/-! ## What the validators bound -/

section

variable {quote : Quote} {request : QuoteRequest} {accept : SwapAccept}
  {invoice : DecodedHoldInvoice} {hash : Bytes32} {policy : ClientPolicy}
  {nowUnix payUnix tip : ℕ}

theorem orOverflow_checkedAdd_bind_eq_ok {β : Type} {w a b : ℕ}
    {f : ℕ → Except ValidationError β} {r : β} :
    (orOverflow (Word.checkedAdd w a b) >>= f) = .ok r ↔ a + b < 2 ^ w ∧ f (a + b) = .ok r := by
  unfold Word.checkedAdd
  split
  · exact (and_iff_right ‹_›).symm
  · exact iff_of_false nofun fun h => absurd h.1 ‹_›

theorem orOverflow_checkedMul_bind_eq_ok {β : Type} {w a b : ℕ}
    {f : ℕ → Except ValidationError β} {r : β} :
    (orOverflow (Word.checkedMul w a b) >>= f) = .ok r ↔ a * b < 2 ^ w ∧ f (a * b) = .ok r := by
  unfold Word.checkedMul
  split
  · exact (and_iff_right ‹_›).symm
  · exact iff_of_false nofun fun h => absurd h.1 ‹_›

/-- What a quote that passes promises. -/
structure QuoteBinds (quote : Quote) (request : QuoteRequest) (policy : ClientPolicy) : Prop where
  direction : quote.direction = request.direction
  amount : quote.amountSat = request.amountSat
  total : quote.totalSat = quote.amountSat + quote.feeSat
  fee : quote.feeSat ≤ quote.amountSat * policy.maxFeeBps / 10000
  ceiling : quote.totalSat ≤ policy.maxTotalSat
  deepEnough : policy.minRequiredConfirmations ≤ quote.requiredConfirmations
  notTooDeep : quote.requiredConfirmations ≤ policy.maxRequiredConfirmations

theorem total_of_checkQuoteFee (h : checkQuoteFee quote = .ok ()) :
    quote.totalSat = quote.amountSat + quote.feeSat := by
  simp only [checkQuoteFee, orOverflow_checkedAdd_bind_eq_ok, ite_error_eq_ok, not_not] at h
  exact h.2.1

theorem quoteBinds_of_validateQuote (h : validateQuote quote request nowUnix policy = .ok ()) :
    QuoteBinds quote request policy := by
  simp only [validateQuote, ite_error_eq_ok, check_bind_eq_ok, not_not, not_lt] at h
  obtain ⟨-, -, -, hdirection, hamount, -, hfee, hmax, hceiling, hlow, hhigh, -⟩ := h
  exact {
    direction := hdirection
    amount := hamount
    total := total_of_checkQuoteFee hfee
    fee := hmax.trans (Nat.mod_le _ _)
    ceiling := hceiling
    deepEnough := hlow
    notTooDeep := hhigh }

/-- Above the floor, the confirmations acted on are the quoted ones. -/
theorem QuoteBinds.effectiveConfirmations_eq (h : QuoteBinds quote request policy) :
    policy.effectiveConfirmations quote.requiredConfirmations = quote.requiredConfirmations :=
  max_eq_left h.deepEnough

/-- The window and the margin a direction's gate asks for. -/
def claimRoom : SwapDirection → ℕ
  | .reverse => clientClaimWindow + claimAbortMargin
  | .submarine => providerMinClaimWindow + fundingGrace

/-- The timeout height a quote implies at a tip, as the client computes it. -/
def Quote.impliedTimeout (quote : Quote) (tip : ℕ) : ℕ :=
  min (tip + quote.htlcTimeoutBlocks) (Word.maxValue 32)

/-- What an acceptance that passes at a tip promises. -/
structure AcceptBinds (accept : SwapAccept) (quote : Quote) (tip : ℕ) (policy : ClientPolicy) :
    Prop where
  onchain : accept.onchainAmountSat = quote.onchainAmountSat
  notLater : accept.timeoutBlockHeight ≤ quote.impliedTimeout tip + acceptTimeoutSlackBlocks
  notEarlier : quote.impliedTimeout tip ≤ accept.timeoutBlockHeight + acceptTimeoutSlackBlocks
  notTooFar : accept.timeoutBlockHeight ≤ tip + policy.timelock.maxTimeoutBlocks
  roomToClaim : tip + policy.effectiveConfirmations quote.requiredConfirmations +
    claimRoom quote.direction ≤ accept.timeoutBlockHeight

theorem checkClientTimeout_eq_ok {direction : SwapDirection} {timeout : ℕ} {p : TimelockParams}
    (h : checkClientTimeout direction tip timeout p = .ok ()) :
    timeout ≤ tip + p.maxTimeoutBlocks ∧
      tip + p.requiredConfirmations + claimRoom direction ≤ timeout := by
  cases direction with
  | reverse =>
      obtain ⟨hahead, hceiling, -, hroom⟩ := checkClientAccept_eq_ok.mp h
      simp only [claimRoom]
      omega
  | submarine =>
      obtain ⟨hahead, hceiling, -, hroom⟩ := checkClientAccept_eq_ok.mp h
      simp only [claimRoom]
      omega

theorem onchain_of_validateAccept {tip : Option ℕ}
    (h : validateAccept accept quote tip policy = .ok ()) :
    accept.onchainAmountSat = quote.onchainAmountSat := by
  simp only [validateAccept, ite_error_eq_ok, not_not] at h
  exact h.2.2.2.1

theorem acceptBinds_of_validateAccept (h : validateAccept accept quote (some tip) policy = .ok ()) :
    AcceptBinds accept quote tip policy := by
  simp only [validateAccept, checkAcceptTimeout, ite_error_eq_ok, not_not, not_or, not_lt,
    mapError_eq_ok] at h
  obtain ⟨-, -, -, honchain, ⟨hlate, hearly⟩, htimeout⟩ := h
  obtain ⟨hceiling, hroom⟩ := checkClientTimeout_eq_ok htimeout
  simp only [Word.saturatingAdd, Word.truncate, Word.maxValue, acceptTimeoutSlackBlocks]
    at hlate hearly
  refine ⟨honchain, ?_, ?_, hceiling, hroom⟩
  · unfold Quote.impliedTimeout Word.maxValue acceptTimeoutSlackBlocks
    omega
  · -- A wrapped sum would be smaller than every height the timeout may be near.
    unfold Quote.impliedTimeout Word.maxValue acceptTimeoutSlackBlocks
    omega

theorem amount_of_validateHoldInvoice
    (h : validateHoldInvoice invoice quote hash nowUnix policy = .ok ()) :
    invoice.paymentHash = hash ∧ invoice.amountIsExplicit = true ∧
      invoice.amountMsat = quote.totalSat * 1000 := by
  simp only [validateHoldInvoice, ite_error_eq_ok, orOverflow_checkedMul_bind_eq_ok, not_not,
    Bool.not_eq_true', Bool.not_eq_false] at h
  exact ⟨h.1, h.2.1, h.2.2.2.1⟩

/-- What the client gives up, in satoshis. -/
def givenUpSat (direction : SwapDirection) (accept : SwapAccept)
    (invoice : DecodedHoldInvoice) : ℕ :=
  match direction with
  | .submarine => accept.onchainAmountSat
  | .reverse => invoice.amountMsat / 1000

/-- What the client receives: over Lightning on the invoice it made for the
quoted amount, or on chain. -/
def receivedSat (quote : Quote) (accept : SwapAccept) : ℕ :=
  match quote.direction with
  | .submarine => quote.amountSat
  | .reverse => accept.onchainAmountSat

/-- **The bound on what a client risks.** -/
structure ExposureBounded (request : QuoteRequest) (quote : Quote) (accept : SwapAccept)
    (invoice : DecodedHoldInvoice) (policy : ClientPolicy) (tip : ℕ) : Prop where
  givenUp : givenUpSat request.direction accept invoice = request.amountSat + quote.feeSat
  fee : quote.feeSat ≤ request.amountSat * policy.maxFeeBps / 10000
  ceiling : givenUpSat request.direction accept invoice ≤ policy.maxTotalSat
  received : receivedSat quote accept = request.amountSat
  confirmations :
    policy.minRequiredConfirmations ≤ policy.effectiveConfirmations quote.requiredConfirmations ∧
      policy.effectiveConfirmations quote.requiredConfirmations ≤ policy.maxRequiredConfirmations
  timeoutNear :
    accept.timeoutBlockHeight ≤ quote.impliedTimeout tip + acceptTimeoutSlackBlocks ∧
      quote.impliedTimeout tip ≤ accept.timeoutBlockHeight + acceptTimeoutSlackBlocks
  timeoutNotTooFar : accept.timeoutBlockHeight ≤ tip + policy.timelock.maxTimeoutBlocks
  roomToClaim : tip + policy.effectiveConfirmations quote.requiredConfirmations +
    claimRoom request.direction ≤ accept.timeoutBlockHeight

/-- **The validators bound the client's exposure**, whatever the provider put
into its quote, its acceptance and its invoice. -/
theorem exposure_bounded (hquote : validateQuote quote request nowUnix policy = .ok ())
    (haccept : validateAccept accept quote (some tip) policy = .ok ())
    (hinvoice : request.direction = .reverse →
      validateHoldInvoice invoice quote hash payUnix policy = .ok ()) :
    ExposureBounded request quote accept invoice policy tip := by
  have hq := quoteBinds_of_validateQuote hquote
  have ha := acceptBinds_of_validateAccept haccept
  have hgivenUp : givenUpSat request.direction accept invoice = quote.totalSat := by
    cases hdirection : request.direction with
    | submarine =>
        show accept.onchainAmountSat = _
        rw [ha.onchain, Quote.onchainAmountSat, hq.direction, hdirection]
    | reverse =>
        obtain ⟨-, -, hamount⟩ := amount_of_validateHoldInvoice (hinvoice hdirection)
        show invoice.amountMsat / 1000 = _
        rw [hamount, Nat.mul_div_cancel _ (by decide)]
  have hreceived : receivedSat quote accept = quote.amountSat := by
    unfold receivedSat
    split
    · rfl
    · next hdirection => rw [ha.onchain, Quote.onchainAmountSat, hdirection]
  exact {
    givenUp := by rw [hgivenUp, hq.total, hq.amount]
    fee := hq.amount ▸ hq.fee
    ceiling := hgivenUp ▸ hq.ceiling
    received := hreceived.trans hq.amount
    confirmations := ⟨le_max_right _ _, hq.effectiveConfirmations_eq.trans_le hq.notTooDeep⟩
    timeoutNear := ⟨ha.notLater, ha.notEarlier⟩
    timeoutNotTooFar := ha.notTooFar
    roomToClaim := hq.direction ▸ ha.roomToClaim }

end

/-! ## Two negotiations -/

namespace Negotiated

def request : QuoteRequest where
  offerId := 0
  clientPkarr := "client"
  direction := .reverse
  amountSat := 100000

def quote : Quote where
  quoteId := 1
  offerId := 2
  direction := .reverse
  amountSat := 100000
  feeSat := 700
  serviceFeeSat := 350
  onchainFeeSat := 350
  totalSat := 100700
  htlcTimeoutBlocks := 144
  requiredConfirmations := 2
  validUntilUnix := 1700000300

def accept : SwapAccept where
  quoteId := 1
  swapId := 3
  direction := .reverse
  onchainAmountSat := 100000
  timeoutBlockHeight := 800145
  providerPubkeyHex := ""

def invoice : DecodedHoldInvoice where
  paymentHash := Bytes32.ofNat 81
  amountMsat := 100700000
  amountIsExplicit := true
  expiresAtUnix := 1700020000

def policy : ClientPolicy := .forNetwork .bitcoin {}

theorem validateQuote_quote : validateQuote quote request 1700000000 policy = .ok () := by
  decide +kernel

theorem validateAccept_accept : validateAccept accept quote (some 800000) policy = .ok () := by
  decide +kernel

theorem validateHoldInvoice_invoice :
    validateHoldInvoice invoice quote (Bytes32.ofNat 81) 1700000010 policy = .ok () := by
  decide +kernel

theorem exposure_bounded_reverse : ExposureBounded request quote accept invoice policy 800000 :=
  exposure_bounded validateQuote_quote validateAccept_accept fun _ => validateHoldInvoice_invoice

/-- A client that sets no ceiling on timeouts. -/
def unlimited : ClientPolicy := { policy with timelock := { maxTimeoutBlocks := 4294967295 } }

def farQuote : Quote := { quote with direction := .submarine, htlcTimeoutBlocks := 4294967295 }

def farAccept : SwapAccept :=
  { accept with
    direction := .submarine
    onchainAmountSat := 100700
    timeoutBlockHeight := 4294967289 }

/-- **The height a quote implies is clamped**: both validators pass a timeout that
is eight hundred thousand blocks short of the tip and the quoted blocks. -/
theorem timeout_far_from_quoted :
    validateQuote farQuote { request with direction := .submarine } 1700000000 unlimited = .ok () ∧
      validateAccept farAccept farQuote (some 800000) unlimited = .ok () ∧
      farAccept.timeoutBlockHeight + 800006 = 800000 + farQuote.htlcTimeoutBlocks := by
  decide +kernel

end Negotiated

end PubkySwap
