import PubkySwap.HoldInvoice
import PubkySwap.QuoteBook
import PubkySwap.Record

/-!
# Admitting a swap

A swap is started in three parts.  Some of the request is checked first; then the quote is
taken, which nobody can do a second time; then the rest is checked and built: capacity is
reserved, the contract made, a submarine invoice decoded and compared with the quote, and
the record written before anything is promised.

A request that is refused by the first part leaves the book as it was.  One that is refused
by the third part has cost its sender the quote (`refused_keeps_quote_iff`), although what
is wrong with it may be as plain as a key that is not compressed.
-/

namespace PubkySwap

open BitcoinScript (Bytes)

/-! ## What can be wrong with a request -/

/-- A start that is refused for what the request says. -/
inductive RequestFault where
  | claimKeyMissing
  | refundKeyMissing
  | invoiceMissing
  | keyInvalid (error : String)
  | hashInvalid (error : String)
  | hashTaken
  /-- For a Taproot contract. -/
  | keyUnsuitable (error : SwapError)
  | invoiceAmountless
  | invoiceFractional (amountMsat : ℕ)
  | invoiceForAnotherAmount (invoiceSat quotedSat : ℕ)
  | invoiceCltv (violation : TimelockViolation)
  | hashMismatch
  deriving DecidableEq, Repr

/-- The code and the reason of the refusal. -/
def RequestFault.refusal : RequestFault → Engine.Refusal
  | claimKeyMissing => ⟨.invalidRequest, "reverse swap requires client_claim_pubkey"⟩
  | refundKeyMissing => ⟨.invalidRequest, "submarine swap requires client_refund_pubkey"⟩
  | invoiceMissing => ⟨.invalidRequest, "submarine swap requires an invoice"⟩
  | keyInvalid error => ⟨.invalidRequest, error⟩
  | hashInvalid error => ⟨.invalidRequest, error⟩
  | hashTaken =>
      ⟨.invalidRequest, "payment hash already belongs to an admitted reverse swap"⟩
  -- An error of the contract is no refusal, so its code is that of an internal error.
  | keyUnsuitable error => ⟨.internalError, error.display⟩
  | invoiceAmountless =>
      ⟨.invalidDestination,
        "the client's invoice carries no amount; a swap needs an amount-bearing invoice"⟩
  | invoiceFractional amountMsat =>
      ⟨.invalidDestination, s!"invoice amount {amountMsat} msat is not a whole number of satoshis"⟩
  | invoiceForAnotherAmount invoiceSat quotedSat =>
      ⟨.invalidDestination,
        s!"the client's invoice is for {invoiceSat} sat but the quote is for " ++
        s!"{quotedSat} sat"⟩
  | invoiceCltv violation =>
      ⟨.invalidDestination, "the client's invoice demands too much final CLTV: " ++
        violation.display⟩
  | hashMismatch => ⟨.invalidRequest, "request payment hash does not match the invoice"⟩

/-- Why a swap was not started. -/
inductive StartError where
  | request (fault : RequestFault)
  /-- Refused for another reason: the quote, or the limits. -/
  | refused (refusal : Engine.Refusal)
  /-- The provider's own failure. -/
  | failed (text : String)
  deriving DecidableEq

/-! ## What a start reads -/

/-- `DecodedInvoice`: what the Lightning node says about an invoice. -/
structure DecodedInvoice where
  paymentHash : PaymentHash
  amountMsat : ℕ
  minFinalCltvExpiry : ℕ
  amountIsExplicit : Bool
  expiresAtUnix : ℕ
  deriving DecidableEq

/-- What a start reads of the provider's context. -/
structure StartParams where
  network : NetworkSpec
  onchainFeeRateSatVb : ℕ
  maxRoutingFeeMsat : ℕ
  invoiceExpirySecs : ℕ
  requiredConfirmations : ℕ
  timelock : TimelockParams
  /-- The account and the scope that the transport has authorized. -/
  account : Option String := none
  authorizationScope : Option String := none

/-- The answers a start is given: each thing is asked for at most once. -/
structure StartAnswers where
  /-- Whether there is a chain watcher. -/
  hasChain : Bool := true
  nowUnix : ℕ
  /-- `load_all_checked`. -/
  records : Except String (List SwapRecord) := .ok []
  swapId : Uuid
  /-- `reserve_for_swap`, with what is to be reserved. -/
  reserve : Uuid → ℕ → Except (Engine.Refusal ⊕ String) Unit := fun _ _ => .ok ()
  keypair : SecretKey × PublicKey
  tipHeight : Except SwapError ℕ
  decodeInvoice : String → Except LightningError DecodedInvoice
  /-- `put`. -/
  put : SwapRecord → Except String Unit := fun _ => .ok ()
  /-- `complete_invoice_intent`, and the driver's swap read back from what it has stored. -/
  completeInvoiceIntent : SwapRecord → Except String SwapRecord
  /-- `respond`. -/
  respond : SwapAccept → Except String Unit := fun _ => .ok ()

/-- `exposure_sat`. -/
def exposureSat (direction : SwapDirection) (amountSat feeSat : ℕ) : ℕ :=
  match direction with
  | .reverse => amountSat
  | .submarine => Word.saturatingAdd 64 amountSat feeSat

/-- `parse_hash32`. -/
def parseHash32 (text : String) : Except String PaymentHash := do
  let bytes ← okOr (Hex.decode text) ("decode hash hex: " ++ Hex.refusal text)
  if h : bytes.length = 32 then .ok ⟨bytes, h⟩ else .error "payment hash must be 32 bytes"

/-- `ensure_reverse_hash_available`. -/
def ensureReverseHashAvailable (records : Except String (List SwapRecord)) (hash : PaymentHash) :
    Except StartError Unit := do
  let records ← records.mapError .failed
  records.forM fun rec => do
    if rec.direction = .reverse then
      if (← rec.paymentHash.mapError .failed) = hash then .error (.request .hashTaken)
section

variable [Crypto] [ClientCrates]

/-- The contract of the request's script type, for a Taproot request. -/
def requestedContract (scriptType : SwapScript) (direction : SwapDirection)
    (paymentHash : Except StartError PaymentHash) (claim refund : PublicKey) (timeout : ℕ) :
    Except StartError (Option BoltzTaprootSwap) :=
  match scriptType with
  | .p2wsh => .ok none
  | .taprootBoltz => do
      match BoltzTaprootSwap.new direction (← paymentHash) claim refund timeout with
      | .ok contract => .ok (some contract)
      | .error (.invalidPubkey detail) => .error (.request (.keyUnsuitable (.invalidPubkey detail)))
      | .error e => .error (.failed e.display)

/-- The parts of an admitted swap that both directions write down in the same way. -/
structure AdmittedSwap [Crypto] where
  direction : SwapDirection
  paymentHash : PaymentHash
  onchainAmountSat : ℕ
  feeRateSatVb : ℕ
  htlcScript : Bytes
  htlcSpk : Bytes
  taproot : Option BoltzTaprootSwap
  timeoutHeight : ℕ
  /-- The provider's key of its branch. -/
  key : SecretKey
  publicKey : PublicKey
  invoice : String := ""
  maxRoutingFeeMsat : ℕ := 0

/-- The acceptance that is replied. -/
def AdmittedSwap.accept (swap : AdmittedSwap) (params : StartParams) (req : SwapRequest)
    (swapId : Uuid) : SwapAccept where
  scriptType := req.scriptType
  swapTree := swap.taproot.map BoltzTaprootSwap.swapTree
  quoteId := req.quoteId
  swapId := swapId
  direction := swap.direction
  htlcScriptHex := Hex.encode swap.htlcScript
  htlcAddress := ClientCrates.addressText params.network
    (match swap.taproot with
      | none => htlcP2wshScriptPubkey swap.htlcScript
      | some contract => contract.scriptPubkey)
  onchainAmountSat := swap.onchainAmountSat
  timeoutBlockHeight := swap.timeoutHeight
  providerPubkeyHex := Hex.encode swap.publicKey.serialized

/-- The record that is written before anything is promised. -/
def AdmittedSwap.record (swap : AdmittedSwap) (params : StartParams) (sender : String)
    (req : SwapRequest) (quote : IssuedQuote) (swapId : Uuid) (nowUnix : ℕ) : SwapRecord where
  swapRequest := some req
  swapAccept := some (swap.accept params req swapId)
  taproot := swap.taproot.map BoltzTaprootSwap.parameters
  createdAtUnix := nowUnix
  updatedAtUnix := nowUnix
  swapId := swapId
  direction := swap.direction
  peer := sender
  peerAccount := params.account
  peerAuthorizationScope := params.authorizationScope
  network := params.network
  paymentHashHex := Hex.encode swap.paymentHash.val
  onchainAmountSat := swap.onchainAmountSat
  feeRateSatVb := swap.feeRateSatVb
  htlcScriptHex := Hex.encode swap.htlcScript
  timeoutHeight := swap.timeoutHeight
  secretKeyHex := Hex.encode swap.key.val
  invoice := swap.invoice
  maxRoutingFeeMsat := swap.maxRoutingFeeMsat
  serviceFeeSat := quote.serviceFeeSat
  onchainFeeSat := quote.onchainFeeSat
  requiredConfirmations := params.requiredConfirmations
  state := .created

/-! ## The reverse direction -/

/-- What `start_reverse` checks before the quote: the claim key and the payment hash. -/
def reverseTerms (answers : StartAnswers) (req : SwapRequest) :
    Except StartError (PublicKey × PaymentHash) := do
  if !answers.hasChain then .error (.failed "no chain watcher")
  else
    let text ← okOr req.clientClaimPubkeyHex (.request .claimKeyMissing)
    let claim ← (parsePubkey text).mapError fun e => .request (.keyInvalid e)
    let hash ← (parseHash32 req.paymentHashHex).mapError fun e => .request (.hashInvalid e)
    ensureReverseHashAvailable answers.records hash
    .ok (claim, hash)

/-- What `start_reverse` does once it has the quote. -/
def admitReverse (params : StartParams) (answers : StartAnswers) (sender : String)
    (req : SwapRequest) (terms : PublicKey × PaymentHash) (quote : IssuedQuote) :
    Except StartError SwapAccept := do
  let (claim, hash) := terms
  (answers.reserve answers.swapId (exposureSat .reverse quote.amountSat quote.feeSat)).mapError
    (Sum.elim .refused .failed)
  let (refundKey, refund) := answers.keypair
  let tip ← answers.tipHeight.mapError fun e => .failed ("tip height: " ++ e.display)
  let timeout ← (onchainTimeout tip params.timelock).mapError
    fun e => .failed ("timeout height: " ++ e.display)
  let taproot ← requestedContract req.scriptType .reverse (.ok hash) claim refund timeout
  let htlcScript := match taproot with
    | none => buildHtlcScript hash claim refund timeout
    | some _ => []
  let swap : AdmittedSwap :=
    { direction := .reverse
      paymentHash := hash
      onchainAmountSat := quote.amountSat
      feeRateSatVb := params.onchainFeeRateSatVb
      htlcScript := htlcScript
      htlcSpk := match taproot with
        | none => htlcP2wshScriptPubkey htlcScript
        | some contract => contract.scriptPubkey
      taproot := taproot
      timeoutHeight := timeout
      key := refundKey
      publicKey := refund }
  let request ← (reverseInvoiceRequest hash quote.amountSat quote.feeSat params.invoiceExpirySecs
    params.timelock).mapError fun e => .failed e.display
  let record :=
    { swap.record params sender req quote answers.swapId answers.nowUnix with
      pendingHoldInvoice := some
        { amountMsat := request.amountMsat
          expirySecs := request.expirySecs
          cltvExpiryDelta := request.cltvExpiryDelta
          memo := "pubky-swap reverse " ++ uuidText answers.swapId }
      claimableHint := quote.claimableHint }
  (answers.put record).mapError fun e => .failed ("persist reverse invoice intent: " ++ e)
  let completed ← (answers.completeInvoiceIntent record).mapError .failed
  let accept ← okOr completed.swapAccept (.failed "completed reverse swap has no acceptance")
  (answers.respond accept).mapError .failed
  .ok accept

/-! ## The submarine direction -/

/-- What `start_submarine` checks before the quote: the invoice is there, and the refund key. -/
def submarineTerms (answers : StartAnswers) (req : SwapRequest) :
    Except StartError (String × PublicKey) := do
  if !answers.hasChain then .error (.failed "no chain watcher")
  else
    let invoice ← okOr req.invoice (.request .invoiceMissing)
    let text ← okOr req.clientRefundPubkeyHex (.request .refundKeyMissing)
    let refund ← (parsePubkey text).mapError fun e => .request (.keyInvalid e)
    .ok (invoice, refund)

/-- `init_submarine_swap`: decode the client's invoice and build the HTLC it must fund. -/
def initSubmarineSwap (params : StartParams) (answers : StartAnswers) (invoice : String)
    (claim refund : PublicKey) (claimKey : SecretKey)
    (quotedAmountSat providerFeeSat tip timeout : ℕ) :
    Except StartError AdmittedSwap := do
  let decoded ← (answers.decodeInvoice invoice).mapError
    fun e => .failed ("decode invoice: " ++ e.display)
  if !decoded.amountIsExplicit then .error (.request .invoiceAmountless)
  else if decoded.amountMsat % 1000 ≠ 0 then
    .error (.request (.invoiceFractional decoded.amountMsat))
  else
    let invoiceAmountSat := decoded.amountMsat / 1000
    if invoiceAmountSat ≠ quotedAmountSat then
      .error (.request (.invoiceForAnotherAmount invoiceAmountSat quotedAmountSat))
    else
      (checkSubmarineInvoiceCltv tip timeout decoded.minFinalCltvExpiry params.timelock).mapError
        fun violation => .request (.invoiceCltv violation)
      let onchainAmountSat ← okOr (Word.checkedAdd 64 invoiceAmountSat providerFeeSat)
        (.failed s!"on-chain amount overflows: {invoiceAmountSat} + {providerFeeSat} sat")
      let htlcScript := buildHtlcScript decoded.paymentHash claim refund timeout
      .ok
        { direction := .submarine
          paymentHash := decoded.paymentHash
          onchainAmountSat := onchainAmountSat
          feeRateSatVb := params.onchainFeeRateSatVb
          htlcScript := htlcScript
          htlcSpk := htlcP2wshScriptPubkey htlcScript
          taproot := none
          timeoutHeight := timeout
          key := claimKey
          publicKey := claim
          invoice := invoice
          maxRoutingFeeMsat := params.maxRoutingFeeMsat }

/-- What `start_submarine` does once it has the quote. -/
def admitSubmarine (params : StartParams) (answers : StartAnswers) (sender : String)
    (req : SwapRequest) (terms : String × PublicKey) (quote : IssuedQuote) :
    Except StartError SwapAccept := do
  let (invoice, refund) := terms
  (answers.reserve answers.swapId (exposureSat .submarine quote.amountSat quote.feeSat)).mapError
    (Sum.elim .refused .failed)
  let (claimKey, claim) := answers.keypair
  let tip ← answers.tipHeight.mapError fun e => .failed ("tip height: " ++ e.display)
  let timeout ← (onchainTimeout tip params.timelock).mapError
    fun e => .failed ("timeout height: " ++ e.display)
  let requestHash := (parseHash32 req.paymentHashHex).mapError
    fun e => .request (.hashInvalid e)
  let taproot ← requestedContract req.scriptType .submarine requestHash claim refund timeout
  let swap ← initSubmarineSwap params answers invoice claim refund claimKey quote.amountSat
    quote.feeSat tip timeout
  let swap ← match taproot with
    | none => .ok swap
    | some contract => do
        if swap.paymentHash ≠ (← requestHash) then .error (.request .hashMismatch)
        else
          .ok { swap with
            htlcSpk := contract.scriptPubkey
            htlcScript := []
            taproot := some contract }
  let accept := swap.accept params req answers.swapId
  (answers.put (swap.record params sender req quote answers.swapId answers.nowUnix)).mapError
    fun e => .failed ("cannot start submarine swap " ++ uuidText answers.swapId ++ ": " ++ e)
  (answers.respond accept).mapError .failed
  .ok accept

/-! ## Both directions -/

/-- Take the quote once the terms have been checked, and do the rest. -/
def startWith {τ : Type} (direction : SwapDirection) (quoteId : Uuid) (sender : String)
    (nowUnix : ℕ) (terms : Except StartError τ)
    (proceed : τ → IssuedQuote → Except StartError SwapAccept) (book : QuoteBook) :
    Except StartError SwapAccept × QuoteBook :=
  match terms with
  | .error e => (.error e, book)
  | .ok terms =>
      match book.takeValidQuote quoteId sender direction nowUnix with
      | (.error refusal, book) => (.error (.refused refusal), book)
      | (.ok quote, book) => (proceed terms quote, book)

/-- `start_reverse`. -/
def startReverse (params : StartParams) (answers : StartAnswers) (sender : String)
    (req : SwapRequest) (book : QuoteBook) : Except StartError SwapAccept × QuoteBook :=
  startWith .reverse req.quoteId sender answers.nowUnix (reverseTerms answers req)
    (admitReverse params answers sender req) book

/-- `start_submarine`. -/
def startSubmarine (params : StartParams) (answers : StartAnswers) (sender : String)
    (req : SwapRequest) (book : QuoteBook) : Except StartError SwapAccept × QuoteBook :=
  startWith .submarine req.quoteId sender answers.nowUnix (submarineTerms answers req)
    (admitSubmarine params answers sender req) book

/-- Start a swap in the direction of the request. -/
def startSwap (params : StartParams) (answers : StartAnswers) (sender : String)
    (req : SwapRequest) (book : QuoteBook) : Except StartError SwapAccept × QuoteBook :=
  match req.direction with
  | .reverse => startReverse params answers sender req book
  | .submarine => startSubmarine params answers sender req book

/-! ## What a refusal costs -/

/-- The book holds a quote that its sender may take now. -/
structure QuoteBook.Offers (book : QuoteBook) (quoteId : Uuid) (sender : String)
    (direction : SwapDirection) (nowUnix : ℕ) (quote : IssuedQuote) : Prop where
  held : book.quotes.lookup quoteId = some quote
  stands : standsAt nowUnix quote.expiresAtUnix = true
  owner : ClientCrates.samePubky quote.peer sender = true
  direction_eq : quote.direction = direction

variable {book : QuoteBook} {quoteId : Uuid} {sender : String} {direction : SwapDirection}
  {nowUnix : ℕ} {quote : IssuedQuote} {params : StartParams} {answers : StartAnswers}
  {req : SwapRequest} {fault : RequestFault}

omit [Crypto] in
/-- An offered quote is taken, and is in the book no longer. -/
theorem QuoteBook.Offers.take (h : book.Offers quoteId sender direction nowUnix quote) :
    (book.takeValidQuote quoteId sender direction nowUnix).1 = .ok quote ∧
      (book.takeValidQuote quoteId sender direction nowUnix).2.quotes.lookup quoteId = none := by
  have hlook : (book.prune nowUnix).quotes.lookup quoteId = some quote :=
    QuoteBook.lookup_prune.mpr ⟨h.held, h.stands⟩
  simp only [QuoteBook.takeValidQuote, hlook, h.owner, h.direction_eq, not_true_eq_false, ne_eq,
    if_false, AList.lookup_erase, and_self]

omit [Crypto] in
/-- **What a start leaves of an offered quote**: nothing, once the terms are accepted. -/
theorem lookup_startWith {τ : Type} {terms : Except StartError τ}
    {proceed : τ → IssuedQuote → Except StartError SwapAccept}
    (h : book.Offers quoteId sender direction nowUnix quote) :
    (startWith direction quoteId sender nowUnix terms proceed book).2.quotes.lookup quoteId =
      match terms with
      | .ok _ => none
      | .error _ => some quote := by
  unfold startWith
  cases terms with
  | error e => exact h.held
  | ok terms =>
      obtain ⟨htaken, hgone⟩ := h.take
      generalize book.takeValidQuote quoteId sender direction nowUnix = result at htaken hgone
      obtain ⟨outcome, book'⟩ := result
      cases htaken
      exact hgone

/-- The checks that come before the quote pass. -/
def PassesFirstChecks (answers : StartAnswers) (req : SwapRequest) : Prop :=
  match req.direction with
  | .reverse =>
      (∃ text key, req.clientClaimPubkeyHex = some text ∧ parsePubkey text = .ok key) ∧
        ∃ hash, parseHash32 req.paymentHashHex = .ok hash ∧
          ensureReverseHashAvailable answers.records hash = .ok ()
  | .submarine =>
      req.invoice.isSome ∧
        ∃ text key, req.clientRefundPubkeyHex = some text ∧ parsePubkey text = .ok key

/-- The quote is still in the book, and whatever is asked for it from now on is answered as
if the refused request had not been made. -/
structure KeepsQuote (sender : String) (req : SwapRequest) (quote : IssuedQuote) (nowUnix : ℕ)
    (before after : QuoteBook) : Prop where
  held : after.quotes.lookup req.quoteId = some quote
  admits : ∀ params answers req', nowUnix ≤ answers.nowUnix →
    (startSwap params answers sender req' after).1 = (startSwap params answers sender req' before).1

omit [Crypto] in
theorem reverseTerms_isOk_iff (hchain : answers.hasChain = true) :
    (∃ terms, reverseTerms answers req = .ok terms) ↔
      (∃ text key, req.clientClaimPubkeyHex = some text ∧ parsePubkey text = .ok key) ∧
        ∃ hash, parseHash32 req.paymentHashHex = .ok hash ∧
          ensureReverseHashAvailable answers.records hash = .ok () := by
  simp only [reverseTerms, hchain, Bool.not_true, Bool.false_eq_true, if_false, bind_eq_ok_iff,
    okOr_eq_ok, mapError_eq_ok]
  constructor
  · rintro ⟨terms, text, htext, key, hkey, hash, hhash, _, havailable, -⟩
    exact ⟨⟨text, key, htext, hkey⟩, hash, hhash, havailable⟩
  · rintro ⟨⟨text, key, htext, hkey⟩, hash, hhash, havailable⟩
    exact ⟨(key, hash), text, htext, key, hkey, hash, hhash, (), havailable, rfl⟩

omit [Crypto] in
theorem submarineTerms_isOk_iff (hchain : answers.hasChain = true) :
    (∃ terms, submarineTerms answers req = .ok terms) ↔
      req.invoice.isSome ∧
        ∃ text key, req.clientRefundPubkeyHex = some text ∧ parsePubkey text = .ok key := by
  simp only [submarineTerms, hchain, Bool.not_true, Bool.false_eq_true, if_false, bind_eq_ok_iff,
    okOr_eq_ok, mapError_eq_ok]
  constructor
  · rintro ⟨terms, invoice, hinvoice, text, htext, key, hkey, -⟩
    exact ⟨hinvoice ▸ rfl, text, key, htext, hkey⟩
  · rintro ⟨hinvoice, text, key, htext, hkey⟩
    obtain ⟨invoice, hinvoice⟩ := Option.isSome_iff_exists.mp hinvoice
    exact ⟨(invoice, key), invoice, hinvoice, text, htext, key, hkey, rfl⟩

/-- A start that is refused for its request has a chain to run on. -/
theorem hasChain_of_request
    (h : (startSwap params answers sender req book).1 = .error (.request fault)) :
    answers.hasChain = true := by
  by_contra hchain
  rw [Bool.not_eq_true] at hchain
  unfold startSwap at h
  split at h
  · simp [startReverse, reverseTerms, hchain, startWith] at h
  · simp [startSubmarine, submarineTerms, hchain, startWith] at h

/-- What is left of the offered quote depends on the first checks alone. -/
theorem keepsQuote_startWith_iff {τ : Type} {terms : Except StartError τ}
    {proceed : τ → IssuedQuote → Except StartError SwapAccept}
    (h : book.Offers req.quoteId sender direction nowUnix quote) :
    KeepsQuote sender req quote nowUnix book
        (startWith direction req.quoteId sender nowUnix terms proceed book).2 ↔
      ¬∃ accepted, terms = .ok accepted := by
  cases terms with
  | error e => exact iff_of_true ⟨h.held, fun _ _ _ _ => rfl⟩ nofun
  | ok accepted =>
      refine iff_of_false (fun hkeeps => ?_) (not_not.mpr ⟨accepted, rfl⟩)
      have hgone : some quote = none := hkeeps.held.symm.trans (lookup_startWith h)
      cases hgone

/-- **Which refusals leave the quote to its owner**: of the requests that are refused for what
they say, exactly those that one of the first checks refuses. -/
theorem refused_keeps_quote_iff
    (hoffered : book.Offers req.quoteId sender req.direction answers.nowUnix quote)
    (hrefused : (startSwap params answers sender req book).1 = .error (.request fault)) :
    KeepsQuote sender req quote answers.nowUnix book
        (startSwap params answers sender req book).2 ↔ ¬PassesFirstChecks answers req := by
  have hchain := hasChain_of_request hrefused
  unfold startSwap PassesFirstChecks
  cases hdirection : req.direction with
  | reverse =>
      rw [hdirection] at hoffered
      rw [← reverseTerms_isOk_iff hchain]
      exact keepsQuote_startWith_iff hoffered
  | submarine =>
      rw [hdirection] at hoffered
      rw [← submarineTerms_isOk_iff hchain]
      exact keepsQuote_startWith_iff hoffered

end

/-! ## An invoice without an amount -/

namespace BurntQuote

local instance tables : Crypto := tableCrypto []

local instance crates : ClientCrates := plainCrates

theorem length_publicKey : (2 :: List.replicate 32 (0x11 : UInt8)).length = 33 := rfl

def publicKey : PublicKey := ⟨true, 2 :: List.replicate 32 0x11, length_publicKey⟩

def quote : IssuedQuote where
  peer := "client"
  direction := .submarine
  amountSat := 100000
  feeSat := 500
  serviceFeeSat := 300
  onchainFeeSat := 200
  expiresAtUnix := 1700000600
  claimableHint := false

def book : QuoteBook where
  quotes := (∅ : AList fun _ : Uuid => IssuedQuote).insert 2 quote
  order := [2]

def params : StartParams where
  network := .regtest
  onchainFeeRateSatVb := 2
  maxRoutingFeeMsat := 10000
  invoiceExpirySecs := 3600
  requiredConfirmations := 1
  timelock := {}

/-- The node decodes the invoice: it has no amount. -/
def answers : StartAnswers where
  nowUnix := 1700000000
  swapId := 9
  keypair := (Bytes32.ofNat 1, publicKey)
  tipHeight := .ok 800000
  decodeInvoice _ := .ok ⟨Bytes32.ofNat 81, 0, 40, false, 1700003600⟩
  completeInvoiceIntent rec := .ok rec

def request (key : String) : SwapRequest where
  quoteId := 2
  clientPkarr := "client"
  direction := .submarine
  paymentHashHex := ""
  clientRefundPubkeyHex := some key
  invoice := some "lnbcrt1"

def keyHex : String := Hex.encode publicKey.serialized

theorem offered : book.Offers 2 "client" .submarine 1700000000 quote where
  held := by decide
  stands := by decide
  owner := by decide
  direction_eq := rfl

/-- **The quote is gone** when the invoice turns out to have no amount. -/
theorem burnt_by_amountless_invoice :
    book.Offers 2 "client" .submarine answers.nowUnix quote ∧
      (startSwap params answers "client" (request keyHex) book).1 =
        .error (.request .invoiceAmountless) ∧
      (startSwap params answers "client" (request keyHex) book).2.quotes.lookup 2 = none ∧
      (startSwap params answers "client" (request keyHex)
        (startSwap params answers "client" (request keyHex) book).2).1 =
        .error (.refused ⟨.quoteExpired, "unknown or expired quote"⟩) := by
  refine ⟨offered, ?_, ?_, ?_⟩
  · rfl
  · rfl
  · rfl

/-- The general statement at a request whose key is no key: its quote is kept. -/
theorem kept_after_bad_key :
    KeepsQuote "client" (request "zz") quote answers.nowUnix book
      (startSwap params answers "client" (request "zz") book).2 := by
  have hrefused : (startSwap params answers "client" (request "zz") book).1 =
      .error (.request (.keyInvalid "decode pubkey hex: Invalid character 'z' at position 0")) := by
    decide
  refine (refused_keeps_quote_iff offered hrefused).mpr ?_
  rintro ⟨-, text, key, htext, hkey⟩
  cases htext
  cases hkey

end BurntQuote

end PubkySwap
