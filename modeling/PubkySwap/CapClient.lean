import PubkySwap.PaykitCap

/-!
# The client of signed quotes and contracts

`CapClient` translates the engine's requests into `paykit-cap.*` messages and the
replies back, after their signatures and hashes check out.  It remembers three
things: the signed quotes it verified, the commits it sent, and for each swap the
quote that a contract bound it to.  Nothing else connects a reply to what was
agreed, and every reply comes from the other side, so the result is about whole
histories: whatever was asked and answered before, an acceptance is one that an
allowed key signed over this very commit.

Ed25519 and the cipher of the invoice blob come from crates and stand in the class
`CapCrypto`.
-/

namespace PubkySwap

open BitcoinScript (Bytes)

/-- What the signature and cipher crates provide. -/
class CapCrypto where
  /-- `VerifyingKey::from_bytes` and `verify_strict`, whose failures are one
  error. -/
  verifyStrict : Bytes32 → Bytes32 → Bytes64 → Bool
  /-- `ChaCha20Poly1305::decrypt` under a key, with the nonce of all zeros. -/
  decrypt : Bytes32 → Bytes → Option Bytes

/-! ## Messages -/

/-- A lifecycle state, the reply to a status request, or `pending` for a commit
still admitting. -/
structure Status where
  requestId : Option Uuid := none
  swapId : Option Uuid := none
  quoteId : Option Uuid := none
  state : String
  reference : Option String := none
  /-- With a stored contract, the snapshot's invoice is left out: the blob carries
  it. -/
  snapshot : Option SwapStatusSnapshot := none
  contract : Option ContractReply := none
  deriving DecidableEq, Repr

structure Refusal where
  code : String
  reason : String
  requestId : Option Uuid := none
  quoteId : Option Uuid := none
  swapId : Option Uuid := none
  deriving DecidableEq, Repr

/-- `impl From<Refusal> for Reject`. -/
def Refusal.toReject (refusal : Refusal) : Reject where
  code := some refusal.code
  requestId := refusal.requestId
  swapId := refusal.swapId
  quoteId := refusal.quoteId
  reason := refusal.reason

/-- One `paykit-cap.*` message. -/
inductive CapMessage where
  | rfq (rfq : Rfq)
  | quote (signed : SignedQuote)
  | commit (commit : Commit)
  | contract (reply : ContractReply)
  | status (status : Status)
  | statusRequest (request : SwapStatusRequest)
  | refusal (refusal : Refusal)
  deriving DecidableEq, Repr

/-- `STATE_PENDING`. -/
def statePending : String := "pending"

/-- `constraints`. -/
def QuoteRequest.constraints (request : QuoteRequest) : RfqConstraints where
  offerId := request.offerId
  direction := request.direction
  amountSat := request.amountSat

/-- `rfq`. -/
def QuoteRequest.rfq (request : QuoteRequest) : Rfq where
  requestId := request.requestId
  constraints := request.constraints
  protocolVersion := request.protocolVersion
  features := request.features

/-- `to_quote`: the engine's quote, with its correlation id restored. -/
def SignedQuote.toQuote (signed : SignedQuote) : Quote :=
  { signed.quote with requestId := signed.requestId }

/-! ## Verification -/

section

variable [Crypto] [CapCrypto]

/-- `verify`: an Ed25519 signature over a 32-byte hash. -/
def verifySignature (signerHex : String) (hash : Bytes32) (signatureHex : String) :
    Except CapError Unit := do
  let key ← okOr (hexBytes 32 signerHex) .badSignature
  let signature ← okOr (hexBytes 64 signatureHex) .badSignature
  if CapCrypto.verifyStrict key hash signature then pure () else .error .badSignature

/-- `SignedQuote::verify`. -/
def SignedQuote.verify (signed : SignedQuote) (parties : Parties) (rfq : RfqConstraints) :
    Except CapError Unit := do
  let hash ← PubkySwap.termsHash parties rfq signed.quote
  if Hex.encode hash ≠ signed.termsHash then .error (.hashMismatch "terms_hash")
  else verifySignature signed.signer hash signed.signature

/-- `SignedContract::verify`. -/
def SignedContract.verify (signed : SignedContract) : Except CapError Unit := do
  let hash ← PubkySwap.contractHash signed.commitHash signed.contract
  if Hex.encode hash ≠ signed.contractHash then .error (.hashMismatch "contract_hash")
  else verifySignature signed.signer hash signed.signature

/-- `InvoiceBlob::hash`. -/
def InvoiceBlob.hash (blob : InvoiceBlob) : Except CapError String := do
  let bytes ← okOr (Hex.decode blob.ciphertext) .blob
  pure (Hex.encode (Crypto.sha256 bytes))

/-- `InvoiceBlob::open`. -/
def InvoiceBlob.open (blob : InvoiceBlob) : Except CapError String := do
  let key ← okOr (hexBytes 32 blob.key) .blob
  let ciphertext ← okOr (Hex.decode blob.ciphertext) .blob
  let plain ← okOr (CapCrypto.decrypt key ciphertext) .blob
  okOr (fromUtf8 plain) .blob

/-- `ContractReply::open`: check the signature and the blob, and rebuild the
engine's acceptance. -/
def ContractReply.open (reply : ContractReply) : Except CapError SwapAccept := do
  reply.signed.verify
  let accept := reply.signed.contract.accept
  match reply.signed.contract.invoiceBlobHash, reply.invoiceBlob with
  | none, none => pure accept
  | some hash, some blob => do
      let found ← blob.hash
      if found = hash then do
        let invoice ← blob.open
        pure { accept with invoice := some invoice }
      else .error (.hashMismatch "invoice_blob_hash")
  | _, _ => .error (.hashMismatch "invoice_blob_hash")

end

/-! ## The client -/

/-- `CapClient`. -/
structure CapClient where
  /-- The provider's key.  Replies signed by any other key, or by one in
  `delegatedSigners`, are refused. -/
  expectedSigner : Option String
  delegatedSigners : List String
  /-- This client and the provider it talks to, which every quote it accepts
  names. -/
  parties : Parties
  /-- Each signed quote and the RFQ it answered, by quote id. -/
  quotes : AList fun _ : Uuid => QuoteProof
  /-- Each commit sent and its commit hash, by quote id. -/
  commits : AList fun _ : Uuid => String × Commit
  /-- The quote id of each swap a contract was opened for. -/
  swaps : AList fun _ : Uuid => Uuid

/-- `CapClient::new`. -/
def CapClient.new (expectedSigner : Option Bytes32) (parties : Parties) : CapClient where
  expectedSigner := expectedSigner.map fun key => Hex.encode key
  delegatedSigners := []
  parties := parties
  quotes := ∅
  commits := ∅
  swaps := ∅

namespace CapClient

/-- `allow_signer`. -/
def allowSigner (client : CapClient) (signerHex : String) : CapClient :=
  if signerHex ∈ client.delegatedSigners then client
  else { client with delegatedSigners := client.delegatedSigners ++ [signerHex] }

/-- `allows`: whether a reply signed by this key would be accepted. -/
def allows (client : CapClient) (signer : String) : Bool :=
  match client.expectedSigner with
  | some expected => expected == signer || client.delegatedSigners.any fun key => key == signer
  | none => true

/-- `check_signer`. -/
def checkSigner (client : CapClient) (signer : String) : Except CapError Unit :=
  if client.allows signer then pure () else .error .unexpectedSigner

section

variable [Crypto] [CapCrypto]

omit [CapCrypto] in
/-- `request`: the kind to send, if the request is not sent as it is. -/
def request (client : CapClient) : SwapMessage → Option CapMessage × CapClient
  | .quoteRequest request => (some (.rfq request.rfq), client)
  | .swapRequest request =>
      match client.quotes.lookup request.quoteId with
      | none => (none, client)
      | some proof =>
          let commit : Commit :=
            { termsHash := proof.signed.termsHash, commit := .fromRequest request,
              quote := some proof }
          match commitHash commit.termsHash commit.commit with
          | .error _ => (none, client)
          | .ok hash =>
              (some (.commit commit),
                { client with
                  commits := client.commits.insert request.quoteId (Hex.encode hash, commit) })
  | .swapStatusRequest request => (some (.statusRequest request), client)
  | _ => (none, client)

/-- A quote in answer to a quote request. -/
def replyQuote (client : CapClient) (request : QuoteRequest) (signed : SignedQuote) :
    Except CapError (SwapMessage × CapClient) := do
  client.checkSigner signed.signer
  signed.verify client.parties request.constraints
  pure (.quote signed.toQuote,
    { client with quotes := client.quotes.insert signed.quote.quoteId ⟨request.rfq, signed⟩ })

/-- A contract in answer to a swap request. -/
def replyContract (client : CapClient) (request : SwapRequest) (contract : ContractReply) :
    Except CapError (SwapMessage × CapClient) := do
  client.checkSigner contract.signed.signer
  let proof ← okOr (client.quotes.lookup request.quoteId)
    (.unexpected "contract for an unsigned quote")
  let expected ← commitHash proof.signed.termsHash (.fromRequest request)
  if Hex.encode expected ≠ contract.signed.commitHash then .error (.hashMismatch "commit_hash")
  else do
    let accept ← contract.open
    if accept.quoteId ≠ request.quoteId then .error (.unexpected "contract for another quote")
    else
      pure (.swapAccept accept,
        { client with swaps := client.swaps.insert accept.swapId accept.quoteId })

/-- The quote a status request is about: the one it names, or the one a contract
bound the swap to. -/
def asked (client : CapClient) (request : SwapStatusRequest) : Option Uuid :=
  request.quoteId.or (request.swapId.bind client.swaps.lookup)

/-- A contract that came with a snapshot. -/
def openRecovered (client : CapClient) (snapshot : SwapStatusSnapshot) (contract : ContractReply) :
    Except CapError (SwapMessage × CapClient) := do
  client.checkSigner contract.signed.signer
  let accept ← contract.open
  if { snapshot.accept with invoice := none } ≠ contract.signed.contract.accept then
    .error (.hashMismatch "contract")
  else
    pure (.swapStatusSnapshot { snapshot with accept := accept },
      { client with swaps := client.swaps.insert accept.swapId snapshot.accept.quoteId })

/-- A status in answer to a status request. -/
def replyStatus (client : CapClient) (request : SwapStatusRequest) (status : Status) :
    Except CapError (SwapMessage × CapClient) := do
  let snapshot ← okOr status.snapshot (.unexpected "status without a swap")
  if request.swapId.any (· ≠ snapshot.accept.swapId) then
    .error (.unexpected "status for another swap")
  else if (client.asked request).any (· ≠ snapshot.accept.quoteId) then
    .error (.unexpected "status for another quote")
  else
    match status.contract, client.commits.lookup snapshot.accept.quoteId with
    | none, some (_, commit) => .error (.missingContract commit)
    | none, none => pure (.swapStatusSnapshot snapshot, client)
    | some contract, some (hash, _) =>
        if contract.signed.commitHash ≠ hash then .error (.hashMismatch "commit_hash")
        else client.openRecovered snapshot contract
    | some contract, none => client.openRecovered snapshot contract

/-- `reply`: check a reply against the request and translate it for the engine. -/
def reply (client : CapClient) : SwapMessage → CapMessage →
    Except CapError (SwapMessage × CapClient)
  | _, .refusal refusal => pure (.reject refusal.toReject, client)
  | .quoteRequest request, .quote signed => client.replyQuote request signed
  | .swapRequest request, .contract contract => client.replyContract request contract
  | .swapRequest request, .status status =>
      if status.state = statePending ∧ status.snapshot.isNone then
        pure (.reject
          { code := some "pending", swapId := status.swapId, quoteId := some request.quoteId,
            reason := "the swap is still being admitted" }, client)
      else .error (.unexpected "kind")
  | .swapStatusRequest request, .status status => client.replyStatus request status
  | _, _ => .error (.unexpected "kind")

/-! ## Histories -/

/-- A call into the client.  What a reply says is the other side's choice. -/
inductive Call where
  | request (message : SwapMessage)
  | reply (request : SwapMessage) (message : CapMessage)
  | allowSigner (signerHex : String)

/-- The client after a call; a reply that is refused leaves it as it was. -/
def step (client : CapClient) : Call → CapClient
  | .request message => (client.request message).2
  | .reply request message =>
      match client.reply request message with
      | .ok (_, client') => client'
      | .error _ => client
  | .allowSigner signerHex => client.allowSigner signerHex

/-- The client after a history of calls. -/
def run (client : CapClient) (calls : List Call) : CapClient := calls.foldl step client

theorem run_append (client : CapClient) (before after : List Call) :
    client.run (before ++ after) = (client.run before).run after :=
  List.foldl_append

end

end CapClient

end PubkySwap
