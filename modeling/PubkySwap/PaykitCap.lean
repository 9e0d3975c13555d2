import PubkySwap.Bitcoin
import PubkySwap.Lib.CanonicalJson
import PubkySwap.Messages

/-!
# Paykit Capabilities `swap/1`

The messages that carry signatures, and the three hashes that are signed.  Each
hash is SHA-256 over a domain and the canonical text of a two-member object, and
each covers the one before it:

* `termsHash` over who the quote is between, what was asked and the quote;
* `commitHash` over the terms hash and the commit body;
* `contractHash` over the commit hash and the contract body.

A signature over one of them stands for everything under it only if no two
different contents have the same hash.  SHA-256 is a parameter here, so the
statement is about the texts: equal texts come from equal contents.  The texts
are canonical JSON, for which that is `CanonicalJson.write_injective`; what is
left is that the JSON forms of the messages, with their members left out and their nulls,
say every field of what they come from.
-/

namespace PubkySwap

open BitcoinScript (Bytes)
open CanonicalJson (Value Faithful record optional)

/-! ## Messages -/

/-- The part of an RFQ that the terms hash covers. -/
@[ext] structure RfqConstraints where
  /-- Nil asks for whatever offer is current. -/
  offerId : Uuid
  direction : SwapDirection
  amountSat : ℕ
  deriving DecidableEq, Repr

/-- A request for a quote. -/
structure Rfq where
  requestId : Option Uuid := none
  constraints : RfqConstraints
  protocolVersion : ℕ := 0
  features : List String := []
  deriving DecidableEq, Repr

/-- Who a quote is between. -/
@[ext] structure Parties where
  owner : String
  provider : String
  deriving DecidableEq, Repr

/-- A quote and the provider's signature over its terms hash. -/
structure SignedQuote where
  requestId : Option Uuid := none
  /-- Without a request id, which is correlation and not terms. -/
  quote : Quote
  termsHash : String
  signer : String
  signature : String
  deriving DecidableEq, Repr

/-- A signed quote and the RFQ it answered, as a commit carries them. -/
structure QuoteProof where
  rfq : Rfq
  signed : SignedQuote
  deriving DecidableEq, Repr

/-- What the commit hash covers: a `SwapRequest` without its sender. -/
@[ext] structure CommitBody where
  scriptType : SwapScript := .p2wsh
  quoteId : Uuid
  direction : SwapDirection
  paymentHashHex : String
  clientClaimPubkeyHex : Option String := none
  clientRefundPubkeyHex : Option String := none
  invoice : Option String := none
  ownerRef : Option String := none
  deriving DecidableEq, Repr

/-- `from_request`. -/
def CommitBody.fromRequest (request : SwapRequest) : CommitBody where
  scriptType := request.scriptType
  quoteId := request.quoteId
  direction := request.direction
  paymentHashHex := request.paymentHashHex
  clientClaimPubkeyHex := request.clientClaimPubkeyHex
  clientRefundPubkeyHex := request.clientRefundPubkeyHex
  invoice := request.invoice
  ownerRef := request.ownerRef

/-- The owner's commitment to a quote. -/
structure Commit where
  termsHash : String
  commit : CommitBody
  /-- The signed quote and the RFQ it answered, for a provider that no longer
  holds the quote. -/
  quote : Option QuoteProof := none
  deriving DecidableEq, Repr

/-- What the contract hash covers: the acceptance without its invoice, and the
hash of the invoice blob. -/
@[ext] structure ContractBody where
  accept : SwapAccept
  invoiceBlobHash : Option String := none
  deriving DecidableEq, Repr

/-- The signed part of a contract, which a third party verifies on its own. -/
structure SignedContract where
  commitHash : String
  contract : ContractBody
  contractHash : String
  signer : String
  signature : String
  deriving DecidableEq, Repr

/-- The hold invoice, sealed under a per-swap key. -/
structure InvoiceBlob where
  key : String
  ciphertext : String
  deriving DecidableEq, Repr

/-- A contract as sent: the signed part and, for a reverse swap, the invoice
blob. -/
structure ContractReply where
  signed : SignedContract
  invoiceBlob : Option InvoiceBlob := none
  deriving DecidableEq, Repr

/-- `CapError`. -/
inductive CapError where
  | canonical (text : String)
  | hashMismatch (what : String)
  | badSignature
  | unexpectedSigner
  | blob
  | unexpected (what : String)
  | missingContract (commit : Commit)
  deriving DecidableEq, Repr

/-- A hexadecimal text of exactly so many bytes. -/
def hexBytes (length : ℕ) (text : String) : Option { bytes : Bytes // bytes.length = length } := do
  let bytes ← Hex.decode text
  if h : bytes.length = length then some ⟨bytes, h⟩ else none

/-! ## JSON forms

What serde writes: the members of a record under their wire names, those marked
to be skipped left out when they hold nothing. -/

/-- An identifier as JSON. -/
def uuidValue (id : Uuid) : Value := .string (uuidText id)

/-- An unsigned integer as JSON. -/
def natValue (n : ℕ) : Value := .number (.int n)

/-- A field that is `null` when it holds nothing. -/
def nullable : Option String → Value
  | none => .null
  | some s => .string s

def SwapDirection.toJson (direction : SwapDirection) : Value := .string direction.asStr

def SwapScript.toJson (script : SwapScript) : Value := .string script.asStr

def RfqConstraints.toJson (rfq : RfqConstraints) : Value :=
  record [("offer_id", some (uuidValue rfq.offerId)), ("direction", some rfq.direction.toJson),
    ("amount_sat", some (natValue rfq.amountSat))]

def Quote.toJson (quote : Quote) : Value :=
  record [("request_id", quote.requestId.map uuidValue),
    ("quote_id", some (uuidValue quote.quoteId)), ("offer_id", some (uuidValue quote.offerId)),
    ("direction", some quote.direction.toJson), ("amount_sat", some (natValue quote.amountSat)),
    ("fee_sat", some (natValue quote.feeSat)),
    ("service_fee_sat", some (natValue quote.serviceFeeSat)),
    ("onchain_fee_sat", some (natValue quote.onchainFeeSat)),
    ("fee_rate_sat_vb", some (natValue quote.feeRateSatVb)),
    ("total_sat", some (natValue quote.totalSat)),
    ("htlc_timeout_blocks", some (natValue quote.htlcTimeoutBlocks)),
    ("required_confirmations", some (natValue quote.requiredConfirmations)),
    ("valid_until_unix", some (natValue quote.validUntilUnix)),
    ("fund_within_secs", some (natValue quote.fundWithinSecs)),
    ("protocol_version", some (natValue quote.protocolVersion))]

def CommitBody.toJson (commit : CommitBody) : Value :=
  record [("script_type", some commit.scriptType.toJson),
    ("quote_id", some (uuidValue commit.quoteId)), ("direction", some commit.direction.toJson),
    ("payment_hash_hex", some (.string commit.paymentHashHex)),
    ("client_claim_pubkey_hex", commit.clientClaimPubkeyHex.map .string),
    ("client_refund_pubkey_hex", commit.clientRefundPubkeyHex.map .string),
    ("invoice", commit.invoice.map .string), ("owner_ref", commit.ownerRef.map .string)]

def BoltzTapLeaf.toJson (leaf : BoltzTapLeaf) : Value :=
  record [("version", some (natValue leaf.version)), ("output", some (.string leaf.output))]

def BoltzSwapTree.toJson (tree : BoltzSwapTree) : Value :=
  record [("claimLeaf", some tree.claimLeaf.toJson), ("refundLeaf", some tree.refundLeaf.toJson)]

def SwapAccept.toJson (accept : SwapAccept) : Value :=
  record [("script_type", some accept.scriptType.toJson),
    ("swap_tree", accept.swapTree.map BoltzSwapTree.toJson),
    ("quote_id", some (uuidValue accept.quoteId)), ("swap_id", some (uuidValue accept.swapId)),
    ("direction", some accept.direction.toJson),
    ("htlc_script_hex", some (.string accept.htlcScriptHex)),
    ("htlc_address", some (.string accept.htlcAddress)),
    ("onchain_amount_sat", some (natValue accept.onchainAmountSat)),
    ("timeout_block_height", some (natValue accept.timeoutBlockHeight)),
    ("provider_pubkey_hex", some (.string accept.providerPubkeyHex)),
    ("invoice", some (nullable accept.invoice))]

def ContractBody.toJson (contract : ContractBody) : Value :=
  record [("accept", some contract.accept.toJson),
    ("invoice_blob_hash", contract.invoiceBlobHash.map .string)]

/-! ### Every field is said -/

theorem faithful_uuidValue : Faithful uuidValue :=
  CanonicalJson.faithful_string.comp uuidText_injective

theorem faithful_natValue : Faithful natValue := CanonicalJson.faithful_nat

theorem faithful_nullable : Faithful nullable := by
  intro a b h
  cases a with
  | none =>
      cases b with
      | none => rfl
      | some s => cases h
  | some s =>
      cases b with
      | none => cases h
      | some t => rw [CanonicalJson.faithful_string _ _ h]

theorem asStr_injective : Function.Injective SwapDirection.asStr := by
  intro a b h
  revert h
  cases a <;> cases b <;> decide

theorem scriptAsStr_injective : Function.Injective SwapScript.asStr := by
  intro a b h
  revert h
  cases a <;> cases b <;> decide

theorem faithful_direction : Faithful SwapDirection.toJson :=
  CanonicalJson.faithful_string.comp asStr_injective

theorem faithful_script : Faithful SwapScript.toJson :=
  CanonicalJson.faithful_string.comp scriptAsStr_injective

theorem RfqConstraints.faithful : Faithful RfqConstraints.toJson := by
  intro a b h
  rw [RfqConstraints.toJson, RfqConstraints.toJson] at h
  have hfields := CanonicalJson.Same.record h (by simp) (by simp)
  simp only [List.map_cons, List.map_nil, Option.map_some, List.cons.injEq, Option.some.injEq]
    at hfields
  obtain ⟨hoffer, hdirection, hamount, -⟩ := hfields
  exact RfqConstraints.ext (faithful_uuidValue.present hoffer)
    (faithful_direction.present hdirection) (faithful_natValue.present hamount)

theorem Quote.faithful : Faithful Quote.toJson := by
  intro a b h
  rw [Quote.toJson, Quote.toJson] at h
  have hfields := CanonicalJson.Same.record h (by simp) (by simp)
  simp only [List.map_cons, List.map_nil, Option.map_some, List.cons.injEq, Option.some.injEq]
    at hfields
  obtain ⟨hrequest, hquote, hoffer, hdirection, hamount, hfee, hservice, honchain, hrate, htotal,
    htimeout, hconfirmations, huntil, hwithin, hversion, -⟩ := hfields
  apply Quote.ext
  · exact faithful_uuidValue.skipped hrequest
  · exact faithful_uuidValue.present hquote
  · exact faithful_uuidValue.present hoffer
  · exact faithful_direction.present hdirection
  all_goals apply faithful_natValue.present
  all_goals assumption

theorem CommitBody.faithful : Faithful CommitBody.toJson := by
  intro a b h
  rw [CommitBody.toJson, CommitBody.toJson] at h
  have hfields := CanonicalJson.Same.record h (by simp) (by simp)
  simp only [List.map_cons, List.map_nil, Option.map_some, List.cons.injEq, Option.some.injEq]
    at hfields
  obtain ⟨hscript, hquote, hdirection, hpayment, hclaim, hrefund, hinvoice, howner, -⟩ := hfields
  apply CommitBody.ext
  · exact faithful_script.present hscript
  · exact faithful_uuidValue.present hquote
  · exact faithful_direction.present hdirection
  · exact CanonicalJson.faithful_string.present hpayment
  all_goals apply CanonicalJson.faithful_string.skipped
  all_goals assumption

theorem BoltzTapLeaf.faithful : Faithful BoltzTapLeaf.toJson := by
  intro a b h
  rw [BoltzTapLeaf.toJson, BoltzTapLeaf.toJson] at h
  have hfields := CanonicalJson.Same.record h (by simp) (by simp)
  simp only [List.map_cons, List.map_nil, Option.map_some, List.cons.injEq, Option.some.injEq]
    at hfields
  obtain ⟨hversion, houtput, -⟩ := hfields
  exact BoltzTapLeaf.ext (faithful_natValue.present hversion)
    (CanonicalJson.faithful_string.present houtput)

theorem BoltzSwapTree.faithful : Faithful BoltzSwapTree.toJson := by
  intro a b h
  rw [BoltzSwapTree.toJson, BoltzSwapTree.toJson] at h
  have hfields := CanonicalJson.Same.record h (by simp) (by simp)
  simp only [List.map_cons, List.map_nil, Option.map_some, List.cons.injEq, Option.some.injEq]
    at hfields
  obtain ⟨hclaim, hrefund, -⟩ := hfields
  exact BoltzSwapTree.ext (BoltzTapLeaf.faithful.present hclaim)
    (BoltzTapLeaf.faithful.present hrefund)

theorem SwapAccept.faithful : Faithful SwapAccept.toJson := by
  intro a b h
  rw [SwapAccept.toJson, SwapAccept.toJson] at h
  have hfields := CanonicalJson.Same.record h (by simp) (by simp)
  simp only [List.map_cons, List.map_nil, Option.map_some, List.cons.injEq, Option.some.injEq]
    at hfields
  obtain ⟨hscript, htree, hquote, hswap, hdirection, hhtlc, haddress, hamount, htimeout, hprovider,
    hinvoice, -⟩ := hfields
  apply SwapAccept.ext
  · exact faithful_script.present hscript
  · exact BoltzSwapTree.faithful.skipped htree
  · exact faithful_uuidValue.present hquote
  · exact faithful_uuidValue.present hswap
  · exact faithful_direction.present hdirection
  · exact CanonicalJson.faithful_string.present hhtlc
  · exact CanonicalJson.faithful_string.present haddress
  · exact faithful_natValue.present hamount
  · exact faithful_natValue.present htimeout
  · exact CanonicalJson.faithful_string.present hprovider
  · exact faithful_nullable.present hinvoice

theorem ContractBody.faithful : Faithful ContractBody.toJson := by
  intro a b h
  rw [ContractBody.toJson, ContractBody.toJson] at h
  have hfields := CanonicalJson.Same.record h (by simp) (by simp)
  simp only [List.map_cons, List.map_nil, Option.map_some, List.cons.injEq, Option.some.injEq]
    at hfields
  obtain ⟨haccept, hblob, -⟩ := hfields
  exact ContractBody.ext (SwapAccept.faithful.present haccept)
    (CanonicalJson.faithful_string.skipped hblob)

/-! ## Canonical bytes -/

/-- A text in UTF-8. -/
def utf8 (text : List Char) : Bytes := text.flatMap String.utf8EncodeChar

theorem utf8_injective : Function.Injective utf8 := by
  intro a b h
  have hencode : a.utf8Encode = b.utf8Encode := congrArg List.toByteArray h
  have hdecode := congrArg ByteArray.utf8Decode? hencode
  rw [List.utf8Decode?_utf8Encode, List.utf8Decode?_utf8Encode] at hdecode
  simpa using hdecode

/-- `String::from_utf8`. -/
def fromUtf8 (bytes : Bytes) : Option String :=
  bytes.toByteArray.utf8Decode?.map fun chars => String.ofList chars.toList

/-- A number as it is displayed. -/
def displayNumber : CanonicalJson.Number → String
  | .int n => String.ofList (CanonicalJson.intText n)
  | .float text => text

/-- `jcs`: RFC 8785 for the values these messages hold, with a float or an integer
past 2^53 refused. -/
def jcs (value : Value) : Except CapError Bytes :=
  match CanonicalJson.write value with
  | .ok text => .ok (utf8 text)
  | .error number => .error (.canonical ("number " ++ displayNumber number))

theorem jcs_eq_ok {value : Value} {bytes : Bytes} :
    jcs value = .ok bytes ↔ ∃ text, CanonicalJson.write value = .ok text ∧ utf8 text = bytes := by
  rw [jcs]
  cases CanonicalJson.write value with
  | ok text => simp
  | error number => simp

/-- Values with the same bytes have the same members. -/
theorem jcs_injective {v w : Value} {bytes : Bytes} (hv : jcs v = .ok bytes)
    (hw : jcs w = .ok bytes) : CanonicalJson.Same v w := by
  obtain ⟨text, htext, rfl⟩ := jcs_eq_ok.mp hv
  obtain ⟨text', htext', hbytes⟩ := jcs_eq_ok.mp hw
  rw [utf8_injective hbytes] at htext'
  exact CanonicalJson.write_injective htext htext'

theorem jcs_eq_iff_reorder {v w : Value} {bytes : Bytes} (hv : CanonicalJson.DistinctKeys v)
    (hw : CanonicalJson.DistinctKeys w) (hbytes : jcs v = .ok bytes) :
    jcs w = .ok bytes ↔ CanonicalJson.Reorder v w := by
  obtain ⟨text, htext, rfl⟩ := jcs_eq_ok.mp hbytes
  rw [← CanonicalJson.write_eq_iff_reorder hv hw htext, jcs_eq_ok]
  constructor
  · rintro ⟨text', htext', hsame⟩
    rw [htext', utf8_injective hsame]
  · intro h
    exact ⟨text, h, rfl⟩

/-! ## The three hashes -/

/-- `TERMS_DOMAIN`. -/
def termsDomain : Bytes := utf8 "paykit-cap/swap/1/terms_hash".toList ++ [0]

/-- `COMMIT_DOMAIN`. -/
def commitDomain : Bytes := utf8 "paykit-cap/swap/1/commit_hash".toList ++ [0]

/-- `CONTRACT_DOMAIN`. -/
def contractDomain : Bytes := utf8 "paykit-cap/swap/1/contract_hash".toList ++ [0]

/-- What `domain_hash` hashes. -/
def domainPreimage (domain : Bytes) (value : Value) : Except CapError Bytes := do
  let canonical ← jcs value
  pure (domain ++ canonical)

/-- The quote as the terms hash covers it: without its correlation id. -/
def quoteTerms (quote : Quote) : Quote := { quote with requestId := none }

def termsPreimage (parties : Parties) (rfq : RfqConstraints) (quote : Quote) :
    Except CapError Bytes :=
  domainPreimage termsDomain (record [("owner", some (.string parties.owner)),
    ("provider", some (.string parties.provider)), ("rfq", some rfq.toJson),
    ("quote", some (quoteTerms quote).toJson)])

def commitPreimage (termsHashHex : String) (commit : CommitBody) : Except CapError Bytes :=
  domainPreimage commitDomain (record [("terms_hash", some (.string termsHashHex)),
    ("commit", some commit.toJson)])

def contractPreimage (commitHashHex : String) (contract : ContractBody) : Except CapError Bytes :=
  domainPreimage contractDomain (record [("commit_hash", some (.string commitHashHex)),
    ("contract", some contract.toJson)])

theorem domainPreimage_eq_ok {domain : Bytes} {value : Value} {bytes : Bytes} :
    domainPreimage domain value = .ok bytes ↔
      ∃ canonical, jcs value = .ok canonical ∧ bytes = domain ++ canonical := by
  rw [domainPreimage]
  cases jcs value with
  | ok canonical =>
      constructor
      · rintro ⟨⟩
        exact ⟨canonical, rfl, rfl⟩
      · rintro ⟨_, ⟨⟩, rfl⟩
        rfl
  | error e =>
      constructor
      · rintro ⟨⟩
      · rintro ⟨_, ⟨⟩, -⟩

theorem same_of_domainPreimage {domain : Bytes} {v w : Value} {bytes : Bytes}
    (hv : domainPreimage domain v = .ok bytes) (hw : domainPreimage domain w = .ok bytes) :
    CanonicalJson.Same v w := by
  obtain ⟨canonical, hcanonical, rfl⟩ := domainPreimage_eq_ok.mp hv
  obtain ⟨canonical', hcanonical', hbytes⟩ := domainPreimage_eq_ok.mp hw
  rw [← List.append_cancel_left hbytes] at hcanonical'
  exact jcs_injective hcanonical hcanonical'

/-- A value whose numbers are safe is written, after any domain. -/
theorem exists_domainPreimage (domain : Bytes) {value : Value}
    (h : CanonicalJson.Accepted value) :
    ∃ canonical, domainPreimage domain value = .ok (domain ++ canonical) := by
  obtain ⟨text, htext⟩ := CanonicalJson.exists_write_iff.mpr h
  exact ⟨_, domainPreimage_eq_ok.mpr ⟨_, jcs_eq_ok.mpr ⟨text, htext, rfl⟩, rfl⟩⟩

/-- What is hashed of a value, when only the domain decides the hash. -/
theorem map_domainPreimage {domain : Bytes} {value : Value} {hash : Bytes → Bytes32}
    {result : Bytes32} (h : CanonicalJson.Accepted value)
    (hresult : ∀ canonical, hash (domain ++ canonical) = result) :
    (domainPreimage domain value).map hash = .ok result := by
  obtain ⟨canonical, hpreimage⟩ := exists_domainPreimage domain h
  rw [hpreimage, ← hresult canonical]
  rfl

/-- Of two domains of which neither starts the other, one does not start what begins with
the other. -/
theorem not_prefix_append {domain domain' : Bytes}
    (hapart : ¬domain <+: domain' ∧ ¬domain' <+: domain) (rest : Bytes) :
    ¬domain <+: domain' ++ rest := by
  intro hstart
  rcases List.prefix_or_prefix_of_prefix hstart (List.prefix_append domain' rest) with h | h
  · exact hapart.1 h
  · exact hapart.2 h

/-- Domains of which neither starts the other keep their preimages apart. -/
theorem domainPreimage_ne {domain domain' : Bytes} {v w : Value} {bytes bytes' : Bytes}
    (hapart : ¬domain <+: domain' ∧ ¬domain' <+: domain)
    (hv : domainPreimage domain v = .ok bytes) (hw : domainPreimage domain' w = .ok bytes') :
    bytes ≠ bytes' := by
  obtain ⟨canonical, -, rfl⟩ := domainPreimage_eq_ok.mp hv
  obtain ⟨canonical', -, rfl⟩ := domainPreimage_eq_ok.mp hw
  intro heq
  exact not_prefix_append hapart canonical' (heq ▸ List.prefix_append _ _)

theorem terms_commit_apart : ¬termsDomain <+: commitDomain ∧ ¬commitDomain <+: termsDomain := by
  decide +kernel

theorem terms_contract_apart :
    ¬termsDomain <+: contractDomain ∧ ¬contractDomain <+: termsDomain := by
  decide +kernel

theorem commit_contract_apart :
    ¬commitDomain <+: contractDomain ∧ ¬contractDomain <+: commitDomain := by
  decide +kernel

section

variable {bytes : Bytes}

theorem termsPreimage_injective {parties parties' : Parties} {rfq rfq' : RfqConstraints}
    {quote quote' : Quote} (h : termsPreimage parties rfq quote = .ok bytes)
    (h' : termsPreimage parties' rfq' quote' = .ok bytes) :
    parties = parties' ∧ rfq = rfq' ∧ quoteTerms quote = quoteTerms quote' := by
  have hfields := (same_of_domainPreimage h h').record (by simp) (by simp)
  simp only [List.map_cons, List.map_nil, Option.map_some, List.cons.injEq, Option.some.injEq]
    at hfields
  obtain ⟨howner, hprovider, hrfq, hquote, -⟩ := hfields
  refine ⟨Parties.ext ?_ ?_, RfqConstraints.faithful.present hrfq, Quote.faithful.present hquote⟩
  · exact CanonicalJson.faithful_string.present howner
  · exact CanonicalJson.faithful_string.present hprovider

theorem commitPreimage_injective {termsHashHex termsHashHex' : String} {commit commit' : CommitBody}
    (h : commitPreimage termsHashHex commit = .ok bytes)
    (h' : commitPreimage termsHashHex' commit' = .ok bytes) :
    termsHashHex = termsHashHex' ∧ commit = commit' := by
  have hfields := (same_of_domainPreimage h h').record (by simp) (by simp)
  simp only [List.map_cons, List.map_nil, Option.map_some, List.cons.injEq, Option.some.injEq]
    at hfields
  obtain ⟨hterms, hcommit, -⟩ := hfields
  exact ⟨CanonicalJson.faithful_string.present hterms, CommitBody.faithful.present hcommit⟩

theorem contractPreimage_injective {commitHashHex commitHashHex' : String}
    {contract contract' : ContractBody} (h : contractPreimage commitHashHex contract = .ok bytes)
    (h' : contractPreimage commitHashHex' contract' = .ok bytes) :
    commitHashHex = commitHashHex' ∧ contract = contract' := by
  have hfields := (same_of_domainPreimage h h').record (by simp) (by simp)
  simp only [List.map_cons, List.map_nil, Option.map_some, List.cons.injEq, Option.some.injEq]
    at hfields
  obtain ⟨hcommit, hcontract, -⟩ := hfields
  exact ⟨CanonicalJson.faithful_string.present hcommit, ContractBody.faithful.present hcontract⟩

end

section

variable [Crypto]

/-- `terms_hash`. -/
def termsHash (parties : Parties) (rfq : RfqConstraints) (quote : Quote) :
    Except CapError Bytes32 :=
  (termsPreimage parties rfq quote).map Crypto.sha256

/-- `commit_hash`. -/
def commitHash (termsHashHex : String) (commit : CommitBody) : Except CapError Bytes32 :=
  (commitPreimage termsHashHex commit).map Crypto.sha256

/-- `contract_hash`. -/
def contractHash (commitHashHex : String) (contract : ContractBody) : Except CapError Bytes32 :=
  (contractPreimage commitHashHex contract).map Crypto.sha256

/-- SHA-256 does not map these two preimages, if there are such, to one hash
unless they are one. -/
def CollisionFree (x y : Except CapError Bytes) : Prop :=
  ∀ a b, x = .ok a → y = .ok b → Crypto.sha256 a = Crypto.sha256 b → a = b

theorem preimage_eq {x y : Except CapError Bytes} {hash : Bytes32}
    (hx : x.map Crypto.sha256 = .ok hash) (hy : y.map Crypto.sha256 = .ok hash)
    (hfree : CollisionFree x y) : ∃ bytes, x = .ok bytes ∧ y = .ok bytes := by
  obtain ⟨a, ha, hash_a⟩ := CanonicalJson.map_eq_ok.mp hx
  obtain ⟨b, hb, hash_b⟩ := CanonicalJson.map_eq_ok.mp hy
  have hsame := hfree a b ha hb (hash_a.trans hash_b.symm)
  exact ⟨a, ha, hsame ▸ hb⟩

/-- **The hash chain is binding.**  Equal hashes of one kind come from equal
contents, as far as SHA-256 does not collide on their two preimages; no preimage
of one domain is one of another; and the canonical bytes of a JSON value are those
of another exactly if the two differ in the order of their members only. -/
theorem hash_chain_binding :
    (∀ commitHashHex commitHashHex' contract contract' hash,
      contractHash commitHashHex contract = .ok hash →
      contractHash commitHashHex' contract' = .ok hash →
      CollisionFree (contractPreimage commitHashHex contract)
        (contractPreimage commitHashHex' contract') →
      commitHashHex = commitHashHex' ∧ contract = contract') ∧
    (∀ termsHashHex termsHashHex' commit commit' hash,
      commitHash termsHashHex commit = .ok hash → commitHash termsHashHex' commit' = .ok hash →
      CollisionFree (commitPreimage termsHashHex commit) (commitPreimage termsHashHex' commit') →
      termsHashHex = termsHashHex' ∧ commit = commit') ∧
    (∀ parties parties' rfq rfq' quote quote' hash,
      termsHash parties rfq quote = .ok hash → termsHash parties' rfq' quote' = .ok hash →
      CollisionFree (termsPreimage parties rfq quote) (termsPreimage parties' rfq' quote') →
      parties = parties' ∧ rfq = rfq' ∧ quoteTerms quote = quoteTerms quote') ∧
    (∀ hash hash' : Bytes32, Hex.encode hash = Hex.encode hash' → hash = hash') ∧
    (∀ parties rfq quote termsHashHex commit commitHashHex contract a b c,
      termsPreimage parties rfq quote = .ok a → commitPreimage termsHashHex commit = .ok b →
      contractPreimage commitHashHex contract = .ok c → a ≠ b ∧ a ≠ c ∧ b ≠ c) ∧
    (∀ v w bytes, CanonicalJson.DistinctKeys v → CanonicalJson.DistinctKeys w →
      jcs v = .ok bytes → (jcs w = .ok bytes ↔ CanonicalJson.Reorder v w)) := by
  refine ⟨?_, ?_, ?_, ?_, ?_, ?_⟩
  · intro commitHashHex commitHashHex' contract contract' hash h h' hfree
    obtain ⟨bytes, hbytes, hbytes'⟩ := preimage_eq h h' hfree
    exact contractPreimage_injective hbytes hbytes'
  · intro termsHashHex termsHashHex' commit commit' hash h h' hfree
    obtain ⟨bytes, hbytes, hbytes'⟩ := preimage_eq h h' hfree
    exact commitPreimage_injective hbytes hbytes'
  · intro parties parties' rfq rfq' quote quote' hash h h' hfree
    obtain ⟨bytes, hbytes, hbytes'⟩ := preimage_eq h h' hfree
    exact termsPreimage_injective hbytes hbytes'
  · intro hash hash' h
    exact Subtype.ext (Hex.encode_injective h)
  · intro parties rfq quote termsHashHex commit commitHashHex contract a b c ha hb hc
    refine ⟨?_, ?_, ?_⟩
    · exact domainPreimage_ne terms_commit_apart ha hb
    · exact domainPreimage_ne terms_contract_apart ha hc
    · exact domainPreimage_ne commit_contract_apart hb hc
  · intro v w bytes hv hw hbytes
    exact jcs_eq_iff_reorder hv hw hbytes

end

namespace ReorderedTerms

local instance tables : Crypto := tableCrypto []

def quote : Quote where
  requestId := some 7
  quoteId := 2
  offerId := 1
  direction := .reverse
  amountSat := 50000
  feeSat := 500
  totalSat := 50500
  htlcTimeoutBlocks := 144
  requiredConfirmations := 1
  validUntilUnix := 0

def rfq : RfqConstraints where
  offerId := 1
  direction := .reverse
  amountSat := 50000

def parties : Parties where
  owner := "owner"
  provider := "provider"

/-- The request id of a quote is not among its terms, and nothing else is lost. -/
theorem hash_chain_binding_requestId :
    quoteTerms quote = quoteTerms { quote with requestId := some 8 } := by
  have hhash : ∃ hash, termsHash parties rfq quote = .ok hash :=
    ⟨Bytes32.ofNat 0, by decide +kernel⟩
  obtain ⟨hash, hhash⟩ := hhash
  refine (hash_chain_binding.2.2.1 parties parties rfq rfq quote _ hash hhash hhash ?_).2.2
  intro a b ha hb _
  exact Except.ok.inj (ha.symm.trans hb)

end ReorderedTerms

end PubkySwap
