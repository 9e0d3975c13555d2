import PubkySwap.ClientRecovery
import PubkySwap.ClientReverseRun

/-!
# Histories of a client

A client's operations run one after another on one store, and any of them may be cut
off anywhere: what is left is the store.  `ClientWorld` is that store together with
what has happened, the quotes the provider answered and the drivers that were
called.  `Moves` says what each call does to it, for every answer the outside may
give: a write that succeeds is durable, a write that fails may have happened, and a
decoded invoice is what the invoice says.

`Kept` is what every operation keeps.  It says of each record where it
comes from, of each driver what it was given, and that a swap whose funding or
whose payment was once asked for says so.  The invariant speaks of a record through two views of it:
`terms`, the record without its progress, and `agreement`, what is fixed when it is
created.
-/

namespace PubkySwap

open BitcoinScript (Bytes)
open Program (Guarded)

/-! ## Views of a record -/

namespace SwapRecord

/-- The record without its progress. -/
def terms (rec : SwapRecord) : SwapRecord :=
  { rec with
    fundingTxid := none
    fundingVout := none
    fundingFeeSat := none
    state := .created
    fundingIntentAtHeight := none
    fundingAttempts := 0
    invoicePayStartedAtUnix := none
    claimObservedTxid := none
    spendTxid := none
    claimableHint := false
    claimableAtUnix := none
    ourSpendTxids := []
    clientCreationStarted := false
    clientCreationTip := none
    capContract := none
    reorgSeenAtHeight := none
    lastError := none
    retryCount := 0
    nextRetryAtUnix := none
    updatedAtUnix := 0
    createdAtUnix := 0 }

/-- What is fixed when the record is created. -/
def agreement (rec : SwapRecord) : SwapRecord :=
  { rec.terms with
    swapAccept := none
    htlcScriptHex := ""
    timeoutHeight := 0
    onchainAmountSat := 0
    invoice := ""
    destSpkHex := none
    clientExecutionReady := false }

/-- Whether a funding may exist. -/
def marked (rec : SwapRecord) : Bool := rec.resume.marked

variable {rec old : SwapRecord}

/-- The record goes on where the old one was: it belongs to the same agreement and has
lost no mark.  Only a swap that was negotiated here still takes in an acceptance; of any
other the terms stay. -/
structure Continues (old rec : SwapRecord) : Prop where
  agreement : rec.agreement = old.agreement
  marked : old.marked = true → rec.marked = true
  paying : old.invoicePayStartedAtUnix.isSome → rec.invoicePayStartedAtUnix.isSome
  foreign : old.swapRequest = none → rec.terms = old.terms

theorem agreement_of_terms (h : rec.terms = old.terms) : rec.agreement = old.agreement := by
  have hview (rec : SwapRecord) : rec.agreement = rec.terms.agreement := rfl
  rw [hview, h, ← hview]

theorem Continues.stamped (h : Continues old rec) (existing : Option SwapRecord) (unix : ℕ) :
    Continues old (rec.stamped existing unix) :=
  ⟨h.agreement, h.marked, h.paying, h.foreign⟩

/-- A record with both parts of its outpoint is marked, and so is one with an intent. -/
theorem marked_iff : rec.marked = true ↔
    (rec.fundingTxid.isSome ∧ rec.fundingVout.isSome) ∨ rec.fundingIntentAtHeight.isSome := by
  unfold marked Resume.marked resume fundingOutpoint
  cases rec.fundingTxid <;> cases rec.fundingVout <;> simp

end SwapRecord

/-! ## What has happened -/

/-- Paying an invoice. -/
def Op.pays : Op → Bool
  | .payInvoice .. | .spawnPayInvoice .. => true
  | _ => false

/-- A driver that was called, and its exchange with the outside so far.  Its reports
went to the store. -/
structure DriverRun where
  start : DriverStart
  log : List Event := []

/-- How often the run has asked the wallet to fund. -/
def DriverRun.fundings (run : DriverRun) : ℕ := run.log.countP fun event => event.1.funds

/-- Whether the run is a reverse swap's and has asked the node to pay. -/
def DriverRun.pays (run : DriverRun) : Bool :=
  match run.start.execution with
  | .reverse _ _ => run.log.any fun event => event.1.pays
  | .submarine _ => false

/-- No run of the swap has. -/
def NeverPaid (swapId : Uuid) (runs : List DriverRun) : Prop :=
  ∀ run ∈ runs, run.start.swapId = swapId → run.pays = false

/-- How often the runs of a swap have. -/
def fundingsOf (swapId : Uuid) (runs : List DriverRun) : ℕ :=
  (runs.map fun run => if run.start.swapId = swapId then run.fundings else 0).sum

/-- A reverse swap's driver that was told of no earlier run. -/
def DriverStart.Fresh (start : DriverStart) : Prop :=
  start.resume.isFresh = true ∧ ∃ claim n, start.execution = .reverse claim n

structure ClientWorld where
  store : Uuid → Option SwapRecord
  /-- The quotes that answered this client's requests. -/
  quotes : List (QuoteRequest × Quote)
  /-- The drivers that were called, the last one first. -/
  runs : List DriverRun

namespace ClientWorld

def write (w : ClientWorld) (rec : SwapRecord) : ClientWorld :=
  { w with store := Function.update w.store rec.swapId (some rec) }

/-- An exchange of the driver called last. -/
def drove (w : ClientWorld) (event : Event) : ClientWorld :=
  match w.runs with
  | [] => w
  | run :: older => { w with runs := { run with log := run.log ++ [event] } :: older }

def called (w : ClientWorld) (start : DriverStart) : ClientWorld :=
  { w with runs := ⟨start, []⟩ :: w.runs }

def answered (w : ClientWorld) (request : QuoteRequest) (quote : Quote) : ClientWorld :=
  { w with quotes := (request, quote) :: w.quotes }

/-- The record says that a funding may exist. -/
def MarkedAt (w : ClientWorld) (swapId : Uuid) : Prop :=
  ∃ rec, w.store swapId = some rec ∧ rec.marked = true

/-- The record says that a payment may exist. -/
def PayingAt (w : ClientWorld) (swapId : Uuid) : Prop :=
  ∃ rec, w.store swapId = some rec ∧ rec.invoicePayStartedAtUnix.isSome

/-- The record is a reverse swap's, and holds the preimage. -/
def HeldAt (w : ClientWorld) (swapId : Uuid) (preimage : Preimage) : Prop :=
  ∃ rec, w.store swapId = some rec ∧ rec.direction = .reverse ∧ rec.preimage = .ok (some preimage)

/-- What was agreed for a swap. -/
def agreementAt (w : ClientWorld) (swapId : Uuid) : Option SwapRecord :=
  (w.store swapId).map SwapRecord.agreement

end ClientWorld

/-- A record has reached the disk. -/
def Written (w : ClientWorld) (rec : SwapRecord) (w' : ClientWorld) : Prop :=
  ∃ existing unix, (existing = w.store rec.swapId ∨ existing = none) ∧
    w' = w.write (rec.stamped existing unix)

/-- A listing of the store: records on disk, each once. -/
def Listing (w : ClientWorld) (records : List SwapRecord) : Prop :=
  (records.map SwapRecord.swapId).Nodup ∧ ∀ rec ∈ records, w.store rec.swapId = some rec

/-- **What a call does**, where `decode` is what an invoice says. -/
def Moves (decode : String → Option DecodedHoldInvoice) (w : ClientWorld) :
    (op : ClientOp) → ClientAns op → ClientWorld → Prop
  | .get swapId, answer, w' => w' = w ∧ ∀ found, answer = .ok found → found = w.store swapId
  | .put rec, .ok _, w' => Written w rec w'
  | .put rec, .error _, w' => w' = w ∨ Written w rec w'
  | .loadAll, answer, w' => w' = w ∧ ∀ records, answer = .ok records → Listing w records
  | .loadAllChecked, answer, w' => w' = w ∧ ∀ records, answer = .ok records → Listing w records
  | .quote request, .ok quote, w' => w' = w.answered request quote
  | .quote _, .error _, w' => w' = w
  | .decodeInvoice invoice, answer, w' =>
      w' = w ∧ ∀ decoded, answer = .ok decoded → decode invoice = some decoded
  | .execute start, _, w' => w' = w.called start
  | .drive op, answer, w' => w' = w.drove ⟨op, answer⟩
  | _, _, w' => w' = w

/-! ## Histories -/

/-- A client operation. -/
inductive ClientCall where
  | negotiate (config : ClientConfig) (network : NetworkSpec) (clientPkarr : String)
      (draws : Draws)
  | recover (config : ClientConfig) (network : NetworkSpec)
  | restore (target : Restore) (provider : String) (snapshots : List SwapStatusSnapshot)
      (resolve : SwapStatusSnapshot → Option RestoredKeys)
  | resume (hasWallet : Bool) (maxRoutingFeeMsat : ℕ)

/-- The identifier a call draws for a new swap. -/
def ClientCall.draws : ClientCall → Option Uuid
  | negotiate _ _ _ draws => some draws.swapId
  | _ => none

/-- An identifier that is drawn is a new one. -/
def ClientCall.Fresh (call : ClientCall) (before : List ClientCall) (w : ClientWorld) : Prop :=
  ∀ swapId, call.draws = some swapId →
    w.store swapId = none ∧ ∀ other ∈ before, other.draws ≠ some swapId

section

variable [Crypto] [ClientCrates]

def ClientCall.program (fuel : ℕ) : ClientCall → ClientProgram Unit
  | negotiate config network clientPkarr draws =>
      runNegotiation config network clientPkarr draws fuel
  | recover config network => recoverPending config network
  | restore target provider snapshots resolve =>
      (restoreSnapshots target provider resolve {} snapshots).bind fun _ => .pure ()
  | resume hasWallet maxRoutingFeeMsat => resumeUnfinished hasWallet maxRoutingFeeMsat fuel

/-- **The histories of a client**: its operations one after another on one store, each
cut off anywhere.  The last call comes first.  The store may begin with records of an
older build, which saved no request. -/
inductive History (decode : String → Option DecodedHoldInvoice) (legacy : List SwapRecord) :
    List ClientCall → ClientWorld → Prop where
  | start (store : Uuid → Option SwapRecord)
      (hlegacy : ∀ swapId rec, store swapId = some rec →
        rec.swapId = swapId ∧ rec ∈ legacy ∧ rec.swapRequest = none) :
      History decode legacy [] ⟨store, [], []⟩
  | call {before : List ClientCall} {w w' : ClientWorld} (h : History decode legacy before w)
      (call : ClientCall) (fuel : ℕ) (hfresh : call.Fresh before w)
      (hreach : Program.Reaches (Moves decode) (call.program fuel) w w') :
      History decode legacy (call :: before) w'

end

/-! ## Where a swap comes from -/

section

variable (decode : String → Option DecodedHoldInvoice) (legacy : List SwapRecord)
  (calls : List ClientCall)

/-- The invoice is for the hash, and for exactly what was agreed. -/
def InvoiceBinds (invoice : String) (hash : PaymentHash) (quote : Quote) : Prop :=
  ∃ decoded, decode invoice = some decoded ∧ decoded.paymentHash = hash ∧
    decoded.amountIsExplicit = true ∧ decoded.amountMsat = quote.totalSat * 1000

/-- A negotiation of this history validated the quote for the swap, and held it to this
floor of confirmations. -/
def Negotiated (quotes : List (QuoteRequest × Quote)) (swapId : Uuid) (quote : Quote)
    (floor : ℕ) : Prop :=
  ∃ config network clientPkarr draws request unix,
    ClientCall.negotiate config network clientPkarr draws ∈ calls ∧ draws.swapId = swapId ∧
      (request, quote) ∈ quotes ∧
      validateQuote quote request unix (clientPolicy config network) = .ok () ∧
      (clientPolicy config network).minRequiredConfirmations = floor

variable [Crypto] [ClientCrates]

/-- A restore of this history rebuilt the record from its listing. -/
def Rebuilt (rec : SwapRecord) : Prop :=
  ∃ target provider snapshots resolve snapshot keys listed,
    ClientCall.restore target provider snapshots resolve ∈ calls ∧ snapshot ∈ snapshots ∧
      resolve snapshot = some keys ∧ reverseRecord target provider snapshot keys = .ok listed ∧
      rec.terms = listed.terms

/-- An older build left the record. -/
def Inherited (rec : SwapRecord) : Prop := ∃ old ∈ legacy, rec.terms = old.terms

/-- What the record of a negotiated reverse swap says. -/
structure NegotiatedRecord (quotes : List (QuoteRequest × Quote)) (rec : SwapRecord)
    (quote : Quote) (floor : ℕ) (preimage : Preimage) : Prop where
  clientQuote : rec.clientQuote = some quote
  negotiated : Negotiated calls quotes rec.swapId quote floor
  confirmations : rec.requiredConfirmations = max quote.requiredConfirmations floor
  direction : quote.direction = .reverse
  preimageHex : rec.preimageHex = some (Hex.encode preimage.val)
  hashHex : rec.paymentHashHex = Hex.encode (paymentHash preimage).val
  replied : ∀ accept, rec.swapAccept = some accept → accept.invoice = some rec.invoice
  ready : rec.clientExecutionReady = true → rec.swapAccept.isSome ∧
    InvoiceBinds decode rec.invoice (paymentHash preimage) quote ∧
      rec.onchainAmountSat = quote.amountSat

/-- The keys of a contract's branches, the claim's first. -/
def branchKeys (direction : SwapDirection) (ours theirs : PublicKey) : PublicKey × PublicKey :=
  match direction with
  | .reverse => (ours, theirs)
  | .submarine => (theirs, ours)

omit [Crypto] in
/-- The script is the HTLC of an acceptance under the record's hash and key, and some key
of the provider's. -/
def ScriptOf (rec : SwapRecord) (accept : SwapAccept) (htlcScript : Bytes) : Prop :=
  ∃ hash key provider, rec.paymentHash = .ok hash ∧
    (rec.secretKey = .ok key ∨ Hex.decode rec.secretKeyHex = some key.val) ∧
    accept.scriptType = .p2wsh ∧
    htlcScript =
      buildHtlcScript hash (branchKeys rec.direction (ClientCrates.publicKey key) provider).1
        (branchKeys rec.direction (ClientCrates.publicKey key) provider).2
        accept.timeoutBlockHeight

omit [Crypto] in
/-- What the record of a negotiated swap says of its contract: it is not a Taproot one,
and once the record is ready it is the acceptance's, and there is somewhere to pay out. -/
structure Contracted (rec : SwapRecord) : Prop where
  taproot : rec.taproot = none
  ready : rec.clientExecutionReady = true → ∃ accept htlcScript, rec.swapAccept = some accept ∧
    rec.timeoutHeight = accept.timeoutBlockHeight ∧ rec.htlcScriptHex = Hex.encode htlcScript ∧
      ScriptOf rec accept htlcScript ∧ ∃ destSpk, rec.destSpkHex = some (Hex.encode destSpk)

/-- **Where a record comes from**: a negotiation, of which its request is left, or a
listing or an older build. -/
def Sourced (quotes : List (QuoteRequest × Quote)) (rec : SwapRecord) : Prop :=
  (rec.swapRequest.isSome ∧ Contracted rec.terms ∧ (rec.direction = .reverse →
    ∃ quote floor preimage,
      NegotiatedRecord decode calls quotes rec.terms quote floor preimage)) ∨
  (rec.swapRequest = none ∧ (Rebuilt calls rec ∨ Inherited legacy rec))

/-- **What a driver is given**: the terms of a negotiated swap, or those of the record on
disk, which was not negotiated here. -/
def Given (w : ClientWorld) (swapId : Uuid) (claim : ReverseClaim)
    (requiredConfirmations : ℕ) : Prop :=
  (∃ quote floor, Negotiated calls w.quotes swapId quote floor ∧
    requiredConfirmations = max quote.requiredConfirmations floor ∧
    claim.onchainAmountSat = quote.amountSat ∧
    InvoiceBinds decode claim.invoice claim.paymentHash quote) ∨
  ∃ rec, w.store swapId = some rec ∧ rec.swapRequest = none ∧
    reverseClaimFromRecord rec = .ok claim ∧
    requiredConfirmations = rec.requiredConfirmations

/-- Nothing but this invoice is paid. -/
def PaysOnly (invoice : String) (log : List Event) : Prop :=
  ∀ event ∈ log, ∀ paid fee cltv,
    event.1 = .payInvoice paid fee cltv ∨ event.1 = .spawnPayInvoice paid fee cltv → paid = invoice

/-- What the node may have answered for a payment to be started. -/
def Cleared (resume : Resume) : Except LightningError PaymentStatus → Prop
  | .ok .notFound => True
  | .ok (.failed _) => True
  | .ok .unknown => resume.isFresh = true
  | _ => False

/-- A payment is the second thing a run does: the first is to ask the node, and its
answer allowed it. -/
abbrev PaysCleared (hash : PaymentHash) (resume : Resume) (log : List Event) : Prop :=
  Guarded (fun op => op.pays = true) (fun before => ∃ answer,
    before = [⟨.paymentStatus hash, answer⟩] ∧ Cleared resume answer) log

/-- What the run of a reverse swap's driver keeps to. -/
structure ReverseRunKept (w : ClientWorld) (run : DriverRun) (claim : ReverseClaim)
    (requiredConfirmations : ℕ) : Prop where
  given : Given decode calls w run.start.swapId claim requiredConfirmations
  held : w.HeldAt run.start.swapId claim.preimage
  gated : Gated claim requiredConfirmations run.log
  pays : PaysOnly claim.invoice run.log
  cleared : PaysCleared claim.paymentHash run.start.resume run.log

/-- **The invariant of a client.** -/
structure Kept (w : ClientWorld) : Prop where
  keyed : ∀ swapId rec, w.store swapId = some rec → rec.swapId = swapId
  sourced : ∀ swapId rec, w.store swapId = some rec → Sourced decode legacy calls w.quotes rec
  funded : ∀ swapId, fundingsOf swapId w.runs ≤ 1 ∧
    (fundingsOf swapId w.runs = 0 ∨ w.MarkedAt swapId)
  paid : ∀ swapId, NeverPaid swapId w.runs ∨ w.PayingAt swapId
  runs : ∀ run ∈ w.runs, ∀ claim requiredConfirmations,
    run.start.execution = .reverse claim requiredConfirmations →
      ReverseRunKept decode calls w run claim requiredConfirmations
  /-- A fresh run of a reverse swap is the first that may pay, and of a negotiated swap. -/
  fresh : ∀ newer run older, w.runs = newer ++ run :: older → run.start.Fresh →
    NeverPaid run.start.swapId older ∧
      ∃ rec, w.store run.start.swapId = some rec ∧ rec.swapRequest.isSome

end

end PubkySwap
