import PubkySwap.Lib.Program
import PubkySwap.Onchain

/-!
# What a driver talks to

A swap driver makes calls on four traits: a chain watcher, a Lightning node, a
wallet and a sink for its progress.  `Op` lists those calls with their
arguments, and `Ans` gives each its answer.  A driver is a `Program` over them.

The wrappers below spell a call the way the drivers do.  Those whose answer is a
result take the conversion that the `?` after the call applies to its error: the
drivers' own errors keep a chain error classified and everything else as text.
-/

namespace PubkySwap

open BitcoinScript (Bytes)

/-! ## The chain -/

/-- An unspent output paying an HTLC. -/
structure FundingUtxo where
  outpoint : OutPoint
  valueSat : ℕ
  /-- 0 while in the mempool. -/
  confirmations : ℕ
  deriving DecidableEq, Repr

/-- An output that has paid an HTLC at some point. -/
structure HistoricalOutput where
  outpoint : OutPoint
  valueSat : ℕ
  confirmations : ℕ
  spentBy : Option Txid
  deriving DecidableEq, Repr

/-! ## The Lightning node -/

inductive LightningError where
  | notImplemented (detail : String)
  | backend (detail : String)
  | invoiceNotFound
  | paymentFailed (detail : String)
  deriving DecidableEq, Repr

def LightningError.display : LightningError → String
  | notImplemented detail => "not implemented: " ++ detail
  | backend detail => "backend error: " ++ detail
  | invoiceNotFound => "invoice not found"
  | paymentFailed detail => "payment failed: " ++ detail

/-- Lifecycle of a hold invoice. -/
inductive InvoiceState where
  | opened
  | accepted
  | settled
  | cancelled
  deriving DecidableEq, Repr

/-- One incoming HTLC held against an invoice. -/
structure AcceptedHtlc where
  amountMsat : ℕ
  expiryHeight : ℕ
  deriving DecidableEq, Repr

structure InvoiceStatus where
  state : InvoiceState
  amountPaidMsat : ℕ
  htlcs : List AcceptedHtlc
  deriving DecidableEq, Repr

/-- `earliest_htlc_expiry`. -/
def InvoiceStatus.earliestHtlcExpiry (status : InvoiceStatus) : Option ℕ :=
  (status.htlcs.map AcceptedHtlc.expiryHeight).min?

/-- Result of paying an invoice. -/
structure PaymentResult where
  preimage : Preimage
  feeMsat : ℕ
  deriving DecidableEq, Repr

/-- What a node knows about an outbound payment. -/
inductive PaymentStatus where
  | unknown
  | notFound
  | inFlight
  | succeeded (result : PaymentResult)
  | failed (reason : String)
  deriving DecidableEq, Repr

/-! ## Calls and answers -/

/-- A call a driver makes. -/
inductive Op where
  | tipHeight
  | findFunding (spk : Bytes) (expectedValueSat : ℕ)
  | findOutputs (spk : Bytes)
  | findHistoricalOutputs (spk : Bytes)
  | outpointStatus (spk : Bytes) (outpoint : OutPoint)
  | findSpend (spk : Bytes) (outpoint : OutPoint)
  | broadcast (tx : Transaction)
  | estimateFeeRate (targetBlocks : ℕ)
  | txConfirmations (spk : Bytes) (txid : Txid)
  | invoiceState (paymentHash : PaymentHash)
  | invoiceStatus (paymentHash : PaymentHash)
  | settleHoldInvoice (preimage : Preimage)
  | cancelHoldInvoice (paymentHash : PaymentHash)
  | paymentStatus (paymentHash : PaymentHash)
  | payInvoice (invoice : String) (maxFeeMsat : ℕ) (cltvLimit : Option ℕ)
  /-- `tokio::spawn` of a task that makes the call `pay_invoice`. -/
  | spawnPayInvoice (invoice : String) (maxFeeMsat : ℕ) (cltvLimit : Option ℕ)
  | paymentFinished
  | joinPayment
  | fundHtlc (spk : Bytes) (amountSat : ℕ)
  | receiveDestination
  | cpfpBump (parent : OutPoint) (feeRateSatVb : ℕ)
  | fundingIntent (tip : ℕ)
  | funded (outpoint : OutPoint)
  | invoicePayStarted
  | invoicePaid
  | claimObserved (txid : Txid)
  | spendBroadcast (txid : Txid)
  | wantsClaimable
  | claimable (outpoint : OutPoint)
  | now
  | sleep (duration : ℕ)
  deriving DecidableEq, Repr

/-- The answer to a call. -/
@[reducible] def Ans : Op → Type
  | .tipHeight => Except SwapError ℕ
  | .findFunding .. => Except SwapError (Option FundingUtxo)
  | .findOutputs _ => Except SwapError (List FundingUtxo)
  | .findHistoricalOutputs _ => Except SwapError (List HistoricalOutput)
  | .outpointStatus .. => Except SwapError (Option FundingUtxo)
  | .findSpend .. => Except SwapError (Option Transaction)
  | .broadcast _ => Except SwapError Txid
  | .estimateFeeRate _ => Except SwapError (Option ℕ)
  | .txConfirmations .. => Except SwapError (Option ℕ)
  | .invoiceState _ => Except LightningError InvoiceState
  | .invoiceStatus _ => Except LightningError InvoiceStatus
  | .settleHoldInvoice _ => Except LightningError Unit
  | .cancelHoldInvoice _ => Except LightningError Unit
  | .paymentStatus _ => Except LightningError PaymentStatus
  | .payInvoice .. => Except LightningError PaymentResult
  | .spawnPayInvoice .. => Unit
  | .paymentFinished => Bool
  | .joinPayment => Except String (Except LightningError PaymentResult)
  | .fundHtlc .. => Except SwapError OutPoint
  | .receiveDestination => Bytes
  | .cpfpBump .. => Except SwapError (Option Txid)
  | .fundingIntent _ => Except String Unit
  | .funded _ => Unit
  | .invoicePayStarted => Except String Unit
  | .invoicePaid => Unit
  | .claimObserved _ => Unit
  | .spendBroadcast _ => Unit
  | .wantsClaimable => Bool
  | .claimable _ => Unit
  | .now => Instant
  | .sleep _ => Unit

/-- The answers of an environment in which nothing happens. -/
def idle : (op : Op) → Ans op
  | .tipHeight => .ok 0
  | .findFunding .. => .ok none
  | .findOutputs _ => .ok []
  | .findHistoricalOutputs _ => .ok []
  | .outpointStatus .. => .ok none
  | .findSpend .. => .ok none
  | .broadcast _ => .error (.transient "not broadcast")
  | .estimateFeeRate _ => .ok none
  | .txConfirmations .. => .ok none
  | .invoiceState _ => .ok .opened
  | .invoiceStatus _ => .error .invoiceNotFound
  | .settleHoldInvoice _ => .error .invoiceNotFound
  | .cancelHoldInvoice _ => .ok ()
  | .paymentStatus _ => .ok .notFound
  | .payInvoice .. => .error (.backend "not paid")
  | .spawnPayInvoice .. => ()
  | .paymentFinished => false
  | .joinPayment => .error "not spawned"
  | .fundHtlc .. => .error (.transient "not funded")
  | .receiveDestination => []
  | .cpfpBump .. => .ok none
  | .fundingIntent _ => .ok ()
  | .funded _ => ()
  | .invoicePayStarted => .ok ()
  | .invoicePaid => ()
  | .claimObserved _ => ()
  | .spendBroadcast _ => ()
  | .wantsClaimable => false
  | .claimable _ => ()
  | .now => 0
  | .sleep _ => ()

/-- One exchange of a driver with what it talks to. -/
abbrev Event : Type := Program.Event Op Ans

/-- An error a driver run ends with. -/
inductive DriverError where
  | swap (e : SwapError)
  | message (text : String)
  deriving DecidableEq, Repr

/-- The `Display` text of an error. -/
def DriverError.display : DriverError → String
  | swap e => e.display
  | message text => text

/-- `is_transient`: only a classified error is. -/
def DriverError.isTransient : DriverError → Bool
  | swap e => e.isTransient
  | message _ => false

/-- A driver, or a part of one, whose errors are `ε`. -/
abbrev Driver (ε α : Type) : Type := Program Op Ans ε α

/-- `anyhow!("what: {e}")` on a Lightning error. -/
def lightningError (what : String) (e : LightningError) : DriverError :=
  .message (what ++ ": " ++ e.display)

/-- `anyhow!("what: {e}")` on a chain error: the client's drivers keep only its
text. -/
def chainError (what : String) (e : SwapError) : DriverError :=
  .message (what ++ ": " ++ e.display)

/-! ## Calls as the drivers spell them -/

section

variable {ε : Type}

def tipHeight (convert : SwapError → ε) : Driver ε ℕ :=
  .call .tipHeight (.orThrow convert)

def findFunding (convert : SwapError → ε) (spk : Bytes) (expectedValueSat : ℕ) :
    Driver ε (Option FundingUtxo) :=
  .call (.findFunding spk expectedValueSat) (.orThrow convert)

def findOutputs (convert : SwapError → ε) (spk : Bytes) : Driver ε (List FundingUtxo) :=
  .call (.findOutputs spk) (.orThrow convert)

def findHistoricalOutputs (convert : SwapError → ε) (spk : Bytes) :
    Driver ε (List HistoricalOutput) :=
  .call (.findHistoricalOutputs spk) (.orThrow convert)

def outpointStatus (convert : SwapError → ε) (spk : Bytes) (outpoint : OutPoint) :
    Driver ε (Option FundingUtxo) :=
  .call (.outpointStatus spk outpoint) (.orThrow convert)

def findSpend (convert : SwapError → ε) (spk : Bytes) (outpoint : OutPoint) :
    Driver ε (Option Transaction) :=
  .call (.findSpend spk outpoint) (.orThrow convert)

def txConfirmations (convert : SwapError → ε) (spk : Bytes) (txid : Txid) :
    Driver ε (Option ℕ) :=
  .call (.txConfirmations spk txid) (.orThrow convert)

/-! The calls whose answer the driver looks at itself. -/

def tryTxConfirmations (spk : Bytes) (txid : Txid) : Driver ε (Except SwapError (Option ℕ)) :=
  .call (.txConfirmations spk txid) .pure

def broadcast (tx : Transaction) : Driver ε (Except SwapError Txid) := .call (.broadcast tx) .pure

def estimateFeeRate (targetBlocks : ℕ) : Driver ε (Except SwapError (Option ℕ)) :=
  .call (.estimateFeeRate targetBlocks) .pure

def invoiceState (hash : PaymentHash) : Driver ε (Except LightningError InvoiceState) :=
  .call (.invoiceState hash) .pure

def invoiceStatus (hash : PaymentHash) : Driver ε (Except LightningError InvoiceStatus) :=
  .call (.invoiceStatus hash) .pure

def settleHoldInvoice (preimage : Preimage) : Driver ε (Except LightningError Unit) :=
  .call (.settleHoldInvoice preimage) .pure

def cancelHoldInvoice (hash : PaymentHash) : Driver ε (Except LightningError Unit) :=
  .call (.cancelHoldInvoice hash) .pure

def paymentStatus (hash : PaymentHash) : Driver ε (Except LightningError PaymentStatus) :=
  .call (.paymentStatus hash) .pure

def payInvoice (invoice : String) (maxFeeMsat : ℕ) (cltvLimit : Option ℕ) :
    Driver ε (Except LightningError PaymentResult) :=
  .call (.payInvoice invoice maxFeeMsat cltvLimit) .pure

def spawnPayInvoice (invoice : String) (maxFeeMsat : ℕ) (cltvLimit : Option ℕ) : Driver ε Unit :=
  .call (.spawnPayInvoice invoice maxFeeMsat cltvLimit) .pure

def paymentFinished : Driver ε Bool := .call .paymentFinished .pure

def joinPayment : Driver ε (Except String (Except LightningError PaymentResult)) :=
  .call .joinPayment .pure

def fundHtlc (spk : Bytes) (amountSat : ℕ) : Driver ε (Except SwapError OutPoint) :=
  .call (.fundHtlc spk amountSat) .pure

def receiveDestination : Driver ε Bytes := .call .receiveDestination .pure

def cpfpBump (parent : OutPoint) (feeRateSatVb : ℕ) :
    Driver ε (Except SwapError (Option Txid)) :=
  .call (.cpfpBump parent feeRateSatVb) .pure

def fundingIntent (tip : ℕ) : Driver ε (Except String Unit) := .call (.fundingIntent tip) .pure

def funded (outpoint : OutPoint) : Driver ε Unit := .call (.funded outpoint) .pure

def invoicePayStarted : Driver ε (Except String Unit) := .call .invoicePayStarted .pure

def invoicePaid : Driver ε Unit := .call .invoicePaid .pure

def claimObserved (txid : Txid) : Driver ε Unit := .call (.claimObserved txid) .pure

def spendBroadcast (txid : Txid) : Driver ε Unit := .call (.spendBroadcast txid) .pure

def wantsClaimable : Driver ε Bool := .call .wantsClaimable .pure

def claimable (outpoint : OutPoint) : Driver ε Unit := .call (.claimable outpoint) .pure

def now : Driver ε Instant := .call .now .pure

def sleep (duration : ℕ) : Driver ε Unit := .call (.sleep duration) .pure

end

end PubkySwap
