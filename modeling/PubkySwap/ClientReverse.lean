import PubkySwap.Chain
import PubkySwap.FeeBump
import PubkySwap.Record
import PubkySwap.Timelock

/-!
# The client's reverse swap

The client pays the hold invoice, waits until the provider's HTLC is funded and
confirmed, and claims it with the preimage only it holds.  Broadcasting the claim
reveals the preimage, so everything that guards it stands before the first
broadcast: one output of the right value, confirmed, and enough blocks left.

The payment runs as a task of its own; `executeReverseSwap` starts it, asks once in
a round whether it has ended, and joins it after the claim.  `fuel` bounds the
rounds of every loop.
-/

namespace PubkySwap

open BitcoinScript (Bytes)
open Program (orThrow iterate)

/-- `ReverseClaim`: what the client needs to execute a reverse swap. -/
structure ReverseClaim where
  htlcScript : Bytes
  htlcSpk : Bytes
  /-- What the provider locks on chain. -/
  onchainAmountSat : ℕ
  /-- The height at which the provider's refund branch opens. -/
  timeoutHeight : ℕ
  invoice : String
  preimage : Preimage
  claimKey : SecretKey
  destSpk : Bytes
  feeRateSatVb : ℕ
  deriving DecidableEq

namespace ReverseClaim

/-! ## Errors that end a run -/

/-- The funding loop's error at a tip too close to the timeout. -/
def notConfirmedInTime (claim : ReverseClaim) (tip : ℕ) : DriverError :=
  .message ("the provider's HTLC did not confirm in time: tip " ++ toString tip ++
    " against a timeout at " ++ toString claim.timeoutHeight ++
    ". The provider refunds its own funding; nothing of ours is locked on chain.")

/-- The same check after the loop. -/
def confirmedTooLate (claim : ReverseClaim) (tip : ℕ) : DriverError :=
  .message ("the provider's HTLC confirmed too close to its refund at height " ++
    toString claim.timeoutHeight ++ " (tip " ++ toString tip ++ ") to claim safely, so the " ++
    "preimage stays secret. The provider refunds its own funding and the hold invoice expires " ++
    "unsettled.")

/-- What pays the address, if it is what the swap expects: the output to claim once
it is deep enough. -/
def fundingToClaim (claim : ReverseClaim) (requiredConfirmations : ℕ)
    (outputs : List FundingUtxo) : Except DriverError (Option FundingUtxo) :=
  match selectFunding outputs claim.onchainAmountSat defaultMaxOverpaySat with
  | .exact utxo | .overpaid utxo _ =>
      .ok (if requiredConfirmations ≤ utxo.confirmations then some utxo else none)
  | .underpaid gotSat =>
      .error (.message ("the provider's HTLC holds " ++ toString gotSat ++ " sat against the " ++
        toString claim.onchainAmountSat ++ " the swap is priced on; not revealing the preimage " ++
        "for it"))
  | .excessiveOverpay gotSat =>
      .error (.message ("the provider's HTLC holds " ++ toString gotSat ++
        " sat against an expected " ++ toString claim.onchainAmountSat ++
        ", far beyond tolerance; not claiming it"))
  | .multiple utxos =>
      .error (.message (toString utxos.length ++ " separate outputs pay the HTLC address; the " ++
        "claim builder takes one input, so this is left alone"))
  | .none => .ok none

section

variable [Crypto] (claim : ReverseClaim)

/-- `payment_hash`: the hash the hold invoice is against. -/
def paymentHash : PaymentHash := PubkySwap.paymentHash claim.preimage

/-! ## The payment -/

/-- Whether an earlier run's payment may exist. -/
def alreadyPaying (resume : Resume) : Driver DriverError Bool := do
  match ← paymentStatus claim.paymentHash with
  | .ok (.succeeded _) => pure true
  | .ok .inFlight => pure true
  | .ok .notFound => pure false
  | .ok (.failed _) => pure false
  | .ok .unknown => pure (!resume.isFresh)
  | .error _ => pure true

/-- Start paying, unless an earlier run may have; whether there is a task now. -/
def startPayment (maxRoutingFeeMsat : ℕ) (resume : Resume) : Driver DriverError Bool := do
  if ← claim.alreadyPaying resume then pure false
  else do
    orThrow .message (← invoicePayStarted)
    -- A hold invoice is meant to be held: no CLTV bound.
    spawnPayInvoice claim.invoice maxRoutingFeeMsat none
    pure true

/-- Whether there is a task and it has ended. -/
def taskEnded (paying : Bool) : Driver DriverError Bool :=
  if paying then paymentFinished else pure false

/-- The payment ended while there was nothing to claim. -/
def paymentEnded : Driver DriverError Unit := do
  let joined ← joinPayment
  let result ← orThrow (fun e => .message ("pay task join: " ++ e)) joined
  let detail := match result with
    | .ok _ => "the payment settled"
    | .error e => e.display
  Program.throw (.message ("invoice payment ended before the HTLC was funded: " ++ detail))

/-- The end of a run whose claim is final: the task of this run, if any. -/
def settlePayment (paying : Bool) : Driver DriverError Unit :=
  if paying then do
    let joined ← joinPayment
    let result ← orThrow (fun e => .message ("pay task join: " ++ e)) joined
    let _ ← orThrow (lightningError "invoice payment failed") result
    pure ()
  else pure ()

/-! ## The funding -/

/-- No output to claim yet: give up near the timeout or when the payment has ended. -/
def keepWaiting (poll : ℕ) (paying : Bool) : Driver DriverError Unit := do
  let tip ← tipHeight (chainError "tip_height")
  if claimStartIsSafe tip claim.timeoutHeight then do
    if ← taskEnded paying then paymentEnded else sleep poll
  else Program.throw (claim.notConfirmedInTime tip)

/-- One look at what pays the address. -/
def fundingRound (requiredConfirmations poll : ℕ) (paying : Bool) :
    Driver DriverError (Unit ⊕ FundingUtxo) := do
  let outputs ← findOutputs (chainError "find_outputs") claim.htlcSpk
  match ← orThrow id (claim.fundingToClaim requiredConfirmations outputs) with
  | some utxo => pure (.inr utxo)
  | none => do
      claim.keepWaiting poll paying
      pure (.inl ())

/-! ## The claim -/

/-- The claim, as the fee-bump loop drives it: replaced under fee pressure until the
provider's refund is near, and never by a child. -/
def claimJob (resume : Resume) (funding : FundingUtxo) (poll : ℕ) : SpendJob Unit where
  spk := claim.htlcSpk
  outpoint := funding.outpoint
  cfg :=
    let claimVsize := spendVsize claim.htlcScript claim.destSpk true
    let cap := feeRateCap claim.onchainAmountSat claimVsize defaultMaxFeeBps
      absoluteMaxFeeRateSatVb claim.feeRateSatVb
    (SpendWatchConfig.claim claimFeeTargetBlocks claim.feeRateSatVb cap poll finalityDepth
      (claim.timeoutHeight - claimAbortMargin)).withKnownOurs resume.ourSpends
  cpfp := none
  note := fun _ _ => ()
  build := fun rate =>
    -- What the output holds, not what the swap is priced at: the signature commits to it.
    buildClaimTx funding.outpoint funding.valueSat claim.htlcScript claim.destSpk
      (estimateSpendFee rate (spendVsize claim.htlcScript claim.destSpk true)) claim.preimage
      claim.claimKey

/-- Claim the output and follow the claim until it is final. -/
def driveClaim (resume : Resume) (funding : FundingUtxo) (poll : ℕ) (paying : Bool) (fuel : ℕ) :
    Driver DriverError Txid := do
  let (outcome, _) ← (confirmOrBump (claim.claimJob resume funding poll) fuel ()).mapError
    (chainError "claim broadcast/bump")
  match outcome with
  | .confirmed txid => do
      settlePayment paying
      pure txid
  | .conflictingSpend tx =>
      Program.throw (.message ("the provider refunded the HTLC (" ++
        toString (Crypto.computeTxid tx) ++ ") before our claim confirmed; the hold invoice " ++
        "will be cancelled and the payment returned"))
  | .deadlineExceeded lastTxid tip =>
      Program.throw (.message ("claim " ++ toString lastTxid ++ " did not confirm by height " ++
        toString tip ++ ", past the provider's refund window; not broadcasting further"))

end

end ReverseClaim

/-- `execute_reverse_swap`. -/
def executeReverseSwap [Crypto] (claim : ReverseClaim) (maxRoutingFeeMsat requiredConfirmations
    poll : ℕ) (resume : Resume) (fuel : ℕ) : Driver DriverError Txid := do
  let paying ← claim.startPayment maxRoutingFeeMsat resume
  let funding ← iterate (fun _ => claim.fundingRound requiredConfirmations poll paying) fuel ()
  -- Revealing the preimage is the irreversible step, so the window is checked again here.
  let tip ← tipHeight (chainError "tip_height")
  if claimStartIsSafe tip claim.timeoutHeight then
    claim.driveClaim resume funding poll paying fuel
  else Program.throw (claim.confirmedTooLate tip)

end PubkySwap
