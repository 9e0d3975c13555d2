import PubkySwap.Chain
import PubkySwap.FeeBump
import PubkySwap.Record
import PubkySwap.Taproot
import PubkySwap.Timelock

/-!
# The submarine driver

A submarine swap is funded on chain by the client and paid over Lightning by the
provider: once the funding is confirmed the provider pays the client's invoice,
learns the preimage and claims the HTLC with it.

`driveSubmarineSwap` is cut into its four parts: the funding outpoint, the value
and depth of the output, the payment, and the claim.  A part that ends the run
early returns `inl` with the state to report.
-/

namespace PubkySwap

open BitcoinScript (Bytes)
open Program (orThrow iterate repeatUpTo)

/-- `SubmarineSwap`: what the driver reads of one swap. -/
structure SubmarineSwap [Crypto] where
  paymentHash : PaymentHash
  /-- What the client locks on chain: the invoice amount and the provider's fee. -/
  onchainAmountSat : ℕ
  feeRateSatVb : ℕ
  htlcScript : Bytes
  htlcSpk : Bytes
  taproot : Option BoltzTaprootSwap
  timeoutHeight : ℕ
  claimKey : SecretKey
  invoice : String
  maxRoutingFeeMsat : ℕ
  timelock : TimelockParams

/-- `PAYMENT_POLL_ITERATIONS`. -/
def paymentPollIterations : ℕ := 30

variable [Crypto] (swap : SubmarineSwap)

/-! ## The funding outpoint -/

/-- Proceed with an output once it is deep enough. -/
def adoptFunding (requiredConfirmations : ℕ) :
    Option FundingUtxo → Driver DriverError (Option OutPoint)
  | none => pure none
  | some utxo =>
      if requiredConfirmations ≤ utxo.confirmations then do
        funded utxo.outpoint
        pure (some utxo.outpoint)
      else pure none

/-- Report an output that is deep enough, or look again until the timeout. -/
def awaitDepth (requiredConfirmations poll : ℕ) (adopted : Option FundingUtxo) :
    Driver DriverError (Unit ⊕ (SwapState ⊕ OutPoint)) := do
  match ← adoptFunding requiredConfirmations adopted with
  | some outpoint => pure (.inr (.inr outpoint))
  | none => do
      let tip ← tipHeight .swap
      if swap.timeoutHeight ≤ tip then pure (.inr (.inl .expired))
      else do
        sleep poll
        pure (.inl ())

/-- One look for the client's funding. -/
def fundingRound (requiredConfirmations poll : ℕ) :
    Driver DriverError (Unit ⊕ (SwapState ⊕ OutPoint)) := do
  let outputs ← findOutputs .swap swap.htlcSpk
  match selectFunding outputs swap.onchainAmountSat defaultMaxOverpaySat with
  | .underpaid gotSat =>
      pure (.inr (.inl (.failed s!"funding is short: {gotSat} of {swap.onchainAmountSat} sat")))
  | .excessiveOverpay gotSat =>
      pure (.inr (.inl (.failed
        s!"funding of {gotSat} sat is implausible for a {swap.onchainAmountSat} sat swap")))
  | .multiple _ => pure (.inr (.inl (.failed "several outputs pay the HTLC address")))
  | selection => awaitDepth swap requiredConfirmations poll selection.adopted

/-- The outpoint an earlier run recorded, or the client's funding. -/
def locateFunding (resume : Resume) (requiredConfirmations poll fuel : ℕ) :
    Driver DriverError (SwapState ⊕ OutPoint) :=
  match resume.funding with
  | some outpoint => do
      match ← findSpend .swap swap.htlcSpk outpoint with
      | some spend =>
          if (extractPreimage spend outpoint swap.paymentHash).isSome then pure (.inl .claimed)
          else pure (.inr outpoint)
      | none => pure (.inr outpoint)
  | none => iterate (fun _ => fundingRound swap requiredConfirmations poll) fuel ()

/-! ## The output -/

/-- The output is not there, or not deep enough to pay for. -/
def missingFunding (alreadyAttempted : Bool) (outpoint : OutPoint) (poll : ℕ) :
    Driver DriverError SwapState := do
  match ← findSpend .swap swap.htlcSpk outpoint with
  | some _ => pure .claimed
  | none =>
      if alreadyAttempted then do
        let answer ← paymentStatus swap.paymentHash
        match ← orThrow (lightningError "payment status") answer with
        | .failed reason => pure (.failed ("invoice payment failed: " ++ reason))
        | _ => do
            sleep poll
            pure .invoicePending
      else pure (.failed "funding reorged below required confirmations before payment")

/-- The reorg guard: the value to sign over, from an output at depth. -/
def measureFunding (alreadyAttempted : Bool) (outpoint : OutPoint)
    (requiredConfirmations poll : ℕ) : Driver DriverError (SwapState ⊕ ℕ) := do
  match ← outpointStatus .swap swap.htlcSpk outpoint with
  | some utxo =>
      -- Once a payment may be out, the claim is owed at any depth.
      if requiredConfirmations ≤ utxo.confirmations ∨ alreadyAttempted then
        pure (.inr utxo.valueSat)
      else do
        let state ← missingFunding swap alreadyAttempted outpoint poll
        pure (.inl state)
  | none => do
      let state ← missingFunding swap alreadyAttempted outpoint poll
      pure (.inl state)

/-! ## The payment -/

/-- The call that cannot be undone, and what its answer means. -/
def payOnce (cltvLimit : ℕ) : Driver DriverError (SwapState ⊕ PaymentResult) := do
  let recorded ← invoicePayStarted
  orThrow .message recorded
  match ← payInvoice swap.invoice swap.maxRoutingFeeMsat (some cltvLimit) with
  | .ok payment => do
      invoicePaid
      pure (.inr payment)
  | .error (.paymentFailed detail) =>
      pure (.inl (.failed ("invoice payment failed: " ++
        (LightningError.paymentFailed detail).display)))
  | .error (.notImplemented detail) =>
      pure (.inl (.failed ("invoice payment failed: " ++
        (LightningError.notImplemented detail).display)))
  -- A transport error can arrive after the node accepted the payment.
  | .error _ => pure (.inl .invoicePending)

/-- Pay, if the claim window and the route's budget allow it. -/
def payWithinTimelocks : Driver DriverError (SwapState ⊕ PaymentResult) := do
  let tip ← tipHeight .swap
  match checkSubmarineBeforePay tip swap.timeoutHeight swap.timelock with
  | .error violation =>
      pure (.inl (.failed ("insufficient claim window: " ++ violation.display)))
  | .ok () =>
      match submarineCltvBudget tip swap.timeoutHeight swap.timelock with
      | none => pure (.inl (.failed "no CLTV budget left to pay the invoice safely"))
      | some cltvLimit => payOnce swap cltvLimit

/-- One look at the payment. -/
def paymentRound (resume : Resume) (alreadyAttempted : Bool) (poll : ℕ) :
    Driver DriverError (Unit ⊕ (SwapState ⊕ PaymentResult)) := do
  let answer ← paymentStatus swap.paymentHash
  match ← orThrow (lightningError "payment status") answer with
  | .succeeded payment => do
      invoicePaid
      pure (.inr (.inr payment))
  | .inFlight => do
      sleep poll
      pure (.inl ())
  | .failed reason => pure (.inr (.inl (.failed ("invoice payment failed: " ++ reason))))
  | _ =>
      -- A payment was started and the node has no record of it: do not pay again.
      if resume.funding.isSome ∧ alreadyAttempted then do
        sleep poll
        pure (.inl ())
      else do
        let outcome ← payWithinTimelocks swap
        pure (.inr outcome)

/-- The payment, or the state to hand back. -/
def obtainPayment (resume : Resume) (alreadyAttempted : Bool) (poll : ℕ) :
    Driver DriverError (SwapState ⊕ PaymentResult) := do
  match ← repeatUpTo (fun _ => paymentRound swap resume alreadyAttempted poll)
      paymentPollIterations () with
  | .inl () => pure (.inl .invoicePending)
  | .inr outcome => pure outcome

/-! ## The claim -/

/-- The claim, as the fee-bump loop drives it, told of the spends that are ours. -/
def claimJob (outpoint : OutPoint) (fundingValueSat : ℕ) (preimage : Preimage) (dest : Bytes)
    (poll : ℕ) (ours : List Txid) : SpendJob (List Txid) where
  spk := swap.htlcSpk
  outpoint := outpoint
  cfg :=
    let claimVsize := match swap.taproot with
      | none => spendVsize swap.htlcScript dest true
      | some contract => contract.spendVsize dest true
    let cap := feeRateCap swap.onchainAmountSat claimVsize defaultMaxFeeBps
      absoluteMaxFeeRateSatVb swap.feeRateSatVb
    (SpendWatchConfig.claim claimFeeTargetBlocks swap.feeRateSatVb cap poll finalityDepth
      (swap.timeoutHeight - claimAbortMargin)).withKnownOurs ours
  cpfp := some walletCpfp
  note := fun ours txid => ours ++ [txid]
  build := fun rate =>
    match swap.taproot with
    | some contract =>
        contract.claimTx outpoint fundingValueSat dest
          (estimateSpendFee rate (contract.spendVsize dest true)) preimage swap.claimKey
    | none =>
        buildClaimTx outpoint fundingValueSat swap.htlcScript dest
          (estimateSpendFee rate (spendVsize swap.htlcScript dest true)) preimage swap.claimKey

/-- `anyhow!("claim broadcast/bump: {e}")`. -/
def claimError (e : SwapError) : DriverError :=
  .message ("claim broadcast/bump: " ++ e.display)

section

variable {Op' : Type} {Ans' : Op' → Type} (via : Bumping Op' Ans')

/-- One pass of the claim loop, over the spends of ours so far. -/
def claimPassOver (outpoint : OutPoint) (fundingValueSat : ℕ) (preimage : Preimage)
    (dest : Bytes) (poll fuel : ℕ) (ours : List Txid) :
    Program Op' Ans' DriverError (List Txid ⊕ SwapState) := do
  let (outcome, ours) ←
    (via.bump (claimJob swap outpoint fundingValueSat preimage dest poll ours) fuel
      ours).mapError claimError
  match outcome with
  | .confirmed _ => pure (.inr .claimed)
  | .conflictingSpend _ =>
      pure (.inr (.failed "the client's refund won the claim race after the invoice was paid"))
  | .deadlineExceeded .. => via.lift do
      sleep poll
      pure (.inl ours)

/-- Claim the HTLC with the preimage. -/
def claimFundedOver (resume : Resume) (outpoint : OutPoint) (fundingValueSat : ℕ)
    (preimage : Preimage) (poll fuel : ℕ) : Program Op' Ans' DriverError SwapState := do
  let dest ← via.lift receiveDestination
  iterate (claimPassOver swap via outpoint fundingValueSat preimage dest poll fuel) fuel
    resume.ourSpends

end

/-- `claimPassOver`, as the driver runs. -/
def claimPass (outpoint : OutPoint) (fundingValueSat : ℕ) (preimage : Preimage) (dest : Bytes)
    (poll fuel : ℕ) (ours : List Txid) : Driver DriverError (List Txid ⊕ SwapState) :=
  claimPassOver swap bumping outpoint fundingValueSat preimage dest poll fuel ours

/-- `claimFundedOver`, as the driver runs. -/
def claimFunded (resume : Resume) (outpoint : OutPoint) (fundingValueSat : ℕ)
    (preimage : Preimage) (poll fuel : ℕ) : Driver DriverError SwapState :=
  claimFundedOver swap bumping resume outpoint fundingValueSat preimage poll fuel

/-! ## The driver -/

/-- `drive_submarine_swap`, over what becomes of its calls of the fee-bump loop. -/
def driveSubmarineSwapOver {Op' : Type} {Ans' : Op' → Type} (via : Bumping Op' Ans')
    (requiredConfirmations poll : ℕ) (resume : Resume) (alreadyAttempted : Bool) (fuel : ℕ) :
    Program Op' Ans' DriverError SwapState := do
  match ← via.lift (locateFunding swap resume requiredConfirmations poll fuel) with
  | .inl state => pure state
  | .inr outpoint => do
      match ← via.lift
          (measureFunding swap alreadyAttempted outpoint requiredConfirmations poll) with
      | .inl state => pure state
      | .inr fundingValueSat => do
          match ← via.lift (obtainPayment swap resume alreadyAttempted poll) with
          | .inl state => pure state
          | .inr payment =>
              if paymentHash payment.preimage ≠ swap.paymentHash then
                pure (.failed "paid invoice preimage does not match HTLC hashlock")
              else
                claimFundedOver swap via resume outpoint fundingValueSat payment.preimage poll fuel

/-- `drive_submarine_swap`. -/
def driveSubmarineSwap (requiredConfirmations poll : ℕ) (resume : Resume)
    (alreadyAttempted : Bool) (fuel : ℕ) : Driver DriverError SwapState :=
  driveSubmarineSwapOver swap bumping requiredConfirmations poll resume alreadyAttempted fuel

end PubkySwap
