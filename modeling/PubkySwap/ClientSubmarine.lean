import PubkySwap.Chain
import PubkySwap.FeeBump
import PubkySwap.Record
import PubkySwap.Timelock

/-!
# The client's submarine swap

The client locks its own coins in the HTLC and is paid over Lightning.  It funds at
most once, waits for the provider to pay its invoice, and from the timeout on drives
its refund.  The only thing that tells a provider's claim from a refund is the
witness: a spend that reveals the preimage is the claim.

`executeSubmarineSwap` is cut, as in the source, into establishing the funding and
waiting for one of its ends.  `fuel` bounds the rounds of every loop.
-/

namespace PubkySwap

open BitcoinScript (Bytes)
open Program (orThrow iterate)

/-- `SubmarineFunding`: what the client needs to execute a submarine swap. -/
structure SubmarineFunding where
  htlcScript : Bytes
  htlcSpk : Bytes
  /-- What the client locks on chain. -/
  onchainAmountSat : ℕ
  /-- Of the client's own invoice, and in the HTLC's hashlock. -/
  paymentHash : PaymentHash
  refundKey : SecretKey
  /-- The height at which the refund branch opens. -/
  timeoutHeight : ℕ
  feeRateSatVb : ℕ
  deriving DecidableEq

namespace SubmarineFunding

/-- The window to pay and claim is gone, and nothing was committed. -/
def notFunding (funding : SubmarineFunding) (tip : ℕ) : DriverError :=
  .message ("this swap's HTLC times out at height " ++ toString funding.timeoutHeight ++
    " and the tip is " ++ toString tip ++ ", so there is no window left for the provider to pay " ++
    "and claim. Not funding it. Nothing was committed on chain.")

section

variable [Crypto] (funding : SubmarineFunding)

/-! ## The funding -/

/-- One look for a funding that may exist. -/
def awaitRound (watchPoll : ℕ) : Driver DriverError (Unit ⊕ Option OutPoint) := do
  match ← findFunding (chainError "find funding") funding.htlcSpk funding.onchainAmountSat with
  | some utxo => do
      funded utxo.outpoint
      pure (.inr (some utxo.outpoint))
  | none => do
      let history ← findHistoricalOutputs (chainError "script history") funding.htlcSpk
      match ← (selectRecordedFunding funding.htlcSpk funding.paymentHash funding.onchainAmountSat
          history).mapError fun e => .message ("select funding: " ++ e.display) with
      | some outpoint => do
          funded outpoint
          pure (.inr (some outpoint))
      | none => do
          let tip ← tipHeight (chainError "tip height")
          if funding.timeoutHeight ≤ tip then pure (.inr none)
          else do
            sleep watchPoll
            pure (.inl ())

/-- `await_recorded_funding`: wait for a funding that may have been broadcast, without
broadcasting another. -/
def awaitRecordedFunding (poll fuel : ℕ) : Driver DriverError (Option OutPoint) :=
  let watchPoll := if poll = 0 then poll else max poll (durationFromSecs 30)
  iterate (fun _ => funding.awaitRound watchPoll) fuel ()

/-- The end of `establish_funding`: record the intent, then fund. -/
def commitFunding (tip poll fuel : ℕ) : Driver DriverError (Option OutPoint) := do
  orThrow .message (← fundingIntent tip)
  match ← fundHtlc funding.htlcSpk funding.onchainAmountSat with
  | .ok outpoint => do
      funded outpoint
      pure (some outpoint)
  -- Not a failure to fund: a failure to know whether we funded.
  | .error _ => funding.awaitRecordedFunding poll fuel

/-- `establish_funding`; `none` when nothing was funded and nothing will be. -/
def establishFunding (resume : Resume) (poll fuel : ℕ) : Driver DriverError (Option OutPoint) :=
  match resume.funding with
  | some outpoint => pure (some outpoint)
  | none => do
      match ← findFunding (chainError "find funding") funding.htlcSpk funding.onchainAmountSat with
      | some utxo => do
          funded utxo.outpoint
          pure (some utxo.outpoint)
      | none =>
          if resume.fundingIntentAtHeight.isSome then funding.awaitRecordedFunding poll fuel
          else do
            let tip ← tipHeight (chainError "tip height")
            if claimStartIsSafe tip funding.timeoutHeight then funding.commitFunding tip poll fuel
            else Program.throw (funding.notFunding tip)

/-! ## Settlement or refund -/

/-- The refund, as the fee-bump loop drives it. -/
def refundJob (resume : Resume) (outpoint : OutPoint) (dest : Bytes) (poll : ℕ) :
    SpendJob Unit where
  spk := funding.htlcSpk
  outpoint := outpoint
  cfg :=
    let refundVsize := spendVsize funding.htlcScript dest false
    let cap := feeRateCap funding.onchainAmountSat refundVsize defaultMaxFeeBps
      absoluteMaxFeeRateSatVb funding.feeRateSatVb
    (SpendWatchConfig.refund refundFeeTargetBlocks funding.feeRateSatVb cap poll
      finalityDepth).withKnownOurs resume.ourSpends
  cpfp := some walletCpfp
  note := fun _ _ => ()
  build := fun rate =>
    buildRefundTx outpoint funding.onchainAmountSat funding.htlcScript dest
      (estimateSpendFee rate (spendVsize funding.htlcScript dest false)) funding.timeoutHeight
      funding.refundKey

section

variable {Op' : Type} {Ans' : Op' → Type} (via : Bumping Op' Ans')

/-- Drive the refund, unless the provider's claim gets in first. -/
def driveRefundOver (resume : Resume) (outpoint : OutPoint) (poll fuel : ℕ) :
    Program Op' Ans' DriverError (Unit ⊕ SwapState) := do
  let dest ← via.lift receiveDestination
  let (outcome, _) ← (via.bump (funding.refundJob resume outpoint dest poll) fuel ()).mapError
    (chainError "refund broadcast/bump")
  match outcome with
  | .confirmed _ => pure (.inr .refunded)
  | .conflictingSpend tx =>
      if (extractPreimage tx outpoint funding.paymentHash).isSome then pure (.inr .claimed)
      else via.lift do
        -- Taken for a refund of an earlier run.
        spendBroadcast (Crypto.computeTxid tx)
        pure (.inr .refunded)
  | .deadlineExceeded .. => pure (.inl ())

/-- At the timeout: the provider's claim, if the chain shows it, or our refund. -/
def atTimeoutOver (resume : Resume) (outpoint : OutPoint) (poll fuel : ℕ) :
    Program Op' Ans' DriverError (Unit ⊕ SwapState) := do
  match ← via.lift (findSpend (chainError "find spend") funding.htlcSpk outpoint) with
  | some spend =>
      if (extractPreimage spend outpoint funding.paymentHash).isSome then pure (.inr .claimed)
      else funding.driveRefundOver via resume outpoint poll fuel
  | none => funding.driveRefundOver via resume outpoint poll fuel

/-- One round: the invoice, then the timeout. -/
def settlementRoundOver (resume : Resume) (outpoint : OutPoint) (poll fuel : ℕ) :
    Program Op' Ans' DriverError (Unit ⊕ SwapState) := do
  let answer ← via.lift (invoiceState funding.paymentHash)
  let state ← via.lift (orThrow (lightningError "invoice state") answer)
  if state = .settled then pure (.inr .claimed)
  else do
    let tip ← via.lift (tipHeight (chainError "tip height"))
    if funding.timeoutHeight ≤ tip then funding.atTimeoutOver via resume outpoint poll fuel
    else via.lift do
      sleep poll
      pure (.inl ())

end

/-- `driveRefundOver`, as the driver runs. -/
def driveRefund (resume : Resume) (outpoint : OutPoint) (poll fuel : ℕ) :
    Driver DriverError (Unit ⊕ SwapState) :=
  funding.driveRefundOver bumping resume outpoint poll fuel

/-- `settlementRoundOver`, as the driver runs. -/
def settlementRound (resume : Resume) (outpoint : OutPoint) (poll fuel : ℕ) :
    Driver DriverError (Unit ⊕ SwapState) :=
  funding.settlementRoundOver bumping resume outpoint poll fuel

end

end SubmarineFunding

/-- `execute_submarine_swap`, over what becomes of its calls of the fee-bump loop. -/
def executeSubmarineSwapOver [Crypto] {Op' : Type} {Ans' : Op' → Type} (via : Bumping Op' Ans')
    (funding : SubmarineFunding) (poll : ℕ) (resume : Resume) (fuel : ℕ) :
    Program Op' Ans' DriverError SwapState := do
  match ← via.lift (funding.establishFunding resume poll fuel) with
  | none => pure .expired
  | some outpoint =>
      iterate (fun _ => funding.settlementRoundOver via resume outpoint poll fuel) fuel ()

/-- `execute_submarine_swap`. -/
def executeSubmarineSwap [Crypto] (funding : SubmarineFunding) (poll : ℕ) (resume : Resume)
    (fuel : ℕ) : Driver DriverError SwapState :=
  executeSubmarineSwapOver bumping funding poll resume fuel

end PubkySwap
