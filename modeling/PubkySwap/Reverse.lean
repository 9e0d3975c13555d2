import PubkySwap.Chain
import PubkySwap.FeeBump
import PubkySwap.Record
import PubkySwap.Taproot
import PubkySwap.Timelock

/-!
# The reverse driver

A reverse swap is paid over Lightning and settled on chain: once the client's
payment is held, the provider funds the HTLC, watches for the claim that reveals
the preimage, settles with it, and refunds at the timeout if nobody claims.

`driveReverseSwap` is cut, as in the source, into establishing the funding
without ever funding twice and watching the funded output.  `fuel` bounds the
rounds of every loop, so a statement about every `fuel` is one about every
finite part of every run.
-/

namespace PubkySwap

open BitcoinScript (Bytes)
open Program (orThrow iterate)

/-- `ReverseSwap`: what the driver reads of one swap. -/
structure ReverseSwap [Crypto] where
  paymentHash : PaymentHash
  /-- Locked on chain: what the client receives, before its claim's fee. -/
  onchainAmountSat : ℕ
  feeRateSatVb : ℕ
  htlcScript : Bytes
  htlcSpk : Bytes
  taproot : Option BoltzTaprootSwap
  timeoutHeight : ℕ
  refundKey : SecretKey
  timelock : TimelockParams

/-- The result of trying to put the swap's coins into the HTLC. -/
inductive FundingOutcome where
  | funded (outpoint : OutPoint)
  /-- Nothing was committed, and the state to report. -/
  | refused (state : SwapState)

/-- `cancel_hold_invoice`: a failure is logged and nothing else. -/
def cancelInvoice (hash : PaymentHash) : Driver DriverError Unit := do
  let _ ← cancelHoldInvoice hash
  pure ()

variable [Crypto] (swap : ReverseSwap)

/-! ## The funding -/

/-- One look for a funding that may exist. -/
def awaitRound (watchPoll : ℕ) : Driver DriverError (Unit ⊕ FundingOutcome) := do
  match ← findFunding .swap swap.htlcSpk swap.onchainAmountSat with
  | some utxo => do
      funded utxo.outpoint
      pure (.inr (.funded utxo.outpoint))
  | none => do
      let history ← findHistoricalOutputs .swap swap.htlcSpk
      match ← selectRecordedFunding swap.htlcSpk swap.paymentHash swap.onchainAmountSat history with
      | some outpoint => do
          funded outpoint
          pure (.inr (.funded outpoint))
      | none => do
          let tip ← tipHeight .swap
          if swap.timeoutHeight ≤ tip then do
            cancelInvoice swap.paymentHash
            pure (.inr (.refused .expired))
          else do
            sleep watchPoll
            pure (.inl ())

/-- `await_recorded_funding`: look for a funding this swap may have broadcast,
without ever broadcasting another. -/
def awaitRecordedFunding (poll fuel : ℕ) : Driver DriverError FundingOutcome :=
  let watchPoll := if poll = 0 then poll else max poll (durationFromSecs 30)
  iterate (fun _ => awaitRound swap watchPoll) fuel ()

/-- The end of `establish_funding`: record the intent, then fund. -/
def commitFunding (tip poll fuel : ℕ) : Driver DriverError FundingOutcome := do
  match ← fundingIntent tip with
  | .error e => do
      cancelInvoice swap.paymentHash
      pure (.refused (.failed ("could not record the funding intent: " ++ e)))
  | .ok () => do
      match ← fundHtlc swap.htlcSpk swap.onchainAmountSat with
      | .ok outpoint => do
          funded outpoint
          pure (.funded outpoint)
      -- Not a failure to fund: a failure to know whether we funded.
      | .error _ => awaitRecordedFunding swap poll fuel

/-- The middle of `establish_funding`: the realised timelocks. -/
def fundWithinTimelocks (poll fuel : ℕ) : Driver DriverError FundingOutcome := do
  let answer ← invoiceStatus swap.paymentHash
  let status ← orThrow (lightningError "invoice status") answer
  match status.earliestHtlcExpiry with
  | none => do
      cancelInvoice swap.paymentHash
      pure (.refused (.failed "no held HTLC on an accepted invoice"))
  | some lnExpiry => do
      let tip ← tipHeight .swap
      match checkReverseBeforeFund tip swap.timeoutHeight lnExpiry swap.timelock with
      | .error violation => do
          cancelInvoice swap.paymentHash
          pure (.refused (.failed ("timelock violation: " ++ violation.display)))
      | .ok () => commitFunding swap tip poll fuel

/-- `establish_funding`. -/
def establishFunding (resume : Resume) (requiredConfirmations poll fuel : ℕ) :
    Driver DriverError FundingOutcome :=
  match resume.funding with
  | some outpoint =>
      match resume.reorgSeenAtHeight with
      | none => pure (.funded outpoint)
      | some _ => do
          let outputs ← findOutputs .swap swap.htlcSpk
          if outputs.any fun u =>
              u.outpoint = outpoint ∧ requiredConfirmations ≤ u.confirmations then
            pure (.funded outpoint)
          else awaitRecordedFunding swap poll fuel
  | none => do
      match ← findFunding .swap swap.htlcSpk swap.onchainAmountSat with
      | some utxo => do
          funded utxo.outpoint
          pure (.funded utxo.outpoint)
      | none =>
          if resume.fundingIntentAtHeight.isSome then awaitRecordedFunding swap poll fuel
          else fundWithinTimelocks swap poll fuel

/-! ## The watch for the claim -/

/-- What the watch carries from round to round. -/
structure ClaimWatch where
  hintDue : Bool
  settled : Bool

/-- Tell an owner that asked for it that the lockup is at depth. -/
def hintClaimable (outpoint : OutPoint) (requiredConfirmations : ℕ)
    (spend : Option Transaction) (hintDue : Bool) : Driver DriverError Bool :=
  if hintDue ∧ spend.isNone then do
    match ← tryTxConfirmations swap.htlcSpk outpoint.txid with
    | .ok (some confirmations) =>
        if max requiredConfirmations 1 ≤ confirmations then do
          claimable outpoint
          pure false
        else pure hintDue
    | _ => pure hintDue
  else pure (hintDue && spend.isNone)

/-- Settle the hold invoice, unless that has been done. -/
def settleOnce (spend : Transaction) (preimage : Preimage) (settled : Bool) :
    Driver DriverError Bool :=
  if settled then pure true
  else do
    claimObserved (Crypto.computeTxid spend)
    match ← settleHoldInvoice preimage with
    | .ok () => pure true
    | .error _ => pure false

/-- What a spend of the output is worth: whether the invoice is settled by now,
and whether the claim is buried as well. -/
def collect (outpoint : OutPoint) (settled : Bool) :
    Option Transaction → Driver DriverError (Bool × Bool)
  | none => pure (settled, false)
  | some spend =>
      match extractPreimage spend outpoint swap.paymentHash with
      | none => pure (settled, false)
      | some preimage => do
          let settled ← settleOnce spend preimage settled
          if settled then do
            let depth ← txConfirmations .swap swap.htlcSpk (Crypto.computeTxid spend)
            pure (true, depth.any (finalityDepth ≤ ·))
          else pure (false, false)

/-- The refund, as the fee-bump loop drives it. -/
def refundJob (resume : Resume) (outpoint : OutPoint) (dest : Bytes) (poll : ℕ) :
    SpendJob Unit where
  spk := swap.htlcSpk
  outpoint := outpoint
  cfg :=
    let refundVsize := match swap.taproot with
      | none => spendVsize swap.htlcScript dest false
      | some contract => contract.spendVsize dest false
    let cap := feeRateCap swap.onchainAmountSat refundVsize defaultMaxFeeBps
      absoluteMaxFeeRateSatVb swap.feeRateSatVb
    (SpendWatchConfig.refund refundFeeTargetBlocks swap.feeRateSatVb cap poll
      finalityDepth).withKnownOurs resume.ourSpends
  cpfp := some walletCpfp
  note := fun _ _ => ()
  build := fun rate =>
    match swap.taproot with
    | some contract =>
        contract.refundTx outpoint swap.onchainAmountSat dest
          (estimateSpendFee rate (contract.spendVsize dest false)) swap.refundKey
    | none =>
        buildRefundTx outpoint swap.onchainAmountSat swap.htlcScript dest
          (estimateSpendFee rate (spendVsize swap.htlcScript dest false)) swap.timeoutHeight
          swap.refundKey

/-- `anyhow!("refund broadcast/bump: {e}")`. -/
def refundError (e : SwapError) : DriverError :=
  .message ("refund broadcast/bump: " ++ e.display)

section

variable {Op' : Type} {Ans' : Op' → Type} (via : Bumping Op' Ans')

/-- At the timeout: refund, unless the Lightning leg is already ours. -/
def refundRoundOver (resume : Resume) (outpoint : OutPoint) (dest : Bytes) (poll fuel : ℕ)
    (w : ClaimWatch) : Program Op' Ans' DriverError (ClaimWatch ⊕ SwapState) :=
  if w.settled then via.lift do
    sleep poll
    pure (.inl w)
  else do
    let (outcome, _) ← (via.bump (refundJob swap resume outpoint dest poll) fuel ()).mapError
      refundError
    match outcome with
    | .confirmed _ => via.lift do
        cancelInvoice swap.paymentHash
        pure (.inr .refunded)
    | .conflictingSpend _ => via.lift do
        sleep poll
        pure (.inl w)
    | .deadlineExceeded .. => via.lift do
        sleep poll
        pure (.inl w)

/-- One round: the spend, what it is worth, and the timeout. -/
def claimWatchRoundOver (resume : Resume) (outpoint : OutPoint) (dest : Bytes)
    (requiredConfirmations poll fuel : ℕ) (w : ClaimWatch) :
    Program Op' Ans' DriverError (ClaimWatch ⊕ SwapState) := do
  let spend ← via.lift (findSpend .swap swap.htlcSpk outpoint)
  let hintDue ← via.lift (hintClaimable swap outpoint requiredConfirmations spend w.hintDue)
  let (settled, buried) ← via.lift (collect swap outpoint w.settled spend)
  if buried then pure (.inr .claimed)
  else do
    let tip ← via.lift (tipHeight .swap)
    if swap.timeoutHeight ≤ tip then
      refundRoundOver swap via resume outpoint dest poll fuel ⟨hintDue, settled⟩
    else via.lift do
      sleep poll
      pure (.inl ⟨hintDue, settled⟩)

/-- Watch a funded output to a claim or a refund. -/
def watchFundedOver (resume : Resume) (outpoint : OutPoint)
    (requiredConfirmations poll fuel : ℕ) : Program Op' Ans' DriverError SwapState := do
  let hintDue ← via.lift wantsClaimable
  let dest ← via.lift receiveDestination
  iterate (claimWatchRoundOver swap via resume outpoint dest requiredConfirmations poll fuel) fuel
    ⟨hintDue, false⟩

end

/-- `refundRoundOver`, as the driver runs. -/
def refundRound (resume : Resume) (outpoint : OutPoint) (dest : Bytes) (poll fuel : ℕ)
    (w : ClaimWatch) : Driver DriverError (ClaimWatch ⊕ SwapState) :=
  refundRoundOver swap bumping resume outpoint dest poll fuel w

/-- `claimWatchRoundOver`, as the driver runs. -/
def claimWatchRound (resume : Resume) (outpoint : OutPoint) (dest : Bytes)
    (requiredConfirmations poll fuel : ℕ) (w : ClaimWatch) :
    Driver DriverError (ClaimWatch ⊕ SwapState) :=
  claimWatchRoundOver swap bumping resume outpoint dest requiredConfirmations poll fuel w

/-- `watchFundedOver`, as the driver runs. -/
def watchFunded (resume : Resume) (outpoint : OutPoint) (requiredConfirmations poll fuel : ℕ) :
    Driver DriverError SwapState :=
  watchFundedOver swap bumping resume outpoint requiredConfirmations poll fuel

/-! ## The driver -/

/-- One look at the hold invoice; `none` once it is accepted. -/
def invoiceRound (poll : ℕ) : Driver DriverError (Unit ⊕ Option SwapState) := do
  let answer ← invoiceState swap.paymentHash
  match ← orThrow (lightningError "invoice state") answer with
  | .accepted => pure (.inr none)
  | .settled => pure (.inr (some .claimed))
  | .cancelled => pure (.inr (some (.failed "hold invoice cancelled")))
  | .opened => do
      let tip ← tipHeight .swap
      if swap.timeoutHeight ≤ tip then do
        cancelInvoice swap.paymentHash
        pure (.inr (some .expired))
      else do
        sleep poll
        pure (.inl ())

/-- Wait for the client to pay, unless a funding may already exist. -/
def awaitAcceptance (resume : Resume) (poll fuel : ℕ) : Driver DriverError (Option SwapState) :=
  if resume.funding.isSome ∨ resume.fundingIntentAtHeight.isSome then pure none
  else iterate (fun _ => invoiceRound swap poll) fuel ()

/-- `drive_reverse_swap`, over what becomes of its calls of the fee-bump loop. -/
def driveReverseSwapOver {Op' : Type} {Ans' : Op' → Type} (via : Bumping Op' Ans')
    (requiredConfirmations poll : ℕ) (resume : Resume) (fuel : ℕ) :
    Program Op' Ans' DriverError SwapState := do
  match ← via.lift (awaitAcceptance swap resume poll fuel) with
  | some state => pure state
  | none => do
      match ← via.lift (establishFunding swap resume requiredConfirmations poll fuel) with
      | .refused state => pure state
      | .funded outpoint =>
          watchFundedOver swap via resume outpoint requiredConfirmations poll fuel

/-- `drive_reverse_swap`. -/
def driveReverseSwap (requiredConfirmations poll : ℕ) (resume : Resume) (fuel : ℕ) :
    Driver DriverError SwapState :=
  driveReverseSwapOver swap bumping requiredConfirmations poll resume fuel

end PubkySwap
