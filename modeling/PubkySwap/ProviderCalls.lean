import PubkySwap.Reverse
import PubkySwap.Submarine

/-!
# What the provider's drivers call

For each part of the two provider drivers, the calls it can make.  A report that moves the
state of a swap depends on what the record says already: the calls of `Resume.Establishes`,
`Resume.Locates` and `Resume.Pays` are those of a run resumed with it.
-/

namespace PubkySwap

open BitcoinScript (Bytes)
open Program (OnlyCalls onlyCalls_pure onlyCalls_orThrow onlyCalls_orThrow_bind)

/-! ## The reverse driver -/

/-- Waiting for the hold invoice to be accepted. -/
def Op.accepting : Op → Bool
  | .invoiceState _ | .tipHeight | .cancelHoldInvoice _ | .sleep _ => true
  | _ => false

/-- Looking for a funding that may exist. -/
def Op.seeking : Op → Bool
  | .findFunding .. | .findHistoricalOutputs _ | .findSpend .. | .funded _ | .tipHeight
  | .cancelHoldInvoice _ | .sleep _ => true
  | _ => false

/-- Establishing the funding: one is intended only on a record without a mark, and reported
only if none is recorded or a reorg has been seen. -/
def Resume.Establishes (resume : Resume) : Op → Prop
  | .findOutputs _ | .findFunding .. | .findHistoricalOutputs _ | .findSpend .. | .tipHeight
  | .cancelHoldInvoice _ | .sleep _ | .invoiceStatus _ | .fundHtlc .. => True
  | .fundingIntent _ => resume.marked = false
  | .funded _ => resume.funding = none ∨ resume.reorgSeenAtHeight.isSome = true
  | _ => False

/-- Reporting and settling what a claim is worth. -/
def Op.collecting : Op → Bool
  | .txConfirmations .. | .claimable _ | .claimObserved _ | .settleHoldInvoice _ => true
  | _ => false

/-- Watching the funded output. -/
def Op.watches : Op → Bool
  | .wantsClaimable | .receiveDestination | .claimable _ | .claimObserved _
  | .settleHoldInvoice _ | .cancelHoldInvoice _ => true
  | op => op.spending

/-- Looking for a funding reports the one it finds, which is allowed if none is recorded or if
a reorg has put the recorded one in doubt. -/
theorem Resume.establishes_of_seeking {resume : Resume}
    (h : resume.funding = none ∨ resume.reorgSeenAtHeight.isSome = true) {op : Op}
    (hop : op.seeking = true) : resume.Establishes op := by
  cases op <;> trivial

/-- What a claim is worth is collected while the output is watched. -/
theorem Op.watches_of_collecting {op : Op} (h : op.collecting = true) : op.watches = true := by
  cases op <;> trivial

/-- The fee-bump loop runs while the output is watched. -/
theorem Op.watches_of_spending {op : Op} (h : op.spending = true) : op.watches = true := by
  cases op <;> trivial

section

variable [Crypto] {swap : ReverseSwap} {resume : Resume} {outpoint : OutPoint} {dest : Bytes}
  {requiredConfirmations poll fuel : ℕ}

omit [Crypto] in
/-- Giving up makes one call, whatever is allowed besides. -/
theorem calls_cancelInvoice {P : Op → Prop} {hash : PaymentHash} (h : P (.cancelHoldInvoice hash)) :
    OnlyCalls P (cancelInvoice hash) :=
  ⟨h, fun _ => trivial⟩

/-- Nothing is funded while the payer's part of the payment is awaited. -/
theorem calls_awaitAcceptance :
    OnlyCalls (fun op => op.accepting = true) (awaitAcceptance swap resume poll fuel) := by
  unfold awaitAcceptance
  split
  · trivial
  · refine OnlyCalls.iterate (fun _ => ?_) fuel ()
    refine ⟨rfl, fun answer => onlyCalls_orThrow_bind fun state _ => ?_⟩
    cases state with
    | accepted => trivial
    | settled => trivial
    | cancelled => trivial
    | opened =>
        refine ⟨rfl, fun answer => onlyCalls_orThrow_bind fun tip _ => ?_⟩
        split
        · exact OnlyCalls.bind (fun _ => onlyCalls_pure _) (calls_cancelInvoice rfl)
        · exact ⟨rfl, fun _ => trivial⟩

/-- A funding that may have been broadcast is looked for, and waited for, and never made
again. -/
theorem calls_awaitRecordedFunding :
    OnlyCalls (fun op => op.seeking = true) (awaitRecordedFunding swap poll fuel) := by
  refine OnlyCalls.iterate (fun _ => ?_) fuel ()
  refine ⟨rfl, fun answer => onlyCalls_orThrow_bind fun found _ => ?_⟩
  cases found with
  | some utxo => exact ⟨rfl, fun _ => trivial⟩
  | none =>
      refine ⟨rfl, fun answer => onlyCalls_orThrow_bind fun history _ => ?_⟩
      refine OnlyCalls.bind (fun chosen => ?_)
        ((searches_selectRecordedFunding ..).mono fun op hop => ?_)
      · cases chosen with
        | some outpoint => exact ⟨rfl, fun _ => trivial⟩
        | none =>
            refine ⟨rfl, fun answer => onlyCalls_orThrow_bind fun tip _ => ?_⟩
            split
            · exact OnlyCalls.bind (fun _ => onlyCalls_pure _) (calls_cancelInvoice rfl)
            · exact ⟨rfl, fun _ => trivial⟩
      · cases op <;> trivial

/-- The funding is intended, made and reported, in this order, on a record without a mark.
One that fails may have been broadcast all the same, and is looked for. -/
theorem calls_commitFunding (hmarked : resume.marked = false) (tip : ℕ) :
    OnlyCalls resume.Establishes (commitFunding swap tip poll fuel) := by
  have hnone : resume.funding = none := by
    simp only [Resume.marked, Bool.or_eq_false_iff, Option.isSome_eq_false_iff] at hmarked
    exact Option.isNone_iff_eq_none.mp hmarked.1
  refine ⟨hmarked, fun answer => ?_⟩
  cases answer with
  | error e => exact OnlyCalls.bind (fun _ => onlyCalls_pure _) (calls_cancelInvoice trivial)
  | ok _ =>
      refine ⟨trivial, fun answer => ?_⟩
      cases answer with
      | ok outpoint => exact ⟨.inl hnone, fun _ => trivial⟩
      | error e =>
          exact calls_awaitRecordedFunding.mono fun _ => Resume.establishes_of_seeking (.inl hnone)

/-- The invoice and the tip are read once more before anything is committed, and each refusal
gives the swap up. -/
theorem calls_fundWithinTimelocks (hmarked : resume.marked = false) :
    OnlyCalls resume.Establishes (fundWithinTimelocks swap poll fuel) := by
  refine ⟨trivial, fun answer => onlyCalls_orThrow_bind fun status _ => ?_⟩
  split
  · exact OnlyCalls.bind (fun _ => onlyCalls_pure _) (calls_cancelInvoice trivial)
  · refine ⟨trivial, fun answer => onlyCalls_orThrow_bind fun tip _ => ?_⟩
    split
    · exact OnlyCalls.bind (fun _ => onlyCalls_pure _) (calls_cancelInvoice trivial)
    · exact calls_commitFunding hmarked tip

/-- **What establishing the funding calls**, on a record. -/
theorem calls_establishFunding :
    OnlyCalls resume.Establishes
      (establishFunding swap resume requiredConfirmations poll fuel) := by
  unfold establishFunding
  split
  · split
    · trivial
    · rename_i hreorg
      refine ⟨trivial, fun answer => onlyCalls_orThrow_bind fun outputs _ => ?_⟩
      split
      · trivial
      · refine calls_awaitRecordedFunding.mono fun _ => Resume.establishes_of_seeking (.inr ?_)
        rw [hreorg]
        rfl
  · rename_i hnone
    refine ⟨trivial, fun answer => onlyCalls_orThrow_bind fun found _ => ?_⟩
    cases found with
    | some utxo => exact ⟨.inl hnone, fun _ => trivial⟩
    | none =>
        dsimp only
        split
        · exact calls_awaitRecordedFunding.mono fun _ => Resume.establishes_of_seeking (.inl hnone)
        · rename_i hintent
          refine calls_fundWithinTimelocks ?_
          rw [Resume.marked, hnone, Bool.eq_false_of_not_eq_true hintent]
          rfl

/-- The hint is given from the depth of the funding alone. -/
theorem calls_hintClaimable (spend : Option Transaction) (hintDue : Bool) :
    OnlyCalls (fun op => op.collecting = true)
      (hintClaimable swap outpoint requiredConfirmations spend hintDue) := by
  unfold hintClaimable
  split
  · refine ⟨rfl, fun answer => ?_⟩
    rcases answer with e | _ | confirmations
    · trivial
    · trivial
    · show OnlyCalls _ (if _ then _ else _)
      split
      · exact ⟨rfl, fun _ => trivial⟩
      · trivial
  · trivial

/-- A claim that shows the preimage is reported, and the invoice settled by it. -/
theorem calls_collect (settled : Bool) (spend : Option Transaction) :
    OnlyCalls (fun op => op.collecting = true) (collect swap outpoint settled spend) := by
  cases spend with
  | none => trivial
  | some tx =>
      unfold collect
      dsimp only
      split
      · trivial
      · refine OnlyCalls.bind (fun settled' => ?_) ?_
        · split
          · exact ⟨rfl, fun answer => onlyCalls_orThrow_bind fun depth _ => trivial⟩
          · trivial
        · cases settled with
          | true => trivial
          | false =>
              refine ⟨rfl, fun _ => ⟨rfl, fun answer => ?_⟩⟩
              cases answer <;> trivial

/-- A round of the refund drives the fee-bump loop, or cancels what it has refunded. -/
theorem calls_refundRound (w : ClaimWatch) :
    OnlyCalls (fun op => op.watches = true)
      (refundRound swap resume outpoint dest poll fuel w) := by
  unfold refundRound refundRoundOver
  split
  · exact ⟨rfl, fun _ => trivial⟩
  · have hbump : Spending (confirmOrBump (refundJob swap resume outpoint dest poll) fuel ()) := by
      refine spending_confirmOrBump ?_ fuel ()
      rintro _ ⟨⟩
      exact spending_walletCpfp
    refine OnlyCalls.bind (fun r => ?_) (hbump.mono fun _ => Op.watches_of_spending).mapError
    obtain ⟨outcome, -⟩ := r
    cases outcome with
    | confirmed txid =>
        exact OnlyCalls.bind (fun _ => onlyCalls_pure _) (calls_cancelInvoice rfl)
    | conflictingSpend tx => exact ⟨rfl, fun _ => trivial⟩
    | deadlineExceeded lastTxid tip => exact ⟨rfl, fun _ => trivial⟩

/-- **What watching a funded output calls**: nothing that establishes a funding. -/
theorem calls_watchFunded :
    OnlyCalls (fun op => op.watches = true)
      (watchFunded swap resume outpoint requiredConfirmations poll fuel) := by
  refine ⟨rfl, fun hintDue => ⟨rfl, fun dest => ?_⟩⟩
  refine OnlyCalls.iterate (fun w => ?_) fuel _
  refine ⟨rfl, fun answer => onlyCalls_orThrow_bind fun spend _ => ?_⟩
  refine OnlyCalls.bind (fun hintDue' => ?_)
    ((calls_hintClaimable spend w.hintDue).mono fun _ => Op.watches_of_collecting)
  refine OnlyCalls.bind (fun r => ?_)
    ((calls_collect w.settled spend).mono fun _ => Op.watches_of_collecting)
  obtain ⟨settled, buried⟩ := r
  dsimp only
  split
  · trivial
  · refine ⟨rfl, fun answer => onlyCalls_orThrow_bind fun tip _ => ?_⟩
    split
    · exact calls_refundRound _
    · exact ⟨rfl, fun _ => trivial⟩

end

/-! ## The submarine driver -/

/-- Finding the funding: it is reported only if none is recorded. -/
def Resume.Locates (resume : Resume) : Op → Prop
  | .findSpend .. | .findOutputs _ | .tipHeight | .sleep _ => True
  | .funded _ => resume.funding = none
  | _ => False

/-- Looking at the output. -/
def Op.measuring : Op → Bool
  | .outpointStatus .. | .findSpend .. | .paymentStatus _ | .sleep _ => true
  | _ => false

/-- Paying: a payment is started only if the funding or an earlier payment is not recorded. -/
def Resume.Pays (resume : Resume) (alreadyAttempted : Bool) : Op → Prop
  | .paymentStatus _ | .tipHeight | .payInvoice .. | .invoicePaid | .sleep _ => True
  | .invoicePayStarted => ¬(resume.funding.isSome ∧ alreadyAttempted)
  | _ => False

/-- Claiming the output. -/
def Op.claims : Op → Bool
  | .receiveDestination => true
  | op => op.spending

/-- The fee-bump loop runs while the output is claimed. -/
theorem Op.claims_of_spending {op : Op} (h : op.spending = true) : op.claims = true := by
  cases op <;> trivial

section

variable [Crypto] {swap : SubmarineSwap} {resume : Resume} {outpoint : OutPoint}
  {requiredConfirmations poll fuel : ℕ} {alreadyAttempted : Bool}

/-- A funding is reported only if the record has none: one that is recorded is taken as it
is. -/
theorem calls_locateFunding :
    OnlyCalls resume.Locates (locateFunding swap resume requiredConfirmations poll fuel) := by
  unfold locateFunding
  split
  · refine ⟨trivial, fun answer => onlyCalls_orThrow_bind fun spend _ => ?_⟩
    cases spend with
    | none => trivial
    | some spend =>
        dsimp only
        split <;> trivial
  · rename_i hnone
    refine OnlyCalls.iterate (fun _ => ?_) fuel ()
    refine ⟨trivial, fun answer => onlyCalls_orThrow_bind fun outputs _ => ?_⟩
    split
    · trivial
    · trivial
    · trivial
    · refine OnlyCalls.bind (fun adopted => ?_) ?_
      · cases adopted with
        | some outpoint => trivial
        | none =>
            refine ⟨trivial, fun answer => onlyCalls_orThrow_bind fun tip _ => ?_⟩
            split
            · trivial
            · exact ⟨trivial, fun _ => trivial⟩
      · generalize FundingSelection.adopted _ = adopted
        cases adopted with
        | none => trivial
        | some utxo =>
            show OnlyCalls _ (if _ then _ else _)
            split
            · exact ⟨hnone, fun _ => trivial⟩
            · trivial

/-- A recorded funding that the chain does not show may be spent or reorganised away, which is
asked of the chain before anything is decided. -/
theorem calls_missingFunding :
    OnlyCalls (fun op => op.measuring = true)
      (missingFunding swap alreadyAttempted outpoint poll) := by
  refine ⟨rfl, fun answer => onlyCalls_orThrow_bind fun spend _ => ?_⟩
  cases spend with
  | some spend => trivial
  | none =>
      dsimp only
      split
      · refine ⟨rfl, fun answer => onlyCalls_orThrow_bind fun status _ => ?_⟩
        cases status with
        | failed reason => trivial
        | unknown => exact ⟨rfl, fun _ => trivial⟩
        | notFound => exact ⟨rfl, fun _ => trivial⟩
        | inFlight => exact ⟨rfl, fun _ => trivial⟩
        | succeeded result => exact ⟨rfl, fun _ => trivial⟩
      · trivial

/-- The depth and the value of the funding are read, and no money moves. -/
theorem calls_measureFunding :
    OnlyCalls (fun op => op.measuring = true)
      (measureFunding swap alreadyAttempted outpoint requiredConfirmations poll) := by
  refine ⟨rfl, fun answer => onlyCalls_orThrow_bind fun status _ => ?_⟩
  cases status with
  | none => exact OnlyCalls.bind (fun _ => onlyCalls_pure _) calls_missingFunding
  | some utxo =>
      show OnlyCalls _ (if _ then _ else _)
      split
      · trivial
      · exact OnlyCalls.bind (fun _ => onlyCalls_pure _) calls_missingFunding

/-- The payment is reported as started, and then made, in one place of the driver, which a run
that has both on record does not come to. -/
theorem calls_payWithinTimelocks (h : ¬(resume.funding.isSome ∧ alreadyAttempted)) :
    OnlyCalls (resume.Pays alreadyAttempted) (payWithinTimelocks swap) := by
  refine ⟨trivial, fun answer => onlyCalls_orThrow_bind fun tip _ => ?_⟩
  split
  · trivial
  · split
    · trivial
    · refine ⟨h, fun recorded => onlyCalls_orThrow_bind fun _ _ => ⟨trivial, fun answer => ?_⟩⟩
      rcases answer with (_ | _ | _ | _) | payment
      · trivial
      · trivial
      · trivial
      · trivial
      · exact ⟨trivial, fun _ => trivial⟩

/-- **What obtaining the payment calls**, on a record. -/
theorem calls_obtainPayment :
    OnlyCalls (resume.Pays alreadyAttempted)
      (obtainPayment swap resume alreadyAttempted poll) := by
  refine OnlyCalls.bind (fun r => ?_) (OnlyCalls.repeatUpTo (fun _ => ?_) _ _)
  · cases r <;> trivial
  · refine ⟨trivial, fun answer => onlyCalls_orThrow_bind fun status _ => ?_⟩
    have hunrecorded : OnlyCalls (resume.Pays alreadyAttempted)
        (if resume.funding.isSome ∧ alreadyAttempted then
          (do sleep poll; pure (.inl ()) : Driver DriverError (Unit ⊕ (SwapState ⊕ PaymentResult)))
        else payWithinTimelocks swap >>= fun outcome => pure (.inr outcome)) := by
      split
      · exact ⟨trivial, fun _ => trivial⟩
      · rename_i h
        exact OnlyCalls.bind (fun _ => onlyCalls_pure _) (calls_payWithinTimelocks h)
    cases status with
    | succeeded payment => exact ⟨trivial, fun _ => trivial⟩
    | inFlight => exact ⟨trivial, fun _ => trivial⟩
    | failed reason => trivial
    | unknown => exact hunrecorded
    | notFound => exact hunrecorded

/-- **What the claim calls.** -/
theorem calls_claimFunded {fundingValueSat : ℕ} {preimage : Preimage} :
    OnlyCalls (fun op => op.claims = true)
      (claimFunded swap resume outpoint fundingValueSat preimage poll fuel) := by
  refine ⟨rfl, fun dest => OnlyCalls.iterate (fun ours => ?_) fuel _⟩
  have hbump : Spending (confirmOrBump
      (claimJob swap outpoint fundingValueSat preimage dest poll ours) fuel ours) := by
    refine spending_confirmOrBump ?_ fuel ours
    rintro _ ⟨⟩
    exact spending_walletCpfp
  refine OnlyCalls.bind (fun r => ?_) (hbump.mono fun _ => Op.claims_of_spending).mapError
  obtain ⟨outcome, ours'⟩ := r
  cases outcome with
  | confirmed txid => trivial
  | conflictingSpend tx => trivial
  | deadlineExceeded lastTxid tip => exact ⟨rfl, fun _ => trivial⟩

end

end PubkySwap
