import PubkySwap.BumpVerdict
import PubkySwap.ClientSubmarine
import PubkySwap.Lib.MarkedProgram
import PubkySwap.Reverse
import PubkySwap.Submarine

/-!
# What a driver tells the fee-bump loop

A driver that spends an HTLC calls `confirmOrBump` again and again until the output is spent
for good, and tells each call which spends are its own.  To see what a call is told, such a
driver leaves marks (`marking`): a call is marked with its arguments, the spends it is told of
among them, and, once it is over, with its outcome.

Taking the marks out leaves the drivers as they are (`erase_markedDriveReverseSwap`,
`erase_markedDriveSubmarineSwap`, `erase_markedExecuteSubmarineSwap`), so every run of a
driver is one of the marked driver without its marks (`exists_marked_run`).
-/

namespace PubkySwap

open BitcoinScript (Bytes)
open Program (iterate mark plain erase markEvent erase_bind erase_mapError erase_plain
  erase_mark_bind erase_iterate Run Ending)

/-- What is marked: a call with its arguments, and the outcome it returned. -/
inductive BumpMark where
  | called (cfg : SpendWatchConfig) (build : ℕ → Except SwapError Transaction)
  | ended (outcome : SpendOutcome)

/-- A driver, or a part of one, that marks its calls of the fee-bump loop. -/
abbrev MarkedDriver (ε α : Type) : Type := Program.Marked Op Ans BumpMark ε α

/-- An exchange of a marked driver. -/
abbrev MarkedEvent : Type := Program.MarkedEvent Op Ans BumpMark

variable [Crypto]

/-- A call of `confirm_or_bump`, between its marks. -/
def markedBump {τ : Type} (job : SpendJob τ) (fuel : ℕ) (seen : τ) :
    MarkedDriver SwapError (SpendOutcome × τ) := do
  mark (.called job.cfg job.build)
  let (outcome, seen) ← plain (confirmOrBump job fuel seen)
  mark (.ended outcome)
  pure (outcome, seen)

/-- Without its marks, a call of `confirm_or_bump` is that call. -/
theorem erase_markedBump {τ : Type} (job : SpendJob τ) (fuel : ℕ) (seen : τ) :
    erase (markedBump job fuel seen) = confirmOrBump job fuel seen := by
  show erase ((plain (confirmOrBump job fuel seen)).bind _) = _
  rw [erase_bind, erase_plain]
  exact Program.bind_pure _

/-- A driver that marks its calls of the fee-bump loop. -/
@[reducible] def marking : Bumping (Op ⊕ BumpMark) (Program.MarkedAns Ans BumpMark) where
  lift := plain
  bump := markedBump

/-- A call without its marks, whatever becomes of its error. -/
theorem erase_bump {ε τ : Type} (job : SpendJob τ) (fuel : ℕ) (seen : τ) (f : SwapError → ε) :
    erase ((marking.bump job fuel seen).mapError f) = (bumping.bump job fuel seen).mapError f := by
  rw [erase_mapError]
  exact congrArg _ (erase_markedBump job fuel seen)

/-! ## The reverse driver -/

section

variable (swap : ReverseSwap)

/-- `drive_reverse_swap`, its calls of `confirm_or_bump` marked. -/
def markedDriveReverseSwap (requiredConfirmations poll : ℕ) (resume : Resume) (fuel : ℕ) :
    MarkedDriver DriverError SwapState :=
  driveReverseSwapOver swap marking requiredConfirmations poll resume fuel

/-- A round of the refund: what it does besides its call of `confirm_or_bump` is not
marked. -/
theorem erase_refundRound (resume : Resume) (outpoint : OutPoint) (dest : Bytes) (poll fuel : ℕ)
    (w : ClaimWatch) : erase (refundRoundOver swap marking resume outpoint dest poll fuel w) =
      refundRoundOver swap bumping resume outpoint dest poll fuel w := by
  unfold refundRoundOver
  split
  · exact erase_plain _
  · rw [Program.bind_eq, erase_bind, erase_bump, Program.bind_eq]
    congr 1
    funext r
    obtain ⟨outcome, seen⟩ := r
    cases outcome <;> exact erase_plain _

/-- A round of the watch, of which one branch is a round of the refund. -/
theorem erase_claimWatchRound (resume : Resume) (outpoint : OutPoint) (dest : Bytes)
    (requiredConfirmations poll fuel : ℕ) (w : ClaimWatch) :
    erase (claimWatchRoundOver swap marking resume outpoint dest requiredConfirmations poll
        fuel w) =
      claimWatchRoundOver swap bumping resume outpoint dest requiredConfirmations poll fuel w := by
  simp only [claimWatchRoundOver, Program.bind_eq, erase_bind, erase_plain]
  congr 1
  funext spend
  congr 1
  funext hintDue
  congr 1
  funext r
  obtain ⟨settled, buried⟩ := r
  dsimp only
  split
  · rfl
  · rw [erase_bind, erase_plain]
    congr 1
    funext tip
    split
    · exact erase_refundRound ..
    · exact erase_plain _

/-- **The marked driver is the driver**, but for its marks. -/
theorem erase_markedDriveReverseSwap (requiredConfirmations poll : ℕ) (resume : Resume)
    (fuel : ℕ) : erase (markedDriveReverseSwap swap requiredConfirmations poll resume fuel) =
      driveReverseSwap swap requiredConfirmations poll resume fuel := by
  unfold markedDriveReverseSwap driveReverseSwap driveReverseSwapOver
  rw [Program.bind_eq, erase_bind, erase_plain, Program.bind_eq]
  congr 1
  funext accepted
  cases accepted with
  | some state => rfl
  | none =>
      dsimp only
      simp only [Program.bind_eq, erase_bind, erase_plain]
      congr 1
      funext outcome
      cases outcome with
      | refused state => rfl
      | funded outpoint =>
          dsimp only
          unfold watchFundedOver
          simp only [Program.bind_eq, erase_bind, erase_plain]
          congr 1
          funext hintDue
          congr 1
          funext dest
          exact erase_iterate (fun w => erase_claimWatchRound swap _ _ _ _ _ _ w) fuel _

end

/-! ## The submarine driver -/

section

variable (swap : SubmarineSwap)

/-- `drive_submarine_swap`, its calls of `confirm_or_bump` marked. -/
def markedDriveSubmarineSwap (requiredConfirmations poll : ℕ) (resume : Resume)
    (alreadyAttempted : Bool) (fuel : ℕ) : MarkedDriver DriverError SwapState :=
  driveSubmarineSwapOver swap marking requiredConfirmations poll resume alreadyAttempted fuel

/-- A pass of the claim: its call of the fee-bump loop is between the fee it asks for and the
settlement it reports. -/
theorem erase_claimPass (outpoint : OutPoint) (fundingValueSat : ℕ) (preimage : Preimage)
    (dest : Bytes) (poll fuel : ℕ) (ours : List Txid) :
    erase (claimPassOver swap marking outpoint fundingValueSat preimage dest poll fuel ours) =
      claimPassOver swap bumping outpoint fundingValueSat preimage dest poll fuel ours := by
  unfold claimPassOver
  rw [Program.bind_eq, erase_bind, erase_bump, Program.bind_eq]
  congr 1
  funext r
  obtain ⟨outcome, ours'⟩ := r
  cases outcome with
  | confirmed txid => rfl
  | conflictingSpend tx => rfl
  | deadlineExceeded txid tip => exact erase_plain _

/-- **The marked driver is the driver**, but for its marks. -/
theorem erase_markedDriveSubmarineSwap (requiredConfirmations poll : ℕ) (resume : Resume)
    (alreadyAttempted : Bool) (fuel : ℕ) :
    erase (markedDriveSubmarineSwap swap requiredConfirmations poll resume alreadyAttempted fuel) =
      driveSubmarineSwap swap requiredConfirmations poll resume alreadyAttempted fuel := by
  unfold markedDriveSubmarineSwap driveSubmarineSwap driveSubmarineSwapOver
  rw [Program.bind_eq, erase_bind, erase_plain, Program.bind_eq]
  congr 1
  funext located
  cases located with
  | inl state => rfl
  | inr outpoint =>
      dsimp only
      rw [Program.bind_eq, erase_bind, erase_plain, Program.bind_eq]
      congr 1
      funext measured
      cases measured with
      | inl state => rfl
      | inr fundingValueSat =>
          dsimp only
          rw [Program.bind_eq, erase_bind, erase_plain, Program.bind_eq]
          congr 1
          funext paid
          cases paid with
          | inl state => rfl
          | inr payment =>
              dsimp only
              split
              · rfl
              · unfold claimFundedOver
                rw [Program.bind_eq, erase_bind, erase_plain, Program.bind_eq]
                congr 1
                funext dest
                exact erase_iterate (fun ours => erase_claimPass swap _ _ _ _ _ _ ours) fuel _

end

/-! ## The client's submarine driver -/

section

variable (funding : SubmarineFunding)

/-- `execute_submarine_swap`, its calls of `confirm_or_bump` marked. -/
def markedExecuteSubmarineSwap (poll : ℕ) (resume : Resume) (fuel : ℕ) :
    MarkedDriver DriverError SwapState :=
  executeSubmarineSwapOver marking funding poll resume fuel

/-- The client's refund, which is one call and what becomes of its outcome. -/
theorem SubmarineFunding.erase_driveRefund (resume : Resume) (outpoint : OutPoint)
    (poll fuel : ℕ) : erase (funding.driveRefundOver marking resume outpoint poll fuel) =
      funding.driveRefundOver bumping resume outpoint poll fuel := by
  unfold driveRefundOver
  rw [Program.bind_eq, erase_bind, erase_plain, Program.bind_eq]
  congr 1
  funext dest
  rw [Program.bind_eq, erase_bind, erase_bump, Program.bind_eq]
  congr 1
  funext r
  obtain ⟨outcome, seen⟩ := r
  cases outcome with
  | confirmed txid => rfl
  | conflictingSpend tx =>
      dsimp only
      split
      · rfl
      · exact erase_plain _
  | deadlineExceeded txid tip => rfl

/-- A round of the wait for the settlement, which ends in the refund when the lock is
reached. -/
theorem SubmarineFunding.erase_settlementRound (resume : Resume) (outpoint : OutPoint)
    (poll fuel : ℕ) : erase (funding.settlementRoundOver marking resume outpoint poll fuel) =
      funding.settlementRoundOver bumping resume outpoint poll fuel := by
  simp only [settlementRoundOver, Program.bind_eq, erase_bind, erase_plain]
  congr 1
  funext answer
  congr 1
  funext state
  split
  · rfl
  · rw [erase_bind, erase_plain]
    congr 1
    funext tip
    split
    · unfold atTimeoutOver
      rw [Program.bind_eq, erase_bind, erase_plain, Program.bind_eq]
      congr 1
      funext spend
      cases spend with
      | none => exact funding.erase_driveRefund ..
      | some spend =>
          dsimp only
          split
          · rfl
          · exact funding.erase_driveRefund ..
    · exact erase_plain _

/-- **The marked driver is the driver**, but for its marks. -/
theorem erase_markedExecuteSubmarineSwap (poll : ℕ) (resume : Resume) (fuel : ℕ) :
    erase (markedExecuteSubmarineSwap funding poll resume fuel) =
      executeSubmarineSwap funding poll resume fuel := by
  unfold markedExecuteSubmarineSwap executeSubmarineSwap executeSubmarineSwapOver
  rw [Program.bind_eq, erase_bind, erase_plain, Program.bind_eq]
  congr 1
  funext established
  cases established with
  | none => rfl
  | some outpoint =>
      exact erase_iterate (fun _ => funding.erase_settlementRound resume outpoint poll fuel)
        fuel ()

end

/-! ## The drivers and their marked twins -/

/-- **Every run of a driver is a run of its marked twin**, without the marks: what holds of
every marked run holds of every run. -/
theorem exists_marked_run {trace : List Event} {ending : Ending DriverError SwapState} :
    (∀ (swap : SubmarineSwap) (requiredConfirmations poll : ℕ) (resume : Resume)
      (alreadyAttempted : Bool) (fuel : ℕ),
      Run (driveSubmarineSwap swap requiredConfirmations poll resume alreadyAttempted fuel) trace
        ending →
      ∃ marked, Run (markedDriveSubmarineSwap swap requiredConfirmations poll resume
        alreadyAttempted fuel) marked ending ∧
        marked.filterMap Program.MarkedEvent.erase = trace) ∧
    (∀ (swap : ReverseSwap) (requiredConfirmations poll : ℕ) (resume : Resume) (fuel : ℕ),
      Run (driveReverseSwap swap requiredConfirmations poll resume fuel) trace ending →
      ∃ marked, Run (markedDriveReverseSwap swap requiredConfirmations poll resume fuel) marked
        ending ∧ marked.filterMap Program.MarkedEvent.erase = trace) ∧
    (∀ (funding : SubmarineFunding) (poll : ℕ) (resume : Resume) (fuel : ℕ),
      Run (executeSubmarineSwap funding poll resume fuel) trace ending →
      ∃ marked, Run (markedExecuteSubmarineSwap funding poll resume fuel) marked ending ∧
        marked.filterMap Program.MarkedEvent.erase = trace) := by
  refine ⟨?_, ?_, ?_⟩
  · intro swap requiredConfirmations poll resume alreadyAttempted fuel hrun
    rw [← erase_markedDriveSubmarineSwap] at hrun
    exact hrun.exists_marked
  · intro swap requiredConfirmations poll resume fuel hrun
    rw [← erase_markedDriveReverseSwap] at hrun
    exact hrun.exists_marked
  · intro funding poll resume fuel hrun
    rw [← erase_markedExecuteSubmarineSwap] at hrun
    exact hrun.exists_marked

end PubkySwap
