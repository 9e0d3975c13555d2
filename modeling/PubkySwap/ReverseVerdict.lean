import PubkySwap.ReverseRun

/-!
# What a run of the reverse driver lets go of

`holds_on_to_funding` reads the verdicts and the cancellations off
`driveReverseSwap_sound`, for every run and for every moment of it.

An outpoint that only the record carries is not held on to after a reorg.  The
chain may no longer show it, and then the driver gives it up at the timeout; the
example is such a run.
-/

namespace PubkySwap

open BitcoinScript (Bytes)
open Program (Run Ending)

section

variable [Crypto] {swap : ReverseSwap} {resume : Resume} {requiredConfirmations poll fuel : ℕ}
  {trace : List Event} {ending : Ending DriverError SwapState} {outpoint : OutPoint}

/-- **A funded HTLC is held on to.**  Whatever the chain, the node and the wallet
answer, a run that has established a funding outpoint ends with `Claimed` only
once a claim of it is buried and the invoice settled, ends with `Refunded` only
once its own refund is buried, ends in no other state, and from then on cancels
the hold invoice only after such a refund. -/
theorem holds_on_to_funding
    (hrun : Run (driveReverseSwap swap requiredConfirmations poll resume fuel) trace ending) :
    (∀ state, ending = .returned state →
      Adopted swap resume requiredConfirmations trace outpoint →
        LetGo swap resume outpoint state trace) ∧
      ∀ before hash answer after,
        trace = before ++ ⟨.cancelHoldInvoice hash, answer⟩ :: after →
          Adopted swap resume requiredConfirmations before outpoint →
            RefundBuried swap resume outpoint before := by
  constructor
  · rintro state rfl hadopted
    have hmeets := (hrun.sound (driveReverseSwap_sound fuel)).2
    exact hmeets outpoint hadopted
  · rintro before hash answer after rfl hadopted
    -- The run up to the cancellation is a run too, and that is its last exchange.
    rw [List.append_cons] at hrun
    have hsafe := (hrun.cut.sound (driveReverseSwap_sound fuel)).1
    rw [List.nil_append] at hsafe
    exact hsafe before hash answer rfl outpoint hadopted

end

/-! ## A funding that a reorg took -/

namespace OrphanedFunding

local instance tables : Crypto := tableCrypto []

def swap : ReverseSwap where
  paymentHash := Bytes32.ofNat 81
  onchainAmountSat := 100000
  feeRateSatVb := 2
  htlcScript := []
  htlcSpk := []
  taproot := none
  timeoutHeight := 800144
  refundKey := Bytes32.ofNat 1
  timelock := {}

def outpoint : OutPoint := ⟨7, 0⟩

/-- An earlier run funded the HTLC, and the monitor has seen a reorg since. -/
def resume : Resume := { funding := some outpoint, reorgSeenAtHeight := some 800000 }

/-- The run of a resumed driver against an environment. -/
def runAgainst (resume : Resume) (answer : List Event → (op : Op) → Ans op) :
    List Event × Ending DriverError SwapState :=
  (driveReverseSwap swap 1 2 resume 2).play answer []

theorem run_runAgainst {resume : Resume} {answer : List Event → (op : Op) → Ans op}
    {state : SwapState} (h : (runAgainst resume answer).2 = .returned state) :
    Run (driveReverseSwap swap 1 2 resume 2) (runAgainst resume answer).1 (.returned state) :=
  h ▸ Program.run_play answer _ []

/-- The best chain has reached the timeout, and nothing on it pays the script. -/
def orphaned (_ : List Event) : (op : Op) → Ans op
  | .tipHeight => .ok 800144
  | op => idle op

/-- **The driver lets go of a recorded funding**: after the reorg it finds no
output, cancels the invoice and reports `Expired`, and it has neither seen a spend
of the outpoint nor any transaction at depth. -/
theorem expired_after_reorg :
    resume.funding = some outpoint ∧
      Run (driveReverseSwap swap 1 2 resume 2) (runAgainst resume orphaned).1
        (.returned .expired) ∧
      (∃ hash answer, (⟨.cancelHoldInvoice hash, answer⟩ : Event) ∈
        (runAgainst resume orphaned).1) ∧
      ∀ e ∈ (runAgainst resume orphaned).1,
        (∀ tx, e ≠ ⟨.findSpend swap.htlcSpk outpoint, .ok (some tx)⟩) ∧
          ∀ txid depth, e ≠ ⟨.txConfirmations swap.htlcSpk txid, .ok (some depth)⟩ := by
  have hcalls : (runAgainst resume orphaned).1.map (·.1) =
      [.findOutputs [], .findFunding [] 100000, .findHistoricalOutputs [], .tipHeight,
        .cancelHoldInvoice (Bytes32.ofNat 81)] := by
    decide +kernel
  refine ⟨rfl, run_runAgainst (by decide +kernel), ?_, fun e he => ?_⟩
  · have hmem : Op.cancelHoldInvoice (Bytes32.ofNat 81) ∈
        (runAgainst resume orphaned).1.map (·.1) := by
      rw [hcalls]
      decide
    obtain ⟨⟨op, answer⟩, hmem, rfl⟩ := List.mem_map.mp hmem
    exact ⟨_, answer, hmem⟩
  · have hmem := List.mem_map_of_mem (f := (·.1)) he
    rw [hcalls] at hmem
    constructor
    · rintro tx rfl
      simp at hmem
    · rintro txid depth rfl
      simp at hmem

/-- The funding is there, and at the timeout our refund is mined. -/
def unclaimed (_ : List Event) : (op : Op) → Ans op
  | .tipHeight => .ok 800144
  | .broadcast tx => .ok (Crypto.computeTxid tx)
  | .txConfirmations .. => .ok (some 2)
  | op => idle op

/-- The same swap without the reorg ends with its refund buried. -/
theorem holds_on_to_funding_unclaimed :
    RefundBuried swap { funding := some outpoint } outpoint
      (runAgainst { funding := some outpoint } unclaimed).1 :=
  (holds_on_to_funding (run_runAgainst (by decide +kernel))).1 .refunded rfl
    (Or.inr ⟨rfl, Or.inl rfl⟩)

end OrphanedFunding

end PubkySwap
