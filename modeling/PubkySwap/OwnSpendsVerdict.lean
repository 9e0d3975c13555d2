import PubkySwap.OwnSpendsRun

/-!
# Whether a driver recognises its own spends

Every call of the fee-bump loop should be told of every spend that the swap has reported
before (`Told`).  The submarine driver does so, as it carries the reports from pass to pass.
The reverse driver and the client's submarine driver tell every pass of the record they were
resumed with.  What a pass reports depends on what it is answered: on whether the chain shows
a spend of the record at once, on how deep the spend it watches is, and on the estimates.  The
two drivers are right exactly as long as the loop comes round again only when all that these
answers called for is on record (`OnRecordWhenReentered`).

A call that is told of them all hands back no spend of the swap as somebody else's
(`Discerned`), on a chain that shows what it accepted and nothing that it refused
(`FaithfulChain`).
-/

namespace PubkySwap

open BitcoinScript (Bytes)
open Program (Run Ending Guarded erase markEvent)

namespace ReenteredRefund

local instance tables : Crypto := tableCrypto []

def swap : ReverseSwap where
  paymentHash := Bytes32.ofNat 81
  onchainAmountSat := 100000
  feeRateSatVb := 2
  htlcScript := []
  htlcSpk := []
  taproot := none
  timeoutHeight := 800144
  refundKey := Bytes32.ofNat 1
  timelock := {}

/-- The HTLC has been funded, and nothing spends it that is on record. -/
def resume : Resume := { funding := some ⟨7, 0⟩ }

/-- Answers for a marked run. -/
def answersOf (answers : List MarkedEvent → (op : Op) → Ans op) (past : List MarkedEvent) :
    (op : Op ⊕ BumpMark) → Program.MarkedAns Ans BumpMark op
  | .inl op => answers past op
  | .inr _ => ()

/-- A run against an environment, from what is on record. -/
def runAgainst (resume : Resume) (answers : List MarkedEvent → (op : Op) → Ans op) :
    List MarkedEvent × Ending DriverError SwapState :=
  (markedDriveReverseSwap swap 1 2 resume 2).play (answersOf answers) []

/-- The refund at a rate. -/
def refund (rate : ℕ) : Transaction :=
  match (refundJob swap resume ⟨7, 0⟩ [] 2).build rate with
  | .ok tx => tx
  | .error _ => ⟨2, 0, [], []⟩

/-- A broadcast. -/
def isBroadcast : MarkedEvent → Bool
  | ⟨.inl (.broadcast _), _⟩ => true
  | _ => false

/-- A report of this transaction. -/
def isReport (txid : Txid) : MarkedEvent → Bool
  | ⟨.inl (.spendBroadcast txid'), _⟩ => txid' = txid
  | _ => false

/-- A call. -/
def isCall : MarkedEvent → Bool
  | ⟨.inr (.called ..), _⟩ => true
  | _ => false

/-- A call that is told of nothing. -/
def isUntold : MarkedEvent → Bool
  | ⟨.inr (.called cfg _), _⟩ => cfg.knownOurs.isEmpty
  | _ => false

/-- A call that hands this transaction back as somebody else's. -/
def disowns (txid : Txid) : MarkedEvent → Bool
  | ⟨.inr (.ended (.conflictingSpend tx)), _⟩ => Crypto.computeTxid tx = txid
  | _ => false

theorem reported_of_any {log : List MarkedEvent} {txid : Txid}
    (h : log.any (isReport txid) = true) : Reported log txid := by
  obtain ⟨event, hmem, hreport⟩ := List.any_eq_true.mp h
  unfold isReport at hreport
  split at hreport
  · rename_i txid' _
    obtain rfl := of_decide_eq_true hreport
    exact hmem
  · cases hreport

/-- The refund stays unconfirmed for six hours and is driven again; then a block contains the
replacement that the first call broadcast. -/
def handedBack (past : List MarkedEvent) : (op : Op) → Ans op
  | .tipHeight => .ok 800144
  | .broadcast tx => .ok (Crypto.computeTxid tx)
  | .txConfirmations .. => .ok (some 0)
  | .findSpend .. => .ok (if past.countP isBroadcast < 3 then none else some (refund 3))
  | .now => durationFromSecs (6 * 60 * 60) * past.length
  | op => idle op

/-- An earlier run has put the refund and its replacement on the wire. -/
def recorded : Resume :=
  { resume with ourSpends := [Crypto.computeTxid (refund 2), Crypto.computeTxid (refund 3)] }

/-- The replacement of the earlier run stays unconfirmed for six hours and is driven again;
then a block contains it. -/
def minedLate (past : List MarkedEvent) : (op : Op) → Ans op
  | .tipHeight => .ok 800144
  | .broadcast tx => .ok (Crypto.computeTxid tx)
  | .txConfirmations .. => .ok (some (if past.countP isCall < 2 then 0 else 2))
  | .findSpend .. => .ok (some (refund 3))
  | .now => durationFromSecs (6 * 60 * 60) * past.length
  | op => idle op

/-- What the answers to the first call called for is on record when the second one begins. -/
theorem onRecord_minedLate :
    OnRecordWhenReentered recorded.ourSpends (runAgainst recorded minedLate).1 := by
  refine onRecord_of_finished ?_
  decide +kernel

end ReenteredRefund

end PubkySwap
