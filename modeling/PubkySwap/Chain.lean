import PubkySwap.Environment

/-!
# Choosing a funding

An HTLC address is public, so anyone can pay it and more than one output can.
`selectFunding` classifies what is unspent; `selectRecordedFunding` picks, out of
what has ever paid the script, the output to drive.
-/

namespace PubkySwap

open BitcoinScript (Bytes)
open Program (OnlyCalls onlyCalls_orThrow)

/-- `FINALITY_DEPTH`: a spend this deep is final. -/
def finalityDepth : ℕ := 2

/-! ## Unspent outputs -/

/-- `DEFAULT_MAX_OVERPAY_SAT`. -/
def defaultMaxOverpaySat : ℕ := 10000

/-- What pays an HTLC address, against what the swap expects. -/
inductive FundingSelection where
  | none
  | exact (utxo : FundingUtxo)
  | overpaid (utxo : FundingUtxo) (excessSat : ℕ)
  | underpaid (gotSat : ℕ)
  | excessiveOverpay (gotSat : ℕ)
  | multiple (utxos : List FundingUtxo)
  deriving DecidableEq, Repr

/-- `select_funding`. -/
def selectFunding (utxos : List FundingUtxo) (expectedSat maxOverpaySat : ℕ) : FundingSelection :=
  match utxos with
  | [] => .none
  | [utxo] =>
      if utxo.valueSat = expectedSat then .exact utxo
      else if utxo.valueSat < expectedSat then .underpaid utxo.valueSat
      else if utxo.valueSat - expectedSat ≤ maxOverpaySat then
        .overpaid utxo (utxo.valueSat - expectedSat)
      else .excessiveOverpay utxo.valueSat
  | _ => .multiple utxos

/-- The output a selection proceeds with. -/
def FundingSelection.adopted : FundingSelection → Option FundingUtxo
  | exact utxo => some utxo
  | overpaid utxo _ => some utxo
  | _ => Option.none

/-- **What is adopted** is a listed output that pays enough and not too much. -/
theorem selectFunding_adopted {utxos : List FundingUtxo} {expectedSat maxOverpaySat : ℕ}
    {utxo : FundingUtxo} (h : (selectFunding utxos expectedSat maxOverpaySat).adopted = some utxo) :
    utxo ∈ utxos ∧ expectedSat ≤ utxo.valueSat ∧
      utxo.valueSat ≤ expectedSat + maxOverpaySat := by
  unfold selectFunding at h
  split at h
  · cases h
  · rename_i only
    split at h
    · next heq =>
        cases h
        exact ⟨List.mem_singleton_self _, heq.ge, by omega⟩
    split at h
    · cases h
    split at h
    · cases h
      exact ⟨List.mem_singleton_self _, by omega, by omega⟩
    · cases h
  · cases h

/-! ## Every output there has been -/

/-- Deepest first, then by outpoint. -/
def HistoricalOutput.precedes (a b : HistoricalOutput) : Bool :=
  if a.confirmations ≠ b.confirmations then decide (b.confirmations < a.confirmations)
  else if a.outpoint.txid ≠ b.outpoint.txid then decide (a.outpoint.txid < b.outpoint.txid)
  else decide (a.outpoint.vout ≤ b.outpoint.vout)

/-- The outpoint an exchange makes known: the wallet has funded it, the chain
shows it as the swap's funding, or the driver reports it. -/
def madeKnown : Event → Option OutPoint
  | ⟨.fundHtlc .., .ok outpoint⟩ => some outpoint
  | ⟨.findFunding .., .ok (some utxo)⟩ => some utxo.outpoint
  | ⟨.funded outpoint, _⟩ => some outpoint
  | _ => none

/-- Asking the wallet to fund. -/
def Op.funds : Op → Bool
  | .fundHtlc .. => true
  | _ => false

/-- Looking for a spend. -/
def Op.searches : Op → Bool
  | .findSpend .. => true
  | _ => false

variable [Crypto]

/-- The first candidate whose spend reveals the preimage. -/
def findClaimed (htlcSpk : Bytes) (hash : PaymentHash) :
    List HistoricalOutput → Driver DriverError (Option OutPoint)
  | [] => pure none
  | candidate :: rest => do
      match ← findSpend .swap htlcSpk candidate.outpoint with
      | none => findClaimed htlcSpk hash rest
      | some tx =>
          if (extractPreimage tx candidate.outpoint hash).isSome then
            pure (some candidate.outpoint)
          else findClaimed htlcSpk hash rest

/-- `select_recorded_funding`. -/
def selectRecordedFunding (htlcSpk : Bytes) (hash : PaymentHash) (expectedSat : ℕ)
    (history : List HistoricalOutput) : Driver DriverError (Option OutPoint) :=
  match (history.filter fun h => h.valueSat = expectedSat).mergeSort HistoricalOutput.precedes with
  | [] => pure none
  | [only] => pure (some only.outpoint)
  | first :: second :: rest => do
      match ← findClaimed htlcSpk hash (first :: second :: rest) with
      | some outpoint => pure (some outpoint)
      | none => pure (some first.outpoint)

theorem searches_findClaimed (htlcSpk : Bytes) (hash : PaymentHash) :
    ∀ candidates, OnlyCalls (fun op => op.searches = true) (findClaimed htlcSpk hash candidates)
  | [] => trivial
  | candidate :: rest => by
      refine ⟨rfl, fun answer => OnlyCalls.bind (fun found => ?_) (onlyCalls_orThrow _ _)⟩
      cases found with
      | none => exact searches_findClaimed htlcSpk hash rest
      | some tx =>
          dsimp only
          split
          · trivial
          · exact searches_findClaimed htlcSpk hash rest

/-- Choosing among the candidates asks only who spends them. -/
theorem searches_selectRecordedFunding (htlcSpk : Bytes) (hash : PaymentHash) (expectedSat : ℕ)
    (history : List HistoricalOutput) :
    OnlyCalls (fun op => op.searches = true)
      (selectRecordedFunding htlcSpk hash expectedSat history) := by
  unfold selectRecordedFunding
  split
  · trivial
  · trivial
  · refine OnlyCalls.bind (fun found => ?_) (searches_findClaimed _ _ _)
    cases found <;> trivial

end PubkySwap
