import PubkySwap.Chain

/-!
# The output a resumed driver adopts

A driver that is resumed without a funding on record looks through all that has ever paid
its HTLC.  `selectRecordedFunding` sorts the outputs of the right value and, if there are
several, asks the chain for the spend of one after the other until one reveals the preimage.

The order of the candidates is a total one on outputs with distinct outpoints, so the order
in which a server lists them does not matter (`selectRecordedFunding_perm`).  What the
search finds is read off the candidates and their spends (`play_findClaimed`).
-/

namespace PubkySwap

open BitcoinScript (Bytes)
open Program (Ending)

/-! ## The order of the candidates -/

namespace HistoricalOutput

/-- The id of the transaction, as a number. -/
def txid (output : HistoricalOutput) : ℕ := output.outpoint.txid

/-- The order is that of the depth, downwards, then of the outpoint. -/
theorem precedes_iff {a b : HistoricalOutput} :
    a.precedes b = true ↔
      b.confirmations < a.confirmations ∨ b.confirmations = a.confirmations ∧
        (a.txid < b.txid ∨ a.txid = b.txid ∧ a.outpoint.vout ≤ b.outpoint.vout) := by
  show (if a.confirmations ≠ b.confirmations then decide (b.confirmations < a.confirmations)
    else if a.txid ≠ b.txid then decide (a.txid < b.txid)
    else decide (a.outpoint.vout ≤ b.outpoint.vout)) = true ↔ _
  split
  · rw [decide_eq_true_iff]
    omega
  · split
    · rw [decide_eq_true_iff]
      omega
    · rw [decide_eq_true_iff]
      omega

theorem precedes_trans (a b c : HistoricalOutput) (hab : a.precedes b = true)
    (hbc : b.precedes c = true) : a.precedes c = true := by
  rw [precedes_iff] at hab hbc ⊢
  omega

theorem precedes_total (a b : HistoricalOutput) : (a.precedes b || b.precedes a) = true := by
  rw [Bool.or_eq_true, precedes_iff, precedes_iff]
  omega

/-- Two outputs of the same rank are one output. -/
theorem outpoint_eq_of_precedes {a b : HistoricalOutput} (hab : a.precedes b = true)
    (hba : b.precedes a = true) : a.outpoint = b.outpoint := by
  rw [precedes_iff] at hab hba
  have htxid : a.txid = b.txid := by omega
  have hvout : a.outpoint.vout = b.outpoint.vout := by omega
  cases ha : a.outpoint
  cases hb : b.outpoint
  rw [txid, txid, ha, hb] at htxid
  rw [ha, hb] at hvout
  exact congrArg₂ OutPoint.mk htxid hvout

end HistoricalOutput

/-- The outputs that could be a funding of the amount. -/
def fundingCandidates (expectedSat : ℕ) (history : List HistoricalOutput) :
    List HistoricalOutput :=
  history.filter fun h => h.valueSat = expectedSat

theorem mem_fundingCandidates {expectedSat : ℕ} {history : List HistoricalOutput}
    {h : HistoricalOutput} :
    h ∈ fundingCandidates expectedSat history ↔ h ∈ history ∧ h.valueSat = expectedSat := by
  rw [fundingCandidates, List.mem_filter, decide_eq_true_iff]

/-- **Sorting forgets the order** in which outputs with distinct outpoints are listed. -/
theorem mergeSort_eq_of_perm {candidates candidates' : List HistoricalOutput}
    (hperm : candidates.Perm candidates')
    (hdistinct : (candidates.map HistoricalOutput.outpoint).Nodup) :
    candidates.mergeSort HistoricalOutput.precedes =
      candidates'.mergeSort HistoricalOutput.precedes := by
  have hsorted (l : List HistoricalOutput) :=
    List.pairwise_mergeSort HistoricalOutput.precedes_trans HistoricalOutput.precedes_total l
  refine List.Perm.eq_of_pairwise (fun a b ha hb hab hba => ?_) (hsorted _) (hsorted _) ?_
  · have ha' := List.mem_mergeSort.mp ha
    have hb' := hperm.symm.subset (List.mem_mergeSort.mp hb)
    exact List.inj_on_of_nodup_map hdistinct ha' hb'
      (HistoricalOutput.outpoint_eq_of_precedes hab hba)
  · exact (List.mergeSort_perm _ _).trans (hperm.trans (List.mergeSort_perm _ _).symm)

section

variable [Crypto]

/-- **The order of the history does not matter**: the same program runs. -/
theorem selectRecordedFunding_perm {htlcSpk : Bytes} {hash : PaymentHash} {expectedSat : ℕ}
    {history history' : List HistoricalOutput} (hperm : history.Perm history')
    (hdistinct : (history.map HistoricalOutput.outpoint).Nodup) :
    selectRecordedFunding htlcSpk hash expectedSat history =
      selectRecordedFunding htlcSpk hash expectedSat history' := by
  have hsorted := mergeSort_eq_of_perm (hperm.filter fun h => h.valueSat = expectedSat)
    (hdistinct.sublist (List.filter_sublist.map _))
  rw [selectRecordedFunding, selectRecordedFunding, hsorted]

/-! ## The search -/

/-- Answers in which looking for a spend of the script shows a chain. -/
def Shows (answers : List Event → (op : Op) → Ans op) (htlcSpk : Bytes)
    (chain : OutPoint → Except SwapError (Option Transaction)) : Prop :=
  ∀ past outpoint, answers past (.findSpend htlcSpk outpoint) = chain outpoint

/-- The output is spent by a transaction that reveals the preimage. -/
def Reveals (chain : OutPoint → Except SwapError (Option Transaction)) (hash : PaymentHash)
    (output : HistoricalOutput) : Prop :=
  ∃ tx, chain output.outpoint = .ok (some tx) ∧
    (extractPreimage tx output.outpoint hash).isSome

variable {answers : List Event → (op : Op) → Ans op} {htlcSpk : Bytes} {hash : PaymentHash}
  {chain : OutPoint → Except SwapError (Option Transaction)}

/-- How a search among candidates ends: with one that reveals the preimage, with none if
there is none, or with the error of a lookup. -/
inductive SearchEnds (chain : OutPoint → Except SwapError (Option Transaction))
    (hash : PaymentHash) (candidates : List HistoricalOutput) :
    Ending DriverError (Option OutPoint) → Prop
  | found {output : HistoricalOutput} (hmem : output ∈ candidates)
      (hreveals : Reveals chain hash output) :
      SearchEnds chain hash candidates (.returned (some output.outpoint))
  | none (hnone : ∀ output ∈ candidates, ¬Reveals chain hash output) :
      SearchEnds chain hash candidates (.returned none)
  | failed {output : HistoricalOutput} {e : SwapError} (hmem : output ∈ candidates)
      (hlookup : chain output.outpoint = .error e) :
      SearchEnds chain hash candidates (.failed (.swap e))

/-- A candidate that does not reveal the preimage is passed over. -/
theorem SearchEnds.cons {candidate : HistoricalOutput} {rest : List HistoricalOutput}
    {ending : Ending DriverError (Option OutPoint)} (h : SearchEnds chain hash rest ending)
    (hcandidate : ¬Reveals chain hash candidate) :
    SearchEnds chain hash (candidate :: rest) ending := by
  cases h with
  | found hmem hreveals => exact .found (List.mem_cons_of_mem _ hmem) hreveals
  | none hnone =>
      refine .none fun output hmem => ?_
      rcases List.mem_cons.mp hmem with rfl | hmem
      · exact hcandidate
      · exact hnone output hmem
  | failed hmem hlookup => exact .failed (List.mem_cons_of_mem _ hmem) hlookup

/-- **What a search finds.** -/
theorem play_findClaimed (hshows : Shows answers htlcSpk chain) :
    ∀ (candidates : List HistoricalOutput) (past : List Event),
      SearchEnds chain hash candidates
        ((findClaimed htlcSpk hash candidates).play answers past).2 := by
  intro candidates
  induction candidates with
  | nil => exact fun _ => .none nofun
  | cons candidate rest ih =>
      intro past
      simp only [findClaimed, findSpend, Program.bind_eq, Program.call_bind, Program.play,
        hshows past candidate.outpoint]
      cases hlookup : chain candidate.outpoint with
      | error e => exact .failed List.mem_cons_self hlookup
      | ok found =>
          rw [Program.orThrow_ok, Program.pure_bind]
          cases found with
          | none =>
              refine (ih _).cons ?_
              rintro ⟨tx, htx, -⟩
              rw [hlookup] at htx
              cases htx
          | some tx =>
              dsimp only
              split
              · next hpreimage => exact .found List.mem_cons_self ⟨tx, hlookup, hpreimage⟩
              · next hpreimage =>
                  refine (ih _).cons ?_
                  rintro ⟨tx', htx', hreveals⟩
                  rw [hlookup] at htx'
                  cases htx'
                  exact hpreimage hreveals

omit [Crypto] in
/-- A search that found nothing falls back on the deepest candidate. -/
theorem play_orElse {fallback : OutPoint}
    {f : Option OutPoint → Driver DriverError (Option OutPoint)}
    (hf : ∀ found, f found = .pure (some (found.getD fallback))) :
    ∀ (p : Driver DriverError (Option OutPoint)) (past : List Event),
      ((p.bind f).play answers past).2 =
        match (p.play answers past).2 with
        | .returned found => .returned (some (found.getD fallback))
        | .failed e => .failed e
        | .unfinished => .unfinished := by
  intro p
  induction p with
  | pure found =>
      intro past
      rw [Program.pure_bind, hf]
      rfl
  | throw e => exact fun _ => rfl
  | halt => exact fun _ => rfl
  | call op next ih => exact fun past => ih _ _

/-- How the selection ends among candidates. -/
inductive SelectionEnds (chain : OutPoint → Except SwapError (Option Transaction))
    (hash : PaymentHash) (candidates : List HistoricalOutput) :
    Ending DriverError (Option OutPoint) → Prop
  /-- There is no candidate. -/
  | none (hnone : candidates = []) : SelectionEnds chain hash candidates (.returned none)
  /-- There is one whose spend reveals the preimage. -/
  | claimed {output : HistoricalOutput} (hmem : output ∈ candidates)
      (hreveals : Reveals chain hash output) :
      SelectionEnds chain hash candidates (.returned (some output.outpoint))
  /-- There is a single one, or none reveals the preimage. -/
  | deepest {output : HistoricalOutput} (hmem : output ∈ candidates)
      (hnone : 2 ≤ candidates.length → ∀ output ∈ candidates, ¬Reveals chain hash output) :
      SelectionEnds chain hash candidates (.returned (some output.outpoint))
  /-- Looking for a spend has failed. -/
  | failed {output : HistoricalOutput} {e : SwapError} (hmem : output ∈ candidates)
      (hlookup : chain output.outpoint = .error e) :
      SelectionEnds chain hash candidates (.failed (.swap e))

/-- The selection ends in the same way in any order of the candidates. -/
theorem SelectionEnds.perm {candidates candidates' : List HistoricalOutput}
    {ending : Ending DriverError (Option OutPoint)} (hperm : candidates.Perm candidates')
    (h : SelectionEnds chain hash candidates ending) :
    SelectionEnds chain hash candidates' ending := by
  cases h with
  | none hnone =>
      subst hnone
      exact .none hperm.nil_eq.symm
  | claimed hmem hreveals => exact .claimed (hperm.subset hmem) hreveals
  | deepest hmem hnone =>
      refine .deepest (hperm.subset hmem) fun htwo output houtput => ?_
      exact hnone (hperm.length_eq ▸ htwo) output (hperm.symm.subset houtput)
  | failed hmem hlookup => exact .failed (hperm.subset hmem) hlookup

theorem play_selectRecordedFunding (hshows : Shows answers htlcSpk chain) (expectedSat : ℕ)
    (history : List HistoricalOutput) (past : List Event) :
    SelectionEnds chain hash (fundingCandidates expectedSat history)
      ((selectRecordedFunding htlcSpk hash expectedSat history).play answers past).2 := by
  refine .perm (List.mergeSort_perm _ HistoricalOutput.precedes) ?_
  rw [selectRecordedFunding, ← fundingCandidates]
  cases (fundingCandidates expectedSat history).mergeSort HistoricalOutput.precedes with
  | nil => exact .none rfl
  | cons first rest =>
      cases rest with
      | nil => exact .deepest (List.mem_singleton_self _) fun htwo => absurd htwo (by simp)
      | cons second rest =>
          have hsearch : SearchEnds chain hash _ _ :=
            play_findClaimed hshows (first :: second :: rest) past
          show SelectionEnds chain hash (first :: second :: rest)
            (((findClaimed htlcSpk hash (first :: second :: rest)).bind _).play answers past).2
          rw [play_orElse (fun found => by cases found <;> rfl)]
          generalize ((findClaimed htlcSpk hash (first :: second :: rest)).play answers past).2 =
            ending at hsearch
          cases hsearch with
          | found hmem hreveals => exact .claimed hmem hreveals
          | none hnone => exact .deepest List.mem_cons_self fun _ => hnone
          | failed hmem hlookup => exact .failed hmem hlookup

/-- **The output that is adopted is well chosen.**  The selection is the same for every
order of the history.  It gives an output of the expected value, and none only if there is
none.  If there are several and the spend of one reveals the preimage, it gives one whose
spend does, unless the chain fails to answer about one of them. -/
theorem recordedFunding_wellChosen {expectedSat : ℕ} {history : List HistoricalOutput}
    (hshows : Shows answers htlcSpk chain)
    (hdistinct : (history.map HistoricalOutput.outpoint).Nodup) (past : List Event) :
    (∀ history', history.Perm history' →
      (selectRecordedFunding htlcSpk hash expectedSat history').play answers past =
        (selectRecordedFunding htlcSpk hash expectedSat history).play answers past) ∧
    (((selectRecordedFunding htlcSpk hash expectedSat history).play answers past).2 =
        .returned none ↔ ∀ output ∈ history, output.valueSat ≠ expectedSat) ∧
    (∀ outpoint,
      ((selectRecordedFunding htlcSpk hash expectedSat history).play answers past).2 =
        .returned (some outpoint) →
      ∃ output ∈ history, output.outpoint = outpoint ∧ output.valueSat = expectedSat) ∧
    (2 ≤ (fundingCandidates expectedSat history).length →
      (∃ output ∈ fundingCandidates expectedSat history, Reveals chain hash output) →
      (∃ output ∈ fundingCandidates expectedSat history, Reveals chain hash output ∧
        ((selectRecordedFunding htlcSpk hash expectedSat history).play answers past).2 =
          .returned (some output.outpoint)) ∨
      ∃ output ∈ fundingCandidates expectedSat history, ∃ e, chain output.outpoint = .error e ∧
        ((selectRecordedFunding htlcSpk hash expectedSat history).play answers past).2 =
          .failed (.swap e)) := by
  have hends : SelectionEnds chain hash _ _ :=
    play_selectRecordedFunding hshows expectedSat history past
  -- the order is forgotten first: what is left is about how the selection ends
  refine ⟨fun history' hperm => by rw [selectRecordedFunding_perm hperm hdistinct], ?_⟩
  generalize ((selectRecordedFunding htlcSpk hash expectedSat history).play answers past).2 =
    ending at hends
  cases hends with
  | none hnone =>
      refine ⟨⟨fun _ output hmem hvalue => ?_, fun _ => rfl⟩, nofun, fun htwo => ?_⟩
      · have hcandidate := mem_fundingCandidates.mpr ⟨hmem, hvalue⟩
        rw [hnone] at hcandidate
        cases hcandidate
      · rw [hnone] at htwo
        exact absurd htwo (by decide)
  | claimed hmem hreveals =>
      have hlisted := mem_fundingCandidates.mp hmem
      refine ⟨⟨nofun, fun hnone => absurd hlisted.2 (hnone _ hlisted.1)⟩, ?_, ?_⟩
      · rintro outpoint heq
        cases heq
        exact ⟨_, hlisted.1, rfl, hlisted.2⟩
      · exact fun _ _ => .inl ⟨_, hmem, hreveals, rfl⟩
  | deepest hmem hnone =>
      have hlisted := mem_fundingCandidates.mp hmem
      refine ⟨⟨nofun, fun hvalue => absurd hlisted.2 (hvalue _ hlisted.1)⟩, ?_, ?_⟩
      · rintro outpoint heq
        cases heq
        exact ⟨_, hlisted.1, rfl, hlisted.2⟩
      · rintro htwo ⟨output, houtput, hreveals⟩
        exact absurd hreveals (hnone htwo output houtput)
  | failed hmem hlookup =>
      have hlisted := mem_fundingCandidates.mp hmem
      refine ⟨⟨nofun, fun hvalue => absurd hlisted.2 (hvalue _ hlisted.1)⟩, nofun, ?_⟩
      exact fun _ _ => .inr ⟨_, hmem, _, hlookup, rfl⟩

end

/-! ## Two fundings, one of them claimed -/

namespace PaidTwice

theorem length_preimage : (List.replicate 32 (0x33 : UInt8)).length = 32 := rfl

def preimage : Preimage := ⟨List.replicate 32 0x33, length_preimage⟩

local instance tables : Crypto := tableCrypto [(preimage.val, Bytes32.ofNat 81)]

/-- Two outputs of the value, and one that pays less. -/
def history : List HistoricalOutput :=
  [⟨⟨7, 0⟩, 100000, 12, none⟩, ⟨⟨5, 1⟩, 100000, 3, some 98000⟩, ⟨⟨6, 0⟩, 546, 40, none⟩]

/-- The claim of the shallower one. -/
def claim : Transaction :=
  ⟨2, 0, [⟨⟨5, 1⟩, [], enableRbfNoLocktime, [[0x30], preimage.val, [1], [0x51]]⟩],
    [⟨98000, [0x51]⟩]⟩

def chain (outpoint : OutPoint) : Except SwapError (Option Transaction) :=
  if outpoint = ⟨5, 1⟩ then .ok (some claim) else .ok none

def answers (_ : List Event) : (op : Op) → Ans op
  | .findSpend _ outpoint => chain outpoint
  | op => idle op

theorem shows_chain : Shows answers [] chain := fun _ _ => rfl

/-- Only one of them is claimed. -/
theorem outpoint_of_reveals {output : HistoricalOutput}
    (h : Reveals chain (Bytes32.ofNat 81) output) : output.outpoint = ⟨5, 1⟩ := by
  obtain ⟨tx, htx, -⟩ := h
  by_contra hne
  rw [chain, if_neg hne] at htx
  cases htx

/-- The general statement at these outputs, listed the other way round. -/
theorem adopts_claimed_of_reverse :
    ((selectRecordedFunding [] (Bytes32.ofNat 81) 100000 history.reverse).play answers []).2 =
      .returned (some ⟨5, 1⟩) := by
  have hreveals : Reveals chain (Bytes32.ofNat 81) ⟨⟨5, 1⟩, 100000, 3, some 98000⟩ :=
    ⟨claim, rfl, by decide⟩
  obtain ⟨horder, -, -, hclaimed⟩ :=
    recordedFunding_wellChosen shows_chain (show (history.map _).Nodup by decide) []
  rw [horder history.reverse history.reverse_perm.symm]
  rcases hclaimed (by decide) ⟨_, by decide, hreveals⟩ with
    ⟨output, -, hrevealed, hreturned⟩ | ⟨output, -, e, hlookup, -⟩
  · rw [hreturned, outpoint_of_reveals hrevealed]
  · rw [chain] at hlookup
    split at hlookup <;> cases hlookup

end PaidTwice

end PubkySwap
