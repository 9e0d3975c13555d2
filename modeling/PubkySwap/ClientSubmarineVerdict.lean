import PubkySwap.ClientSubmarineRun

/-!
# How a client's submarine swap ends

`honest_outcome` reads the verdict of a run off `sound_executeSubmarineSwap`: as long
as every spend the chain shows is recognised, `Refunded` means that a refund is final.

The refund loop forgets.  It is told of the spends the record lists, and of nothing
that an earlier pass of the same run has broadcast; and a spend that it does not know
and that reveals no preimage is taken for a finished refund as it is seen, in the
mempool or one block deep.  The example is a run after a restart that reports
`Refunded` and has not asked for the depth of anything.
-/

namespace PubkySwap

open BitcoinScript (Bytes Piece)
open Program (Run Ending)

section

variable [Crypto] {funding : SubmarineFunding} {resume : Resume} {poll fuel : ℕ}
  {trace : List Event} {state : SwapState}

omit [Crypto] in
/-- An HTLC script is longer than a preimage. -/
theorem length_buildHtlcScript_ne {hash : PaymentHash} {claim refund : PublicKey} {timeout : ℕ} :
    (buildHtlcScript hash claim refund timeout).length ≠ 32 := by
  have hmem : Piece.slice hash.val ∈ htlcPieces hash claim refund timeout := by
    simp [htlcPieces]
  have hlonger := BitcoinScript.length_lt_length_encode hmem
  rw [hash.property] at hlonger
  exact hlonger.ne'

/-- **An honest outcome.**  In every run over an HTLC of its own, with any record of
earlier runs, whose answers are a chain's and in which every spend is recognised, the
client reports `Refunded` only when a spend that reveals no preimage is final,
`Claimed` only when its invoice is settled or a spend reveals the preimage, and
`Expired` only while no funding is known. -/
theorem honest_outcome {providerKey refundKey : PublicKey}
    (hscript : funding.htlcScript = buildHtlcScript funding.paymentHash providerKey refundKey
      funding.timeoutHeight)
    (hsignature : ∀ digest key,
      preimageIn funding.paymentHash [serializeEcdsa digest key] = none)
    (hrun : Run (executeSubmarineSwap funding poll resume fuel) trace (.returned state))
    (hchain : SubmarineFunding.Chain trace) (hrecognised : funding.Recognised resume trace) :
    funding.Honest resume trace state := by
  have hplain : funding.PlainRefund := by
    refine ⟨?_, hsignature⟩
    rw [hscript]
    exact length_buildHtlcScript_ne
  exact (hrun.sound (SubmarineFunding.sound_executeSubmarineSwap hplain fuel)).2 hchain hrecognised

end

/-! ## A refund from before the restart -/

namespace ForgottenRefund

local instance tables : Crypto := tableCrypto []

def key : PublicKey := ⟨true, List.replicate 33 2, rfl⟩

def funding : SubmarineFunding where
  htlcScript := buildHtlcScript (Bytes32.ofNat 81) key key 800144
  htlcSpk := []
  onchainAmountSat := 100000
  paymentHash := Bytes32.ofNat 81
  refundKey := Bytes32.ofNat 1
  timeoutHeight := 800144
  feeRateSatVb := 2

def outpoint : OutPoint := ⟨7, 0⟩

/-- The run before the restart broadcast a refund and could not record it. -/
def resume : Resume := { funding := some outpoint }

/-- That refund. -/
def earlier : Transaction where
  version := 2
  lockTime := 800144
  input := [{ previousOutput := outpoint, scriptSig := [], sequence := 0, witness := [] }]
  output := [{ value := 98000, scriptPubkey := [] }]

/-- A run against an environment. -/
def runAgainst (answers : List Event → (op : Op) → Ans op) :
    List Event × Ending DriverError SwapState :=
  (executeSubmarineSwap funding 2 resume 2).play answers []

theorem run_runAgainst {answers : List Event → (op : Op) → Ans op} {state : SwapState}
    (h : (runAgainst answers).2 = .returned state) :
    Run (executeSubmarineSwap funding 2 resume 2) (runAgainst answers).1 (.returned state) :=
  h ▸ Program.run_play answers _ []

theorem chain_runAgainst {answers : List Event → (op : Op) → Ans op}
    (haccepted : ∀ past tx txid, answers past (.broadcast tx) = .ok txid →
      txid = Crypto.computeTxid tx)
    (hspends : ∀ past spk o tx, answers past (.findSpend spk o) = .ok (some tx) → tx.Spends o) :
    SubmarineFunding.Chain (runAgainst answers).1 := by
  constructor
  · intro tx txid hmem
    obtain ⟨past, hanswer⟩ := Program.mem_play answers hmem
    exact haccepted past tx txid hanswer.symm
  · intro spk o tx hmem
    obtain ⟨past, hanswer⟩ := Program.mem_play answers hmem
    exact hspends past spk o tx hanswer.symm

/-- It is in the mempool; the chain accepts a replacement, and then a block contains
the one that was replaced. -/
def replaced (_ : List Event) : (op : Op) → Ans op
  | .tipHeight => .ok 800144
  | .findSpend _ o => .ok (if o = outpoint then some earlier else none)
  | .broadcast tx => .ok (Crypto.computeTxid tx)
  | op => idle op

/-- **`Refunded` at no depth**: the run reports its refund done and has asked for no
transaction's confirmations. -/
theorem refunded_without_depth :
    Run (executeSubmarineSwap funding 2 resume 2) (runAgainst replaced).1 (.returned .refunded) ∧
      SubmarineFunding.Chain (runAgainst replaced).1 ∧
      ¬funding.Honest resume (runAgainst replaced).1 .refunded := by
  refine ⟨run_runAgainst (by decide +kernel), chain_runAgainst ?_ ?_, ?_⟩
  · rintro past tx txid ⟨⟩
    rfl
  · intro past spk o tx h
    by_cases ho : o = outpoint
    · subst ho
      cases h
      decide
    · simp [replaced, ho] at h
  · rintro ⟨_, _, -, -, -, -, depth, -, hmem⟩
    have hcalls : ∀ op ∈ (runAgainst replaced).1.map (·.1), ∀ txid,
        op ≠ .txConfirmations funding.htlcSpk txid := by
      have hnone : ∀ op ∈ (runAgainst replaced).1.map (·.1),
          (match op with | .txConfirmations .. => false | _ => true) = true := by
        decide +kernel
      rintro op hop txid rfl
      cases hnone _ hop
    exact hcalls _ (List.mem_map_of_mem hmem) _ rfl

/-- The transaction of an accepted broadcast. -/
def accepted : Event → Option Transaction
  | ⟨.broadcast tx, .ok _⟩ => some tx
  | _ => none

/-- The wallet names a destination. -/
def namesDestination : Event → Bool
  | ⟨.receiveDestination, _⟩ => true
  | _ => false

/-- The depth of a transaction is asked for. -/
def asksDepth : Event → Bool
  | ⟨.txConfirmations .., _⟩ => true
  | _ => false

/-- The earlier refund was dropped.  The new one is accepted and shown from then on, a
replacement is refused, and at the second look the new one is two blocks deep. -/
def mined (past : List Event) : (op : Op) → Ans op
  | .tipHeight => .ok 800144
  | .findSpend .. => .ok ((past.takeWhile fun event => !namesDestination event).findSome? accepted)
  | .broadcast tx =>
      if past.any fun event => (accepted event).isSome then .error (.transient "refused")
      else .ok (Crypto.computeTxid tx)
  | .txConfirmations .. =>
      .ok (some (if past.any fun event => asksDepth event then 2 else 0))
  | op => idle op

/-- What a pass has exchanged since the wallet named a destination. -/
theorem mem_of_takeWhile {before t : List Event} (h : SubmarineFunding.RefundPass before t)
    {event : Event}
    (hmem : event ∈ before.reverse.takeWhile fun event => !namesDestination event) :
    event ∈ t := by
  obtain ⟨start, dest, rfl, -⟩ := h
  rw [List.reverse_append, List.reverse_cons, List.append_assoc, List.takeWhile_append] at hmem
  split at hmem
  · simpa [namesDestination] using hmem
  · exact List.mem_reverse.mp (List.takeWhile_subset _ hmem)

/-- A spend the chain has shown, and of what. -/
def shown : Event → Option (OutPoint × Transaction)
  | ⟨.findSpend _ o, .ok (some tx)⟩ => some (o, tx)
  | _ => none

theorem plain_of_shown : ∀ event ∈ (runAgainst mined).1, ∀ r ∈ shown event,
    r.2.Spends r.1 ∧ extractPreimage r.2 r.1 funding.paymentHash = none := by
  decide +kernel

theorem chain_mined : SubmarineFunding.Chain (runAgainst mined).1 where
  accepted tx txid hmem := by
    obtain ⟨past, hanswer⟩ := Program.mem_play mined hmem
    unfold mined at hanswer
    dsimp only at hanswer
    split at hanswer
    · cases hanswer
    · exact Except.ok.inj hanswer
  spends spk o tx hmem := (plain_of_shown _ hmem (o, tx) rfl).1

/-- Every spend that is shown is one the pass has broadcast, and none reveals a preimage. -/
theorem recognised_mined : funding.Recognised resume (runAgainst mined).1 where
  foreign := by
    intro before t tip o tx after hlog hpass
    rw [List.append_cons] at hlog
    have hanswer := Program.play_eq_append mined hlog
    rw [List.append_nil, List.reverse_append] at hanswer
    obtain ⟨event, hmem, haccepted⟩ :=
      List.exists_of_findSome?_eq_some (Except.ok.inj hanswer).symm
    -- What was shown was accepted, and not before the destination.
    rcases List.mem_cons.mp hmem with rfl | hmem
    · cases haccepted
    have hpassed := mem_of_takeWhile hpass hmem
    unfold accepted at haccepted
    split at haccepted
    · rename_i txid _
      cases haccepted
      obtain ⟨start, dest, rfl, -⟩ := hpass
      have htrace : (⟨.broadcast tx, .ok txid⟩ : Event) ∈ (runAgainst mined).1 := by
        rw [hlog]
        simp [hpassed]
      obtain rfl := chain_mined.accepted tx txid htrace
      exact Or.inl (Or.inr ⟨tx, hpassed⟩)
    · cases haccepted
  own := by
    intro before t o tx after hlog _ hmem _ hreveals
    have htrace : (⟨.findSpend funding.htlcSpk o, .ok (some tx)⟩ : Event) ∈ (runAgainst mined).1 :=
      hlog ▸ List.mem_append_left _ hmem
    have hnone := (plain_of_shown _ htrace (o, tx) rfl).2
    rw [SubmarineFunding.Reveals, hnone] at hreveals
    cases hreveals

/-- The general statement at a refund that is accepted, refused a replacement, and mined. -/
theorem honest_outcome_mined :
    (runAgainst mined).1.countP (fun event => event.1.broadcasts) = 2 ∧
      funding.Honest resume (runAgainst mined).1 .refunded := by
  have hscript : funding.htlcScript = buildHtlcScript funding.paymentHash key key 800144 := rfl
  exact ⟨by decide +kernel, honest_outcome hscript (fun _ _ => rfl)
    (run_runAgainst (by decide +kernel)) chain_mined recognised_mined⟩

end ForgottenRefund

end PubkySwap
