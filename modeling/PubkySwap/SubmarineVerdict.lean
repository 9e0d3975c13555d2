import PubkySwap.SubmarineRun

/-!
# The verdicts of the submarine driver

A terminal state drops the swap from recovery, so the two verdicts that end a
swap in which money has moved have to be earned: `Claimed` by a claim that is
buried, `Failed` after a payment by a rival that is.

Neither is, always.  `claimed_buried_iff` says of every run that reports
`Claimed` exactly when it has seen a buried claim: when neither of the two
shortcuts before the payment was taken, which look at who spends the output but
not at how deep, and the second not even at whose spend it is.
`failed_lost_of_reports` says when a run that has bought the preimage reports
`Failed` only for a rival in a block: when every spend the chain reports to the
claim loop is one the loop knows as its own, or a rival that is in a block by
then.  The claim loop itself does not tell a mined rival from one in the mempool.
-/

namespace PubkySwap

open BitcoinScript (Bytes)
open Program (Run Ending)

/-- The question of depth. -/
def Op.asksDepth : Op → Bool
  | .txConfirmations .. => true
  | _ => false

theorem asksDepth_of_opening {op : Op} (h : op.opening = true) : op.asksDepth = false := by
  cases op <;> first
    | rfl
    | cases h

/-- The transaction an exchange tries to put on the wire. -/
def Op.sent : Op → Option Transaction
  | .broadcast tx => some tx
  | _ => none

/-- A broadcast the chain accepted, and under which id. -/
def acceptedIn : Event → Option (Transaction × Txid)
  | ⟨.broadcast tx, .ok txid⟩ => some (tx, txid)
  | _ => none

/-- A spend the chain reports, and of what. -/
def spendIn : Event → Option (OutPoint × Transaction)
  | ⟨.findSpend _ outpoint, .ok (some tx)⟩ => some (outpoint, tx)
  | _ => none

section

variable [Crypto]

/-! ## Claimed -/

/-- What a run has to have seen to report `Claimed`: a spend of the swap's
funding that is the swap's own or reveals the preimage, at final depth. -/
def BuriedClaim (swap : SubmarineSwap) (resume : Resume) (trace : List Event) : Prop :=
  ∃ outpoint txid confirmations, Pinned resume trace outpoint ∧
    Spotted swap.htlcSpk outpoint trace txid ∧
    (OwnSpend resume trace txid ∨
      ∃ tx, (⟨.findSpend swap.htlcSpk outpoint, .ok (some tx)⟩ : Event) ∈ trace ∧
        Crypto.computeTxid tx = txid ∧
        (extractPreimage tx outpoint swap.paymentHash).isSome) ∧
    finalityDepth ≤ confirmations ∧
    (⟨.txConfirmations swap.htlcSpk txid, .ok (some confirmations)⟩ : Event) ∈ trace

/-- The first shortcut: the first thing a resumed run sees is a spend of the
recorded outpoint that reveals the preimage. -/
def ClaimedBeforeRestart (swap : SubmarineSwap) (resume : Resume) (trace : List Event) : Prop :=
  ∃ outpoint spend, resume.funding = some outpoint ∧
    trace.head? = some ⟨.findSpend swap.htlcSpk outpoint, .ok (some spend)⟩ ∧
    (extractPreimage spend outpoint swap.paymentHash).isSome

/-- The second shortcut: the reorg guard does not find the output it needs, and
the chain reports a spend of it. -/
def FundingSpent (swap : SubmarineSwap) (requiredConfirmations : ℕ) (alreadyAttempted : Bool)
    (trace : List Event) : Prop :=
  ∃ before outpoint status spend after,
    trace = before ++ ⟨.outpointStatus swap.htlcSpk outpoint, .ok status⟩ ::
      ⟨.findSpend swap.htlcSpk outpoint, .ok (some spend)⟩ :: after ∧
    ¬ Measured requiredConfirmations alreadyAttempted status

variable {swap : SubmarineSwap} {resume : Resume} {requiredConfirmations poll fuel : ℕ}
  {alreadyAttempted : Bool} {trace : List Event}

/-- A run that never asks how deep a transaction is has seen nothing buried. -/
theorem not_buriedClaim (h : ∀ e ∈ trace, e.1.asksDepth = false) :
    ¬ BuriedClaim swap resume trace := by
  rintro ⟨_, txid, confirmations, -, -, -, -, hmem⟩
  cases h _ hmem

/-- **When `Claimed` is honest.**  A run that reports it has seen a buried claim
exactly when it took neither shortcut. -/
theorem claimed_buried_iff
    (hrun : Run (driveSubmarineSwap swap requiredConfirmations poll resume alreadyAttempted fuel)
      trace (.returned .claimed)) :
    BuriedClaim swap resume trace ↔
      ¬ ClaimedBeforeRestart swap resume trace ∧
        ¬ FundingSpent swap requiredConfirmations alreadyAttempted trace := by
  have hmeets := (hrun.sound (driveSubmarineSwap_sound fuel)).2
  rw [List.nil_append] at hmeets
  rcases hmeets with ⟨outpoint, spend, hfunding, rfl, hclaimed⟩ |
    ⟨before, outpoint, status, spend, hbefore, hstatus, rfl⟩ | ⟨outpoint, hguarded, hburied⟩
  · -- The first exit: no depth was asked for, and the shortcut was taken.
    refine iff_of_false (not_buriedClaim ?_) fun h => h.1 ⟨outpoint, spend, hfunding, rfl, hclaimed⟩
    exact List.forall_mem_singleton.mpr rfl
  · refine iff_of_false (not_buriedClaim ?_) fun h =>
      h.2 ⟨before, outpoint, status, spend, [], rfl, hstatus⟩
    simp only [List.forall_mem_append, List.forall_mem_cons]
    exact ⟨fun e he => asksDepth_of_opening (hbefore e he), rfl, rfl, nofun⟩
  · -- The claim loop: the guard had let the run pass, so no shortcut was open.
    obtain ⟨txid, confirmations, hown, hspotted, hdeep, hmem⟩ := hburied
    refine iff_of_true ⟨outpoint, txid, confirmations, hguarded.pinned, hspotted, Or.inl hown,
      hdeep, hmem⟩ ⟨?_, ?_⟩
    · rintro ⟨other, spend, hfunding, hhead, hsome⟩
      rw [hguarded.unclaimed other spend hfunding hhead] at hsome
      cases hsome
    · rintro ⟨before, other, status, spend, after, htrace, hstatus⟩
      refine hstatus (hguarded.measured other status ?_)
      rw [htrace]
      exact List.mem_append_right _ (List.mem_cons_self ..)

/-! ## Failed -/

/-- The node has shown the payment of the invoice, with the right preimage. -/
def Bought (swap : SubmarineSwap) (log : List Event) : Prop :=
  ∃ e ∈ log, ∃ payment ∈ paymentIn e, paymentHash payment.preimage = swap.paymentHash

/-- A transaction that is not one of the swap's own: neither of this run nor
recorded nor otherwise of an earlier run. -/
def Foreign (resume : Resume) (earlier : Txid → Prop) (trace : List Event) (txid : Txid) : Prop :=
  ¬ OwnSpend resume trace txid ∧ ¬ earlier txid

/-- What the chain watcher promises of an answer: a broadcast is answered with
the id of what was broadcast, and a spend that is found spends the output. -/
def Faithful (e : Event) : Prop :=
  (∀ r ∈ acceptedIn e, r.2 = Crypto.computeTxid r.1) ∧ ∀ r ∈ spendIn e, r.2.Spends r.1

instance : DecidablePred Faithful := fun _ => inferInstanceAs (Decidable (_ ∧ _))

/-- A pass of the claim loop begins: a fee rate is asked for right after the
destination or after the pause that follows a deadline. -/
def PassBegins (before : List Event) (event : Event) : Prop :=
  event.1.estimates = true ∧ ∃ e ∈ before.getLast?, e.1.pauses = true

/-- What the claim loop takes for its own: what is recorded, what the chain
accepted, and what was tried before the present pass. -/
def Recognised (resume : Resume) (log : List Event) (txid : Txid) : Prop :=
  txid ∈ resume.ourSpends ∨ Accepted log txid ∨
    ∃ before event after, log = before ++ event :: after ∧ PassBegins before event ∧
      Attempted before txid

/-- Every spend the chain reports to a round of the claim loop, which asks for it
right after the tip, is one the loop takes for its own, or a rival's that is in a
block at that time. -/
def ReportsSettled (swap : SubmarineSwap) (resume : Resume) (earlier : Txid → Prop)
    (inBlock : ℕ → Transaction → Prop) (trace : List Event) : Prop :=
  ∀ log tip outpoint tx rest,
    trace = log ++ ⟨.tipHeight, .ok tip⟩ ::
      ⟨.findSpend swap.htlcSpk outpoint, .ok (some tx)⟩ :: rest →
    Bought swap log →
      Recognised resume log (Crypto.computeTxid tx) ∨
        (Foreign resume earlier trace (Crypto.computeTxid tx) ∧ inBlock (log.length + 1) tx)

/-- The swap is lost: at the end of the run a rival's spend of the funding is in
a block. -/
def LostOnChain (resume : Resume) (earlier : Txid → Prop) (inBlock : ℕ → Transaction → Prop)
    (trace : List Event) : Prop :=
  ∃ outpoint tx, Pinned resume trace outpoint ∧ tx.Spends outpoint ∧
    Foreign resume earlier trace (Crypto.computeTxid tx) ∧ inBlock (trace.length - 1) tx

/-- A pass does not begin inside another, so what was tried before some pass is
something the last one was told of. -/
theorem Pass.attempted_before {outpoint : OutPoint} {known ours : List Txid}
    {before t : List Event} (h : Pass outpoint known ours t) {b after : List Event}
    {event : Event} (hsplit : before ++ t = b ++ event :: after) (hpass : PassBegins b event)
    {txid : Txid} (hattempted : Attempted b txid) : Attempted before txid := by
  obtain ⟨tx, answer, hmem, htxid⟩ := hattempted
  rcases List.append_eq_append_iff.mp hsplit with ⟨u, rfl, ht⟩ | ⟨u, rfl, -⟩
  · -- The pass began inside `t`, after the exchanges `u`.
    rcases List.eq_nil_or_concat u with rfl | ⟨u', last, rfl⟩
    · rw [List.append_nil] at hmem
      exact ⟨tx, answer, hmem, htxid⟩
    · exfalso
      obtain ⟨hestimates, e, he, hpauses⟩ := hpass
      have hchain := h.unbroken
      rw [ht] at hchain
      have hlast : e = last := by
        rw [List.concat_eq_append, ← List.append_assoc, List.getLast?_concat] at he
        exact (Option.mem_some.mp he).symm
      have hrel := List.isChain_append.mp hchain |>.2.2 last
        (by rw [List.concat_eq_append, List.getLast?_concat]; exact rfl) event rfl
      rw [hrel (hlast ▸ hpauses)] at hestimates
      cases hestimates
  · exact ⟨tx, answer, List.mem_append_left _ hmem, htxid⟩

/-- The last pass takes for its own all that is recognised. -/
theorem Pass.mem_ours {outpoint : OutPoint} {known ours : List Txid}
    {before t log rest : List Event} (h : Pass outpoint known ours t)
    (hknown : CarriesOwn resume known before) (hsplit : before ++ t = log ++ rest)
    (hchain : ∀ e ∈ log, Faithful e) {txid : Txid}
    (hrecognised : Recognised resume log txid) : txid ∈ ours := by
  have hcarried (hattempted : Attempted before txid) : txid ∈ ours :=
    (h.ours txid).mpr (Or.inl ((hknown txid).mpr (Or.inr hattempted)))
  rcases hrecognised with hrecorded | ⟨tx, hmem⟩ | ⟨b, event, after, rfl, hpass, hattempted⟩
  · exact (h.ours txid).mpr (Or.inl ((hknown txid).mpr (Or.inl hrecorded)))
  · have hall : (⟨.broadcast tx, .ok txid⟩ : Event) ∈ before ++ t :=
      hsplit ▸ List.mem_append_left _ hmem
    rcases List.mem_append.mp hall with hold | hnew
    · exact hcarried ⟨tx, _, hold, ((hchain _ hmem).1 _ rfl).symm⟩
    · exact (h.ours txid).mpr (Or.inr ⟨tx, hnew⟩)
  · rw [List.append_assoc, List.cons_append] at hsplit
    exact hcarried (h.attempted_before hsplit hpass hattempted)

/-- **When `Failed` is honest.**  Once the preimage is bought, and as long as
every spend the chain reports is recognised or is a rival's in a block, a run
reports `Failed` only when the swap is lost. -/
theorem failed_lost_of_reports {earlier : Txid → Prop} {inBlock : ℕ → Transaction → Prop}
    {reason : String}
    (hrun : Run (driveSubmarineSwap swap requiredConfirmations poll resume alreadyAttempted fuel)
      trace (.returned (.failed reason)))
    (hbought : Bought swap trace)
    (hchain : ∀ e ∈ trace, Faithful e)
    (hreports : ReportsSettled swap resume earlier inBlock trace) :
    LostOnChain resume earlier inBlock trace := by
  have hmeets := (hrun.sound (driveSubmarineSwap_sound fuel)).2
  rw [List.nil_append] at hmeets
  rcases hmeets with hunbought | ⟨outpoint, hpinned, hclaim⟩
  · obtain ⟨e, he, payment, hpayment, hhash⟩ := hbought
    exact absurd hhash (hunbought e he payment hpayment)
  obtain ⟨before, t, known, ours, tx, htrace, hknown, hpass, hforeign, log, tip, hlog⟩ := hclaim
  -- The report that ended the run is the last exchange, and no payment.
  have hboughtBefore : Bought swap log := by
    obtain ⟨e, he, payment, hpayment, hhash⟩ := hbought
    rw [hlog] at he
    rcases List.mem_append.mp he with he | he
    · exact ⟨e, he, payment, hpayment, hhash⟩
    · rcases List.mem_pair.mp he with rfl | rfl
      · cases hpayment
      · cases hpayment
  have hmem : (⟨.findSpend swap.htlcSpk outpoint, .ok (some tx)⟩ : Event) ∈ trace := by
    rw [hlog]
    exact List.mem_append_right _ (List.mem_cons_of_mem _ (List.mem_singleton_self _))
  rcases hreports log tip outpoint tx [] hlog hboughtBefore with hrecognised | ⟨hrival, hblock⟩
  · refine absurd (hpass.mem_ours hknown (htrace ▸ hlog) ?_ hrecognised) hforeign
    exact fun e he => hchain e (hlog ▸ List.mem_append_left _ he)
  · refine ⟨outpoint, tx, hpinned, (hchain _ hmem).2 _ rfl, hrival, ?_⟩
    rw [hlog, List.length_append]
    exact hblock

end

/-! ## Two swaps that end in the wrong state -/

namespace UnearnedVerdict

local instance tables : Crypto := tableCrypto [(List.replicate 32 0x51, Bytes32.ofNat 81)]

theorem length_preimage : (List.replicate 32 (0x51 : UInt8)).length = 32 := rfl

def preimage : Preimage := ⟨List.replicate 32 0x51, length_preimage⟩

theorem length_claimPubkey : (0x02 :: List.replicate 32 (0x11 : UInt8)).length = 33 := rfl

def claimPubkey : PublicKey := ⟨true, 0x02 :: List.replicate 32 0x11, length_claimPubkey⟩

theorem length_refundPubkey : (0x03 :: List.replicate 32 (0x22 : UInt8)).length = 33 := rfl

def refundPubkey : PublicKey := ⟨true, 0x03 :: List.replicate 32 0x22, length_refundPubkey⟩

def script : Bytes := buildHtlcScript (Bytes32.ofNat 81) claimPubkey refundPubkey 800144

def swap : SubmarineSwap where
  paymentHash := Bytes32.ofNat 81
  onchainAmountSat := 100000
  feeRateSatVb := 2
  htlcScript := script
  htlcSpk := htlcP2wshScriptPubkey script
  taproot := none
  timeoutHeight := 800144
  claimKey := Bytes32.ofNat 1
  invoice := "lnbc1"
  maxRoutingFeeMsat := 1000
  timelock := {}

def outpoint : OutPoint := ⟨7, 0⟩

/-- The client's refund. -/
def refund : Transaction :=
  (unsignedSpend outpoint 99000 [] 800144).withWitness
    (htlcWitness .refund (List.replicate 71 0x30) script)

/-- A claim of ours that an earlier run broadcast. -/
def claim : Transaction :=
  (unsignedSpend outpoint 98000 [] 0).withWitness
    (htlcWitness (.claim preimage) (List.replicate 71 0x30) script)

def resume : Resume := { funding := some outpoint, ourSpends := [98000] }

/-- The run of a resumed driver against an environment. -/
def runAgainst (alreadyAttempted : Bool) (answer : List Event → (op : Op) → Ans op) :
    List Event × Ending DriverError SwapState :=
  (driveSubmarineSwap swap 1 2 resume alreadyAttempted 2).play answer []

theorem run_runAgainst {alreadyAttempted : Bool} {answer : List Event → (op : Op) → Ans op}
    {state : SwapState} (h : (runAgainst alreadyAttempted answer).2 = .returned state) :
    Run (driveSubmarineSwap swap 1 2 resume alreadyAttempted 2)
      (runAgainst alreadyAttempted answer).1 (.returned state) :=
  h ▸ Program.run_play answer _ []

/-- The client has taken its funding back, and the invoice was never paid. -/
def refunded (_ : List Event) : (op : Op) → Ans op
  | .findSpend .. => .ok (some refund)
  | op => idle op

/-- **The driver reports a refunded swap as claimed**, having asked for nobody's
depth. -/
theorem claimed_on_a_refund :
    Run (driveSubmarineSwap swap 1 2 resume false 2) (runAgainst false refunded).1
        (.returned .claimed) ∧
      extractPreimage refund outpoint swap.paymentHash = none ∧
      ¬ OwnSpend resume (runAgainst false refunded).1 (Crypto.computeTxid refund) ∧
      ¬ BuriedClaim swap resume (runAgainst false refunded).1 := by
  have hquiet : ∀ e ∈ (runAgainst false refunded).1,
      e.1.broadcasts = false ∧ e.1.asksDepth = false := by
    decide +kernel
  refine ⟨run_runAgainst (by decide +kernel), by decide +kernel, ?_,
    not_buriedClaim fun e he => (hquiet e he).2⟩
  rintro (hrecorded | ⟨tx, answer, hmem, -⟩ | ⟨tx, hmem⟩)
  · revert hrecorded
    decide +kernel
  · cases (hquiet _ hmem).1
  · cases (hquiet _ hmem).1

/-- The invoice is paid, and an earlier claim of ours is in a block, two deep. -/
def claimedEarlier (past : List Event) : (op : Op) → Ans op
  | .findSpend .. => if past.isEmpty then .ok none else .ok (some claim)
  | .outpointStatus _ outpoint => .ok (some ⟨outpoint, 100000, 3⟩)
  | .paymentStatus _ => .ok (.succeeded ⟨preimage, 0⟩)
  | .txConfirmations .. => .ok (some 2)
  | op => idle op

theorem claimed_buried_iff_claimedEarlier :
    BuriedClaim swap resume (runAgainst true claimedEarlier).1 ↔
      ¬ ClaimedBeforeRestart swap resume (runAgainst true claimedEarlier).1 ∧
        ¬ FundingSpent swap 1 true (runAgainst true claimedEarlier).1 :=
  claimed_buried_iff (run_runAgainst (by decide +kernel))

/-- The invoice is paid, and once our claim is broadcast the client's refund
takes its place. -/
def outbid (past : List Event) : (op : Op) → Ans op
  | .tipHeight => .ok 800144
  | .findSpend .. => if past.any (·.1.broadcasts) then .ok (some refund) else .ok none
  | .outpointStatus _ outpoint => .ok (some ⟨outpoint, 100000, 3⟩)
  | .paymentStatus _ => .ok (.succeeded ⟨preimage, 0⟩)
  | .broadcast tx => .ok (Crypto.computeTxid tx)
  | op => idle op

def lostReason : String := "the client's refund won the claim race after the invoice was paid"

theorem outbid_ending : (runAgainst true outbid).2 = .returned (.failed lostReason) := by
  decide +kernel

theorem bought_outbid : Bought swap (runAgainst true outbid).1 := by
  have hpaid : ∃ e ∈ (runAgainst true outbid).1, paymentIn e = some ⟨preimage, 0⟩ := by
    decide +kernel
  obtain ⟨e, he, hpayment⟩ := hpaid
  exact ⟨e, he, ⟨preimage, 0⟩, hpayment, by decide +kernel⟩

theorem faithful_outbid : ∀ e ∈ (runAgainst true outbid).1, Faithful e := by
  decide +kernel

/-- The refund is not one of the swap's own. -/
theorem foreign_refund :
    Foreign resume (fun _ => False) (runAgainst true outbid).1 (Crypto.computeTxid refund) := by
  have hsent : ∀ e ∈ (runAgainst true outbid).1,
      ∀ tx ∈ e.1.sent, Crypto.computeTxid tx ≠ Crypto.computeTxid refund := by
    decide +kernel
  refine ⟨?_, not_false⟩
  rintro (hrecorded | ⟨tx, answer, hmem, htxid⟩ | ⟨tx, hmem⟩)
  · revert hrecorded
    decide +kernel
  · exact hsent _ hmem tx rfl htxid
  · exact hsent _ hmem tx rfl ((faithful_outbid _ hmem).1 _ rfl).symm

/-- **The driver gives a paid swap up** for a refund that is in no block. -/
theorem failed_on_an_unmined_refund :
    Run (driveSubmarineSwap swap 1 2 resume true 2) (runAgainst true outbid).1
        (.returned (.failed lostReason)) ∧
      Bought swap (runAgainst true outbid).1 ∧ (∀ e ∈ (runAgainst true outbid).1, Faithful e) ∧
      ¬ LostOnChain resume (fun _ => False) (fun _ _ => False) (runAgainst true outbid).1 := by
  refine ⟨run_runAgainst outbid_ending, bought_outbid, faithful_outbid, ?_⟩
  rintro ⟨_, _, -, -, -, hblock⟩
  exact hblock

/-- The same run, had the refund been in a block. -/
theorem failed_lost_of_reports_outbid :
    LostOnChain resume (fun _ => False) (fun _ tx => tx = refund)
      (runAgainst true outbid).1 := by
  refine failed_lost_of_reports (run_runAgainst outbid_ending) bought_outbid faithful_outbid ?_
  intro log tip other tx rest htrace _
  have hspend : ∀ e ∈ (runAgainst true outbid).1, ∀ r ∈ spendIn e, r.2 = refund := by
    decide +kernel
  have hmem : (⟨.findSpend swap.htlcSpk other, .ok (some tx)⟩ : Event) ∈
      (runAgainst true outbid).1 := by
    rw [htrace]
    exact List.mem_append_right _ (List.mem_cons_of_mem _ (List.mem_cons_self ..))
  obtain rfl : tx = refund := hspend _ hmem _ rfl
  exact Or.inr ⟨foreign_refund, rfl⟩

end UnearnedVerdict

end PubkySwap
