import PubkySwap.ClientReverseRun

/-!
# A claim that is already on the wire

The record of a reverse swap keeps the claims that were broadcast, so that a run
after a restart can adopt the one that is live, keep bumping it and wait until it is
final.  `executeReverseSwap` hands them to the loop that would do so, but it reaches
that loop only through an output that is still unspent.  `live_claim_dropped` is the
consequence: on no chain on which such a claim is the live spend of the output does
a resumed run look at it, and if nothing else pays the address the run ends in the
error that the HTLC did not confirm in time.
-/

namespace PubkySwap

open BitcoinScript (Bytes)
open Program (orThrow iterate Sound Always OnOk RoundMeets OnlyCalls LoggedIf Run Ending
  sound_orThrow_bind)

/-- Everything outside the client, as it answers in the course of a run. -/
abbrev Answers : Type := List Event → (op : Op) → Ans op

/-! ## What a resumed run owes -/

section

variable [Crypto] (claim : ReverseClaim) (resume : Resume) (outpoint : OutPoint) (answers : Answers)

/-- A claim that an earlier run broadcast is the live spend of the output: the output
is not among the unspent ones, and its spend is one the record keeps. -/
structure LiveClaim : Prop where
  spent : ∀ past outputs, answers past (.findOutputs claim.htlcSpk) = .ok outputs →
    ∀ utxo ∈ outputs, utxo.outpoint ≠ outpoint
  live : ∀ past, ∃ tx, answers past (.findSpend claim.htlcSpk outpoint) = .ok (some tx) ∧
    tx.Spends outpoint ∧ Crypto.computeTxid tx ∈ resume.ourSpends

/-- A run of the client against them. -/
def ReverseClaim.runIn (maxRoutingFeeMsat requiredConfirmations poll fuel : ℕ) :
    List Event × Ending DriverError Txid :=
  (executeReverseSwap claim maxRoutingFeeMsat requiredConfirmations poll resume fuel).play
    answers []

/-- What a run after a restart owes a live claim: it asks the chain for the spend it
is to adopt, it returns once that is final, and it never reports an HTLC that did not
confirm in time. -/
structure FollowsThrough (maxRoutingFeeMsat requiredConfirmations poll : ℕ) : Prop where
  adopts : ∃ fuel, ∃ event ∈
    (claim.runIn resume answers maxRoutingFeeMsat requiredConfirmations poll fuel).1,
      event.1 = .findSpend claim.htlcSpk outpoint
  returns : (∀ past txid, txid ∈ resume.ourSpends →
      answers past (.txConfirmations claim.htlcSpk txid) = .ok (some finalityDepth)) →
    ∃ fuel txid, txid ∈ resume.ourSpends ∧
      (claim.runIn resume answers maxRoutingFeeMsat requiredConfirmations poll fuel).2 =
        .returned txid
  inTime : ∀ fuel tip,
    (claim.runIn resume answers maxRoutingFeeMsat requiredConfirmations poll fuel).2 ≠
      .failed (claim.notConfirmedInTime tip)

/-- Nothing else pays the address, the payment stands, and the chain goes on until a
claim is not safe to start any more. -/
structure NothingElse : Prop where
  empty : ∀ past, answers past (.findOutputs claim.htlcSpk) = .ok []
  paying : ∀ past, ∃ result, answers past (.paymentStatus claim.paymentHash) =
    .ok (.succeeded result) ∨ answers past (.paymentStatus claim.paymentHash) = .ok .inFlight
  tip : ∀ past, ∃ tip, answers past .tipHeight = .ok tip
  late : ∃ rounds, ∀ past tip, rounds ≤ past.length → answers past .tipHeight = .ok tip →
    claimStartIsSafe tip claim.timeoutHeight = false

end

/-! ## What it does instead -/

/-- Calls that look at an output or spend it. -/
def Op.concerns (outpoint : OutPoint) : Op → Prop
  | .findSpend _ o => o = outpoint
  | .outpointStatus _ o => o = outpoint
  | .broadcast tx => tx.Spends outpoint
  | _ => False

/-- A program that leaves an output alone. -/
abbrev Ignores {ε α : Type} (outpoint : OutPoint) (p : Driver ε α) : Prop :=
  OnlyCalls (fun op => ¬op.concerns outpoint) p

section

variable [Crypto] {claim : ReverseClaim} {resume : Resume} {outpoint : OutPoint}
  {maxRoutingFeeMsat requiredConfirmations poll fuel : ℕ} {paying : Bool}

/-- A claim of one output is no claim of another. -/
theorem not_spends_of_buildClaimTx {funding : OutPoint} {valueSat feeSat : ℕ}
    {redeemScript destSpk : Bytes} {preimage : Preimage} {claimKey : SecretKey} {tx : Transaction}
    (hbuild : buildClaimTx funding valueSat redeemScript destSpk feeSat preimage claimKey = .ok tx)
    (hne : funding ≠ outpoint) : ¬tx.Spends outpoint := by
  obtain ⟨lockTime, sighash, rfl⟩ := buildHtlcSpend_eq_ok hbuild
  rintro ⟨input, hmem, hinput⟩
  rw [List.mem_singleton.mp hmem] at hinput
  exact hne hinput

theorem ignores_claimJob {funding : FundingUtxo} (hne : funding.outpoint ≠ outpoint) :
    JobCalls (claim.claimJob resume funding poll) (fun op => ¬op.concerns outpoint) where
  tip := nofun
  rates := nofun
  spend := hne
  depth := nofun
  reports := nofun
  publishes := fun _ _ hbuild => not_spends_of_buildClaimTx hbuild hne
  pulls := nofun
  clock := nofun
  pause := nofun

omit [Crypto] in
theorem ReverseClaim.Prepares.ignores {op : Op} (h : claim.Prepares op) :
    ¬op.concerns outpoint := by
  cases op
  all_goals first | exact h.elim | simp [Op.concerns]

/-- A claim of another output leaves this one alone. -/
theorem ignores_driveClaim {funding : FundingUtxo} (hne : funding.outpoint ≠ outpoint) :
    Ignores outpoint (claim.driveClaim resume funding poll paying fuel) := by
  refine OnlyCalls.bind (fun r => ?_)
    ((ignores_claimJob hne).calls_confirmOrBump fuel ()).mapError
  obtain ⟨outcome, _⟩ := r
  cases outcome with
  | confirmed txid =>
      have hsettle : Preparing claim (ReverseClaim.settlePayment paying) := preparing_settlePayment
      exact OnlyCalls.bind (fun _ => Program.onlyCalls_pure _) (hsettle.mono fun _ h => h.ignores)
  | conflictingSpend tx => trivial
  | deadlineExceeded lastTxid tip => trivial

/-- Answers in which the output is not among the unspent ones. -/
def Unlisted (spk : Bytes) (outpoint : OutPoint) (op : Op) (answer : Ans op) : Prop :=
  ∀ outputs, (⟨op, answer⟩ : Event) = ⟨.findOutputs spk, .ok outputs⟩ →
    ∀ utxo ∈ outputs, utxo.outpoint ≠ outpoint

/-- What a run that leaves an output alone has done so far. -/
def LeftAlone (outpoint : OutPoint) (log : List Event) : Prop :=
  ∀ event ∈ log, ¬event.1.concerns outpoint

omit [Crypto] in
theorem Ignores.sound {ε α : Type} {p : Driver ε α} {log : List Event}
    {A : (op : Op) → Ans op → Prop}
    (hp : Ignores outpoint p) (hlog : LeftAlone outpoint log) :
    Sound (LoggedIf A) (LeftAlone outpoint) (fun log _ => LeftAlone outpoint log) p log := by
  refine OnlyCalls.sound ?_ hp hlog
  rintro log op answer _ hop hlog ⟨-, rfl⟩ event hmem
  rcases List.mem_append.mp hmem with hmem | hmem
  · exact hlog event hmem
  · rw [List.mem_singleton.mp hmem]
    exact hop

omit [Crypto] in
/-- A look at the address finds another output, or none. -/
theorem sound_fundingRound_unlisted {log : List Event} (hlog : LeftAlone outpoint log) :
    Sound (LoggedIf (Unlisted claim.htlcSpk outpoint)) (LeftAlone outpoint)
      (RoundMeets (fun _ log => LeftAlone outpoint log)
        (OnOk fun (utxo : FundingUtxo) _ => utxo.outpoint ≠ outpoint))
      (claim.fundingRound requiredConfirmations poll paying) log := by
  refine ⟨hlog, ?_⟩
  rintro answer _ ⟨hlisted, rfl⟩
  have hlog' : LeftAlone outpoint (log ++ [⟨.findOutputs claim.htlcSpk, answer⟩]) := by
    intro event hmem
    rcases List.mem_append.mp hmem with hmem | hmem
    · exact hlog event hmem
    · rw [List.mem_singleton.mp hmem]
      exact nofun
  refine sound_orThrow_bind hlog' (fun _ _ => trivial) fun outputs houtputs => ?_
  refine sound_orThrow_bind hlog' (fun _ _ => trivial) fun found hfound => ?_
  cases found with
  | none =>
      have hwait : Preparing claim (claim.keepWaiting poll paying) := preparing_keepWaiting
      refine Sound.bind ?_ (fun _ _ _ _ => trivial)
        (Ignores.sound (hwait.mono fun _ h => h.ignores) hlog')
      exact fun _ _ hlog _ => ⟨hlog, hlog⟩
  | some utxo =>
      have hmem := (selectFunding_adopted (fundingToClaim_eq_some hfound).1).1
      subst houtputs
      exact ⟨hlog', hlisted outputs rfl utxo hmem⟩

theorem executeReverseSwap_unlisted (fuel : ℕ) :
    Sound (LoggedIf (Unlisted claim.htlcSpk outpoint)) (LeftAlone outpoint) (fun _ _ => True)
      (executeReverseSwap claim maxRoutingFeeMsat requiredConfirmations poll resume fuel) [] := by
  have hstart : Preparing claim (claim.startPayment maxRoutingFeeMsat resume) :=
    preparing_startPayment
  refine Sound.bind ?_ (fun _ _ _ _ => trivial)
    (Ignores.sound (hstart.mono fun _ h => h.ignores) nofun)
  intro log paying hlog _
  refine Sound.bind ?_ (fun _ _ _ _ => trivial)
    (Sound.iterate (J := fun _ log => LeftAlone outpoint log) (fun _ _ h => h)
      (fun _ _ h => sound_fundingRound_unlisted h) fuel hlog)
  intro log funding hlog hne
  have hrest : Ignores outpoint (Program.bind (tipHeight (chainError "tip_height")) fun tip =>
      if claimStartIsSafe tip claim.timeoutHeight then
        claim.driveClaim resume funding poll paying fuel
      else Program.throw (claim.confirmedTooLate tip)) := by
    refine ⟨nofun, fun answer => Program.onlyCalls_orThrow_bind fun tip _ => ?_⟩
    split
    · exact ignores_driveClaim hne
    · trivial
  exact Sound.mono (fun _ h => h) (fun _ _ _ _ => trivial) (hrest.sound hlog)

/-! ### An address that nothing else pays -/

variable {answers : Answers}

omit [Crypto] in
/-- One round over an empty address, without a payment of this run. -/
theorem play_fundingRound {past : List Event} {tip : ℕ}
    (hempty : answers past (.findOutputs claim.htlcSpk) = .ok [])
    (htip : answers (⟨.findOutputs claim.htlcSpk, .ok []⟩ :: past) .tipHeight = .ok tip) :
    ((iterate (fun _ => claim.fundingRound requiredConfirmations poll false) (fuel + 1) ()).play
      answers past).2 =
      if claimStartIsSafe tip claim.timeoutHeight then
        ((iterate (fun _ => claim.fundingRound requiredConfirmations poll false) fuel ()).play
          answers (⟨.sleep poll, ()⟩ :: ⟨.tipHeight, .ok tip⟩ ::
            ⟨.findOutputs claim.htlcSpk, .ok []⟩ :: past)).2
      else .failed (claim.notConfirmedInTime tip) := by
  have hnone : claim.fundingToClaim requiredConfirmations [] = .ok none := rfl
  rw [Program.iterate]
  simp only [ReverseClaim.fundingRound, findOutputs, Program.bind_eq, Program.call_bind,
    Program.play, hempty, Program.orThrow_ok, Program.pure_bind, hnone,
    ReverseClaim.keepWaiting, tipHeight, htip]
  by_cases hsafe : claimStartIsSafe tip claim.timeoutHeight = true
  · simp only [hsafe, ReverseClaim.taskEnded]
    rfl
  · simp only [hsafe]
    rfl

omit [Crypto] in
/-- The tip ends the loop once it is late enough. -/
theorem play_fundingLoop
    (hempty : ∀ past, answers past (.findOutputs claim.htlcSpk) = .ok [])
    (htips : ∀ past, ∃ tip, answers past .tipHeight = .ok tip) {rounds : ℕ}
    (hlate : ∀ past tip, rounds ≤ past.length → answers past .tipHeight = .ok tip →
      claimStartIsSafe tip claim.timeoutHeight = false) :
    ∀ (n : ℕ) (past : List Event), rounds ≤ past.length + n →
      ∃ fuel tip,
        ((iterate (fun _ => claim.fundingRound requiredConfirmations poll false) fuel ()).play
          answers past).2 = .failed (claim.notConfirmedInTime tip) := by
  intro n
  induction n with
  | zero =>
      intro past hpast
      obtain ⟨tip, htip⟩ := htips (⟨.findOutputs claim.htlcSpk, .ok []⟩ :: past)
      refine ⟨1, tip, ?_⟩
      have hunsafe := hlate _ tip (by rw [List.length_cons]; omega) htip
      rw [play_fundingRound (hempty past) htip, hunsafe]
      rfl
  | succ n ih =>
      intro past hpast
      obtain ⟨tip, htip⟩ := htips (⟨.findOutputs claim.htlcSpk, .ok []⟩ :: past)
      by_cases hsafe : claimStartIsSafe tip claim.timeoutHeight = true
      · obtain ⟨fuel, last, hlast⟩ := ih (⟨.sleep poll, ()⟩ :: ⟨.tipHeight, .ok tip⟩ ::
          ⟨.findOutputs claim.htlcSpk, .ok []⟩ :: past) (by simp only [List.length_cons]; omega)
        refine ⟨fuel + 1, last, ?_⟩
        rw [play_fundingRound (hempty past) htip, if_pos hsafe]
        exact hlast
      · refine ⟨1, tip, ?_⟩
        rw [play_fundingRound (hempty past) htip, if_neg hsafe]

/-- A payment that stands is not started again. -/
theorem play_executeReverseSwap {result : PaymentResult} {past : List Event}
    (hpaying : answers [] (.paymentStatus claim.paymentHash) = .ok (.succeeded result) ∨
      answers [] (.paymentStatus claim.paymentHash) = .ok .inFlight)
    (hpast : past = [⟨.paymentStatus claim.paymentHash,
      answers [] (.paymentStatus claim.paymentHash)⟩]) {e : DriverError}
    (hloop : ((iterate (fun _ => claim.fundingRound requiredConfirmations poll false) fuel ()).play
      answers past).2 = .failed e) :
    (claim.runIn resume answers maxRoutingFeeMsat requiredConfirmations poll fuel).2 =
      .failed e := by
  subst hpast
  unfold ReverseClaim.runIn executeReverseSwap
  rcases hpaying with hpaying | hpaying
  all_goals
    rw [hpaying] at hloop
    simp only [ReverseClaim.startPayment, ReverseClaim.alreadyPaying, paymentStatus,
      Program.bind_eq, Program.call_bind, Program.play, hpaying, Program.pure_bind,
      Program.pure_eq, if_true]
    exact Program.play_bind_failed _ hloop

/-! ## The verdict -/

/-- **A live claim is dropped.**  On no chain on which a claim of an earlier run is the
live spend of the HTLC output does a resumed run follow it through: no call of the run
looks at the output or spends it, and if nothing else pays the address, the run of
enough rounds ends in the error that the HTLC did not confirm in time. -/
theorem live_claim_dropped (hlive : LiveClaim claim resume outpoint answers)
    (maxRoutingFeeMsat requiredConfirmations poll : ℕ) :
    ¬FollowsThrough claim resume outpoint answers maxRoutingFeeMsat requiredConfirmations poll ∧
      (∀ fuel, LeftAlone outpoint
        (claim.runIn resume answers maxRoutingFeeMsat requiredConfirmations poll fuel).1) ∧
      (NothingElse claim answers → ∃ fuel tip,
        (claim.runIn resume answers maxRoutingFeeMsat requiredConfirmations poll fuel).2 =
          .failed (claim.notConfirmedInTime tip)) := by
  have hleft : ∀ fuel, LeftAlone outpoint
      (claim.runIn resume answers maxRoutingFeeMsat requiredConfirmations poll fuel).1 := by
    intro fuel
    have hlisted : ∀ event ∈
        (claim.runIn resume answers maxRoutingFeeMsat requiredConfirmations poll fuel).1,
        Unlisted claim.htlcSpk outpoint event.1 event.2 := by
      rintro ⟨op, answer⟩ hmem outputs heq
      obtain ⟨past, hanswer⟩ := Program.mem_play answers hmem
      cases heq
      exact hlive.spent past outputs hanswer.symm
    have hrun := Program.run_play answers
      (executeReverseSwap claim maxRoutingFeeMsat requiredConfirmations poll resume fuel) []
    exact (hrun.soundIf hlisted (executeReverseSwap_unlisted fuel)).1
  refine ⟨?_, hleft, ?_⟩
  · rintro ⟨⟨fuel, event, hmem, hspend⟩, -, -⟩
    refine hleft fuel event hmem ?_
    rw [hspend]
    exact rfl
  · rintro ⟨hempty, hpaying, htips, rounds, hlate⟩
    obtain ⟨result, hpaying⟩ := hpaying []
    obtain ⟨fuel, tip, hloop⟩ := play_fundingLoop hempty htips hlate rounds
      [⟨.paymentStatus claim.paymentHash, answers [] (.paymentStatus claim.paymentHash)⟩]
      (by omega)
    exact ⟨fuel, tip, play_executeReverseSwap hpaying rfl hloop⟩

end

/-! ## A restart with the claim in the mempool -/

namespace RestartedClaim

local instance tables : Crypto := tableCrypto []

def outpoint : OutPoint := ⟨7, 0⟩

def claim : ReverseClaim where
  htlcScript := []
  htlcSpk := []
  onchainAmountSat := 100000
  timeoutHeight := 800144
  invoice := "hold-invoice"
  preimage := Bytes32.ofNat 81
  claimKey := Bytes32.ofNat 1
  destSpk := []
  feeRateSatVb := 2

/-- The claim of the earlier run. -/
def live : Transaction where
  version := 2
  lockTime := 0
  input := [{ previousOutput := outpoint, scriptSig := [], sequence := 0, witness := [] }]
  output := [{ value := 99000, scriptPubkey := [] }]

/-- The payment was started, and the claim recorded before its broadcast. -/
def resume : Resume := { invoicePayStartedAtUnix := some 1700000000, ourSpends := [99000] }

/-- The claim is mined and final, four blocks before the timeout. -/
def answers : Answers
  | _, .tipHeight => .ok 800140
  | _, .findSpend .. => .ok (some live)
  | _, .txConfirmations .. => .ok (some 2)
  | _, .paymentStatus _ => .ok .inFlight
  | _, op => idle op

theorem liveClaim : LiveClaim claim resume outpoint answers := by
  refine ⟨?_, fun _ => ⟨live, rfl, by decide, by decide⟩⟩
  rintro past outputs ⟨⟩ utxo hutxo
  cases hutxo

theorem nothingElse : NothingElse claim answers := by
  refine ⟨fun _ => rfl, fun _ => ⟨⟨Bytes32.ofNat 0, 0⟩, Or.inr rfl⟩, fun _ => ⟨800140, rfl⟩, 0, ?_⟩
  rintro past tip - ⟨⟩
  decide

/-- **The run after the restart reports an HTLC that never confirmed**, though the
claim of the run before is final. -/
theorem final_claim_not_confirmed_in_time :
    LiveClaim claim resume outpoint answers ∧
      (claim.runIn resume answers 1000 1 2 1).2 = .failed (claim.notConfirmedInTime 800140) ∧
      ¬FollowsThrough claim resume outpoint answers 1000 1 2 := by
  have hfails : (claim.runIn resume answers 1000 1 2 1).2 =
      .failed (claim.notConfirmedInTime 800140) := by
    decide +kernel
  exact ⟨liveClaim, hfails, fun hthrough => hthrough.inTime 1 800140 hfails⟩

/-- The general statement at the same restart. -/
theorem live_claim_dropped_restarted :
    ¬FollowsThrough claim resume outpoint answers 1000 1 2 ∧
      (∀ fuel, LeftAlone outpoint (claim.runIn resume answers 1000 1 2 fuel).1) ∧
      ∃ fuel tip,
        (claim.runIn resume answers 1000 1 2 fuel).2 = .failed (claim.notConfirmedInTime tip) := by
  obtain ⟨hnot, hleft, hlate⟩ := live_claim_dropped liveClaim 1000 1 2
  exact ⟨hnot, hleft, hlate nothingElse⟩

end RestartedClaim

end PubkySwap
