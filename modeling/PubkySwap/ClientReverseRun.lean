import PubkySwap.ClientReverse

/-!
# When a reverse client reveals its preimage

`reveals_when_open` is the gate of `executeReverseSwap`: whatever the chain and the
node answer, nothing is broadcast before the run has seen the one output that pays
the HTLC, of the right value and deep enough, and right after it a tip with enough
blocks left.

The gate looks for an output that is still unspent.  A claim that an earlier run
broadcast spends it, so a resumed run never gets as far as the loop that would
recognise the claim as its own: `live_claim_dropped` says that it does not look at
the claim, whatever else it does.
-/

namespace PubkySwap

open BitcoinScript (Bytes)
open Program (orThrow iterate Sound Logged OnOk Always RoundMeets OnlyCalls onlyCalls_ask Run
  Ending Guarded sound_logged_call sound_orThrow_bind onlyCalls_pure onlyCalls_orThrow
  onlyCalls_orThrow_bind)

/-! ## The gate -/

section

variable {claim : ReverseClaim} {requiredConfirmations : ℕ}

/-- What a run has to have seen before it may reveal the preimage. -/
def ReverseClaim.Open (claim : ReverseClaim) (requiredConfirmations : ℕ) (log : List Event) :
    Prop :=
  ∃ before utxo tip after,
    log = before ++ ⟨.findOutputs claim.htlcSpk, .ok [utxo]⟩ :: ⟨.tipHeight, .ok tip⟩ :: after ∧
      claim.onchainAmountSat ≤ utxo.valueSat ∧
      utxo.valueSat ≤ claim.onchainAmountSat + defaultMaxOverpaySat ∧
      requiredConfirmations ≤ utxo.confirmations ∧
      claimStartIsSafe tip claim.timeoutHeight = true

theorem ReverseClaim.Open.append {log : List Event} (h : claim.Open requiredConfirmations log)
    (event : Event) : claim.Open requiredConfirmations (log ++ [event]) := by
  obtain ⟨before, utxo, tip, after, rfl, hopen⟩ := h
  exact ⟨before, utxo, tip, after ++ [event], by simp, hopen⟩

/-- **What is claimed** is the only output there is. -/
theorem selectFunding_only {outputs : List FundingUtxo} {expectedSat maxOverpaySat : ℕ}
    {utxo : FundingUtxo}
    (h : (selectFunding outputs expectedSat maxOverpaySat).adopted = some utxo) :
    outputs = [utxo] := by
  match outputs, h with
  | [], h => cases h
  | [only], h =>
      have hmem := (selectFunding_adopted h).1
      rw [List.mem_singleton.mp hmem]
  | _ :: _ :: _, h => cases h

theorem fundingToClaim_eq_some {outputs : List FundingUtxo} {utxo : FundingUtxo}
    (h : claim.fundingToClaim requiredConfirmations outputs = .ok (some utxo)) :
    (selectFunding outputs claim.onchainAmountSat defaultMaxOverpaySat).adopted = some utxo ∧
      requiredConfirmations ≤ utxo.confirmations := by
  unfold ReverseClaim.fundingToClaim at h
  split at h
  all_goals simp only [Except.ok.injEq, reduceCtorEq, Option.ite_none_right_eq_some,
    Option.some.injEq] at h
  · rename_i heq
    rw [heq, ← h.2]
    exact ⟨rfl, h.1⟩
  · rename_i heq
    rw [heq, ← h.2]
    exact ⟨rfl, h.1⟩

end

/-- Calls made before the gate: they publish nothing, look at no single output, and
pay no other invoice. -/
def ReverseClaim.Prepares (claim : ReverseClaim) : Op → Prop
  | .paymentStatus _ | .invoicePayStarted | .findOutputs _ | .tipHeight | .paymentFinished
  | .joinPayment | .sleep _ => True
  | .spawnPayInvoice invoice _ _ => invoice = claim.invoice
  | _ => False

/-- A program of such calls only. -/
abbrev Preparing {ε α : Type} (claim : ReverseClaim) (p : Driver ε α) : Prop :=
  OnlyCalls claim.Prepares p

/-- Calls of a run that waits. -/
def Op.idles : Op → Prop
  | .findOutputs _ | .tipHeight | .paymentFinished | .joinPayment | .sleep _ => True
  | _ => False

theorem Op.idles.prepares {claim : ReverseClaim} {op : Op} (h : op.idles) : claim.Prepares op := by
  cases op
  all_goals first | exact h.elim | trivial

theorem ReverseClaim.Prepares.silent {claim : ReverseClaim} {op : Op} (h : claim.Prepares op) :
    ¬op.broadcasts = true := by
  cases op
  all_goals first | exact h.elim | simp [Op.broadcasts]

section

variable [Crypto] {claim : ReverseClaim} {maxRoutingFeeMsat requiredConfirmations poll fuel : ℕ}
  {resume : Resume} {paying : Bool} {log : List Event}

theorem preparing_startPayment : Preparing claim (claim.startPayment maxRoutingFeeMsat resume) := by
  refine OnlyCalls.bind (fun already => ?_) ⟨trivial, fun status => ?_⟩
  · cases already with
    | true => trivial
    | false =>
        refine ⟨trivial, fun answer => ?_⟩
        exact onlyCalls_orThrow_bind fun _ _ => ⟨rfl, fun _ => trivial⟩
  · dsimp only [Program.pure_bind]
    split <;> trivial

omit [Crypto] in
theorem waiting_taskEnded : OnlyCalls Op.idles (ReverseClaim.taskEnded paying) := by
  cases paying with
  | true => exact ⟨trivial, fun _ => trivial⟩
  | false => trivial

omit [Crypto] in
theorem waiting_paymentEnded : OnlyCalls Op.idles ReverseClaim.paymentEnded :=
  ⟨trivial, fun _ => onlyCalls_orThrow_bind fun _ _ => trivial⟩

omit [Crypto] in
theorem waiting_settlePayment : OnlyCalls Op.idles (ReverseClaim.settlePayment paying) := by
  cases paying with
  | false => trivial
  | true =>
      refine ⟨trivial, fun joined => onlyCalls_orThrow_bind fun result _ => ?_⟩
      exact onlyCalls_orThrow_bind fun _ _ => trivial

omit [Crypto] in
theorem waiting_keepWaiting : OnlyCalls Op.idles (claim.keepWaiting poll paying) := by
  refine ⟨trivial, fun answer => onlyCalls_orThrow_bind fun tip _ => ?_⟩
  split
  · refine OnlyCalls.bind (fun ended => ?_) waiting_taskEnded
    cases ended with
    | true => exact waiting_paymentEnded
    | false => exact ⟨trivial, fun _ => trivial⟩
  · trivial

omit [Crypto] in
theorem preparing_settlePayment : Preparing claim (ReverseClaim.settlePayment paying) :=
  waiting_settlePayment.mono fun _ h => h.prepares

omit [Crypto] in
theorem preparing_keepWaiting : Preparing claim (claim.keepWaiting poll paying) :=
  waiting_keepWaiting.mono fun _ h => h.prepares

/-- The claim needs the gate to have opened: the run before it has. -/
abbrev Gated (claim : ReverseClaim) (requiredConfirmations : ℕ) (log : List Event) : Prop :=
  Guarded (fun op => op.broadcasts = true) (claim.Open requiredConfirmations) log

/-- What the loop has just seen when it finds the output to claim. -/
structure ReverseClaim.Found (claim : ReverseClaim) (requiredConfirmations : ℕ)
    (utxo : FundingUtxo) (log : List Event) : Prop where
  seen : ∃ before, log = before ++ [⟨.findOutputs claim.htlcSpk, .ok [utxo]⟩]
  enough : claim.onchainAmountSat ≤ utxo.valueSat
  notTooMuch : utxo.valueSat ≤ claim.onchainAmountSat + defaultMaxOverpaySat
  deep : requiredConfirmations ≤ utxo.confirmations

omit [Crypto] in
/-- One look at the address broadcasts nothing, and an output it returns is the only
one there is. -/
theorem sound_fundingRound (hlog : Gated claim requiredConfirmations log) :
    Sound Logged (Gated claim requiredConfirmations)
      (RoundMeets (fun _ log => Gated claim requiredConfirmations log)
        (OnOk (claim.Found requiredConfirmations)))
      (claim.fundingRound requiredConfirmations poll paying) log := by
  refine (sound_logged_call _ _).mpr ⟨hlog, fun answer => ?_⟩
  have hlog' : Gated claim requiredConfirmations
      (log ++ [⟨.findOutputs claim.htlcSpk, answer⟩]) := hlog.snoc nofun
  refine sound_orThrow_bind hlog' (fun _ _ => trivial) fun outputs houtputs => ?_
  refine sound_orThrow_bind hlog' (fun _ _ => trivial) fun found hfound => ?_
  cases found with
  | none =>
      refine Sound.bind ?_ (fun _ _ _ _ => trivial)
        ((preparing_keepWaiting.mono fun _ h => h.silent).guarded hlog')
      exact fun _ _ hlog _ => ⟨hlog, hlog⟩
  | some utxo =>
      obtain ⟨hadopted, hdepth⟩ := fundingToClaim_eq_some hfound
      have hvalue := (selectFunding_adopted hadopted).2
      subst houtputs
      rw [selectFunding_only hadopted] at hlog' ⊢
      exact ⟨hlog', ⟨log, rfl⟩, hvalue.1, hvalue.2, hdepth⟩

/-- The gate over a whole run. -/
theorem executeReverseSwap_gated (fuel : ℕ) :
    Sound Logged (Gated claim requiredConfirmations) (fun _ _ => True)
      (executeReverseSwap claim maxRoutingFeeMsat requiredConfirmations poll resume fuel) [] := by
  have hstart : Sound Logged (Gated claim requiredConfirmations)
      (fun log _ => Gated claim requiredConfirmations log)
      (claim.startPayment maxRoutingFeeMsat resume) [] :=
    (preparing_startPayment.mono fun _ h => h.silent).guarded Program.guarded_nil
  refine Sound.bind ?_ (fun _ _ _ _ => trivial) hstart
  intro log paying hlog _
  have hloop : Sound Logged (Gated claim requiredConfirmations)
      (OnOk (claim.Found requiredConfirmations))
      (iterate (fun _ => claim.fundingRound requiredConfirmations poll paying) fuel ()) log :=
    Sound.iterate (J := fun _ log => Gated claim requiredConfirmations log) (fun _ _ h => h)
      (fun _ _ h => sound_fundingRound h) fuel hlog
  refine Sound.bind ?_ (fun _ _ _ _ => trivial) hloop
  rintro _ funding hlog ⟨⟨before, rfl⟩, henough, hmuch, hdeep⟩
  refine (sound_logged_call _ _).mpr ⟨hlog, fun answer => ?_⟩
  have hlog' : Gated claim requiredConfirmations (_ ++ [⟨.tipHeight, answer⟩]) :=
    hlog.snoc nofun
  refine sound_orThrow_bind hlog' (fun _ _ => trivial) fun tip htip => ?_
  subst htip
  split
  · -- The gate is open: whatever the claim does from here on, it has been.
    rename_i hsafe
    have hopen : claim.Open requiredConfirmations (before ++
        [⟨.findOutputs claim.htlcSpk, .ok [funding]⟩] ++ [⟨.tipHeight, .ok tip⟩]) :=
      ⟨before, funding, tip, [], by simp, henough, hmuch, hdeep, hsafe⟩
    exact Sound.mono (fun _ h => h) (fun _ _ _ _ => trivial)
      (Program.sound_guarded (fun _ event h => h.append event) _ hlog' hopen)
  · exact ⟨hlog', trivial⟩

/-- **The preimage is revealed only through an open gate.**  In every run, before a
transaction is handed to the chain, the run has seen the only unspent output paying
the HTLC, of the right value and deep enough, and right after it a tip at which a
claim is safe to start. -/
theorem reveals_when_open {trace : List Event} {ending : Ending DriverError Txid}
    (hrun : Run (executeReverseSwap claim maxRoutingFeeMsat requiredConfirmations poll resume
      fuel) trace ending) :
    Gated claim requiredConfirmations trace := by
  have hgated := (hrun.sound (executeReverseSwap_gated fuel)).1
  rwa [List.nil_append] at hgated

end

end PubkySwap
