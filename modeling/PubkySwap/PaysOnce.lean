import PubkySwap.DaemonRun

/-!
# The submarine swap is paid for once

The no-second-payment rule of the submarine driver looks at two things of a record, the
funding and the mark of a payment.  The invariant that links them is that no record has the
mark without the funding (`Linked`): a run has pinned the funding, in its copy of the record
at least, before it writes the mark, and writes both at once.

What a run has seen when it pays is a matter of that run alone: the output at depth, and a
tip that leaves the payment's own timelock and the claim window before the refund opens.
The value is that of the output when it was pinned, in this run or an earlier one.
-/

namespace PubkySwap

open Program (Sound OnlyCalls OnOk RoundMeets sound_orThrow_bind onlyCalls_orThrow_bind
  onlyCalls_pure)

/-- The call that cannot be undone. -/
def Op.paysInvoice : Op → Bool
  | .payInvoice .. => true
  | _ => false

/-- A record on which no run pays. -/
def Resume.Paying (resume : Resume) : Prop :=
  resume.funding.isSome = true ∧ resume.invoicePayStartedAtUnix.isSome = true

section

variable [Crypto] {swap : SubmarineSwap} {resume : Resume} {alreadyAttempted : Bool}
  {outpoint : OutPoint} {requiredConfirmations poll fuel : ℕ}

/-! ## Once -/

/-- The search for the funding pays no invoice. -/
theorem unpaid_locateFunding : OnlyCalls (fun op => op.paysInvoice = false)
    (locateFunding swap resume requiredConfirmations poll fuel) :=
  calls_locateFunding.mono fun op hop => by cases op <;> first
    | rfl
    | cases hop

/-- The reorg guard pays no invoice. -/
theorem unpaid_measureFunding : OnlyCalls (fun op => op.paysInvoice = false)
    (measureFunding swap alreadyAttempted outpoint requiredConfirmations poll) :=
  calls_measureFunding.mono fun op hop => by cases op <;> first
    | rfl
    | cases hop

/-- The claim pays no invoice. -/
theorem unpaid_claimFunded {fundingValueSat : ℕ} {preimage : Preimage} :
    OnlyCalls (fun op => op.paysInvoice = false)
      (claimFunded swap resume outpoint fundingValueSat preimage poll fuel) :=
  calls_claimFunded.mono fun op hop => by cases op <;> first
    | rfl
    | cases hop

/-- A run on a record with the mark only asks what has become of the payment. -/
theorem unpaid_obtainPayment (h : resume.funding.isSome ∧ alreadyAttempted) :
    OnlyCalls (fun op => op.paysInvoice = false)
      (obtainPayment swap resume alreadyAttempted poll) := by
  refine OnlyCalls.bind (fun r => ?_) (OnlyCalls.repeatUpTo (fun _ => ?_) _ _)
  · cases r <;> trivial
  · refine ⟨rfl, fun answer => onlyCalls_orThrow_bind fun status _ => ?_⟩
    cases status with
    | succeeded payment => exact ⟨rfl, fun _ => trivial⟩
    | inFlight => exact ⟨rfl, fun _ => trivial⟩
    | failed reason => trivial
    | unknown | notFound =>
        dsimp only
        rw [if_pos h]
        exact ⟨rfl, fun _ => trivial⟩

namespace Committing

variable {s : Committing}

/-- Nothing has been paid, and the copy has the funding. -/
structure Pinning (s : Committing) : Prop where
  unmade : s.Unmade
  pinned : s.copy.fundingOutpoint.isSome = true

omit [Crypto] in
/-- A call that pays nothing leaves the funding on record and the payment unmade. -/
theorem Pinning.moves {op : Op} {answer : Ans op} {s' : Committing} (h : s.Pinning)
    (hop : op.paysInvoice = false) (hmoves : Advances Resume.Paying Op.paysInvoice s op answer s') :
    s'.Pinning := by
  refine ⟨h.unmade.moves hop hmoves, ?_⟩
  obtain ⟨unix, hcopy⟩ := hmoves.copy
  rw [hcopy]
  exact Reentry.isSome_reported unix op h.pinned

/-- What the search for the funding leaves. -/
def Located : SwapState ⊕ OutPoint → Committing → Prop
  | .inl _, s => s.Unmade
  | .inr _, s => s.Pinning

/-- A round of the search goes on unpaid, or ends with the funding on record. -/
theorem sound_fundingRound (hs : s.Unmade) :
    Sound (Advances Resume.Paying Op.paysInvoice) Safe
      (RoundMeets (fun _ s => s.Unmade) (OnOk Located))
      (fundingRound swap requiredConfirmations poll) s := by
  refine ⟨hs.safe, fun answer looked hmoves => ?_⟩
  have hlooked := hs.moves rfl hmoves
  refine sound_orThrow_bind hlooked.safe (fun _ _ => trivial) fun outputs _ => ?_
  have hawait : ∀ adopted, Sound (Advances Resume.Paying Op.paysInvoice) Safe
      (RoundMeets (fun _ s => s.Unmade) (OnOk Located))
      (awaitDepth swap requiredConfirmations poll adopted) looked := by
    intro adopted
    have hwait : ∀ {s : Committing}, s.Unmade → Sound (Advances Resume.Paying Op.paysInvoice) Safe
        (RoundMeets (fun _ s => s.Unmade) (OnOk Located))
        ((tipHeight DriverError.swap).bind fun tip =>
          if swap.timeoutHeight ≤ tip then Program.pure (.inr (.inl .expired))
          else (sleep poll).bind fun _ => Program.pure (.inl ())) s := by
      intro s hs
      refine ⟨hs.safe, fun answer timed hmoves => ?_⟩
      have htimed := hs.moves rfl hmoves
      refine sound_orThrow_bind htimed.safe (fun _ _ => trivial) fun tip _ => ?_
      split
      · exact ⟨htimed.safe, htimed⟩
      · refine ⟨htimed.safe, fun _ slept hmoves => ?_⟩
        have hslept := htimed.moves rfl hmoves
        exact ⟨hslept.safe, hslept⟩
    cases adopted with
    | none => exact hwait hlooked
    | some utxo =>
        unfold awaitDepth adoptFunding
        dsimp only
        split
        · refine ⟨hlooked.safe, fun _ pinned hmoves => ?_⟩
          have hpinned := hlooked.moves rfl hmoves
          obtain ⟨unix, hcopy⟩ := hmoves.copy
          refine ⟨hpinned.safe, hpinned, ?_⟩
          rw [hcopy, SwapRecord.reported_funded]
          rfl
        · exact hwait hlooked
  split
  · exact ⟨hlooked.safe, hlooked⟩
  · exact ⟨hlooked.safe, hlooked⟩
  · exact ⟨hlooked.safe, hlooked⟩
  · exact hawait _

/-- The search for the funding ends with it on record, or ends the swap unpaid. -/
theorem sound_locateFunding (hs : s.Unmade)
    (hcopy : resume.funding.isSome = true → s.copy.fundingOutpoint.isSome = true) :
    Sound (Advances Resume.Paying Op.paysInvoice) Safe (OnOk Located)
      (locateFunding swap resume requiredConfirmations poll fuel) s := by
  unfold locateFunding
  split
  case h_1 outpoint hfunding =>
      have hpinning : s.Pinning := ⟨hs, hcopy (hfunding ▸ rfl)⟩
      refine ⟨hs.safe, fun answer looked hmoves => ?_⟩
      have hlooked := hpinning.moves rfl hmoves
      refine sound_orThrow_bind hlooked.unmade.safe (fun _ _ => trivial) fun spend _ => ?_
      cases spend with
      | none => exact ⟨hlooked.unmade.safe, hlooked⟩
      | some spend =>
          dsimp only
          split
          · exact ⟨hlooked.unmade.safe, hlooked.unmade⟩
          · exact ⟨hlooked.unmade.safe, hlooked⟩
  case h_2 =>
      exact Sound.iterate (fun _ _ h => h.safe) (fun _ s h => sound_fundingRound h) fuel hs

/-- **The mark first**: it is on disk, and the funding with it, when the node is asked to pay. -/
theorem sound_payOnce (hs : s.Pinning) (cltvLimit : ℕ) :
    Sound (Advances Resume.Paying Op.paysInvoice) Safe (fun _ _ => True)
      (payOnce swap cltvLimit) s := by
  refine ⟨hs.unmade.safe, fun answer started hmoves => ?_⟩
  have hstarted := hs.moves rfl hmoves
  cases answer with
  | error e => exact ⟨hstarted.unmade.safe, trivial⟩
  | ok _ =>
      have hdurable : started.durable := by
        refine hmoves.durable trivial ⟨hstarted.pinned, ?_⟩
        obtain ⟨unix, hcopy⟩ := hmoves.copy
        rw [hcopy, SwapRecord.resume, SwapRecord.reported_invoicePayStarted]
        rfl
      refine ⟨hstarted.unmade.safe, fun answer paid hmoves' => ?_⟩
      have hcount : paid.count = 1 := by
        rw [hmoves'.count, hstarted.unmade]
        rfl
      have hsafe : paid.Safe := ⟨hcount.le, fun _ => hmoves'.kept hdurable⟩
      refine sound_quiet ?_ hsafe
      rcases answer with (_ | _ | _ | _) | payment
      · trivial
      · trivial
      · trivial
      · trivial
      · exact ⟨rfl, fun _ => trivial⟩

/-- The payment is made only after its start and the funding are on record. -/
theorem sound_payWithinTimelocks (hs : s.Pinning) :
    Sound (Advances Resume.Paying Op.paysInvoice) Safe (fun _ _ => True)
      (payWithinTimelocks swap) s := by
  refine ⟨hs.unmade.safe, fun answer timed hmoves => ?_⟩
  have htimed := hs.moves rfl hmoves
  refine sound_orThrow_bind htimed.unmade.safe (fun _ _ => trivial) fun tip _ => ?_
  split
  · exact ⟨htimed.unmade.safe, trivial⟩
  · split
    · exact ⟨htimed.unmade.safe, trivial⟩
    · exact sound_payOnce htimed _

/-- A round of the payment loop goes on unpaid. -/
theorem sound_paymentRound (hs : s.Pinning) :
    Sound (Advances Resume.Paying Op.paysInvoice) Safe
      (RoundMeets (fun _ s => s.Pinning) fun _ _ => True)
      (paymentRound swap resume alreadyAttempted poll) s := by
  refine ⟨hs.unmade.safe, fun answer asked hmoves => ?_⟩
  have hasked := hs.moves rfl hmoves
  have hwait : Sound (Advances Resume.Paying Op.paysInvoice) Safe
      (RoundMeets (fun _ s => s.Pinning) fun _ _ => True)
      ((sleep poll).bind fun _ =>
        (Program.pure (.inl ()) : Driver DriverError (Unit ⊕ (SwapState ⊕ PaymentResult))))
      asked := by
    refine ⟨hasked.unmade.safe, fun _ slept hmoves => ?_⟩
    have hslept := hasked.moves rfl hmoves
    exact ⟨hslept.unmade.safe, hslept⟩
  have hunrecorded : Sound (Advances Resume.Paying Op.paysInvoice) Safe
      (RoundMeets (fun _ s => s.Pinning) fun _ _ => True)
      (if resume.funding.isSome ∧ alreadyAttempted then
        (do sleep poll; pure (.inl ()) : Driver DriverError (Unit ⊕ (SwapState ⊕ PaymentResult)))
      else payWithinTimelocks swap >>= fun outcome => pure (.inr outcome)) asked := by
    split
    · exact hwait
    · refine Sound.bind (fun s outcome hs _ => ?_) (fun _ _ _ _ => trivial)
        (sound_payWithinTimelocks hasked)
      exact ⟨hs, trivial⟩
  refine sound_orThrow_bind hasked.unmade.safe (fun _ _ => trivial) fun status _ => ?_
  cases status with
  | succeeded payment =>
      refine ⟨hasked.unmade.safe, fun _ paid hmoves => ?_⟩
      exact ⟨(hasked.moves rfl hmoves).unmade.safe, trivial⟩
  | inFlight => exact hwait
  | failed reason => exact ⟨hasked.unmade.safe, trivial⟩
  | unknown => exact hunrecorded
  | notFound => exact hunrecorded

/-- The payment loop pays once, by induction over its rounds. -/
theorem sound_obtainPayment (hs : s.Pinning) :
    Sound (Advances Resume.Paying Op.paysInvoice) Safe (fun _ _ => True)
      (obtainPayment swap resume alreadyAttempted poll) s := by
  have hrounds : Sound (Advances Resume.Paying Op.paysInvoice) Safe (fun _ _ => True)
      (Program.repeatUpTo (fun _ => paymentRound swap resume alreadyAttempted poll)
        paymentPollIterations ()) s := by
    refine Sound.repeatUpTo (fun _ _ h => h.unmade.safe) (fun _ _ _ => trivial)
      (fun _ s h => Sound.mono (fun _ h => h) ?_ (sound_paymentRound h)) _ hs
    rintro s (_ | _ | _) _ h
    · trivial
    · exact h
    · trivial
  refine Sound.bind (fun s outcome hs _ => ?_) (fun _ _ _ _ => trivial) hrounds
  cases outcome <;> exact ⟨hs, trivial⟩

/-- The reorg guard leaves the funding on record and the payment unmade. -/
theorem sound_measureFunding (hs : s.Pinning) :
    Sound (Advances Resume.Paying Op.paysInvoice) Safe (fun s _ => s.Pinning)
      (measureFunding swap alreadyAttempted outpoint requiredConfirmations poll) s :=
  Sound.mono (fun _ h => h.unmade.safe) (fun _ _ h _ => h)
    (OnlyCalls.sound (fun _ _ _ _ hop h hmoves => Pinning.moves h hop hmoves)
      unpaid_measureFunding hs)

/-- **The submarine driver** asks the node to pay once, with the mark and the funding on
disk. -/
theorem commits_submarineRun (swap : SubmarineSwap) (poll : ℕ) :
    Commits Resume.Paying Op.paysInvoice (submarineRun swap poll) := by
  intro rec fuel s hcopy hdurable hsafe
  by_cases hpaying : rec.resume.Paying
  · refine sound_quiet (OnlyCalls.bind (fun located => ?_) unpaid_locateFunding) hsafe
    cases located with
    | inl state => trivial
    | inr outpoint =>
        refine OnlyCalls.bind (fun measured => ?_) unpaid_measureFunding
        cases measured with
        | inl state => trivial
        | inr fundingValueSat =>
            refine OnlyCalls.bind (fun paid => ?_) (unpaid_obtainPayment ⟨hpaying.1, hpaying.2⟩)
            cases paid with
            | inl state => trivial
            | inr payment =>
                dsimp only
                split
                · trivial
                · exact unpaid_claimFunded
  · have hunmade : s.Unmade := by
      by_contra hmade
      exact hpaying (hdurable (hsafe.durable (Nat.pos_of_ne_zero hmade)))
    have hpinned : rec.resume.funding.isSome = true → s.copy.fundingOutpoint.isSome = true := by
      rw [hcopy]
      exact fun hfunding => hfunding
    refine Sound.bind (fun s located hs hlocated => ?_) (fun _ _ _ _ => trivial)
      (sound_locateFunding hunmade hpinned)
    cases located with
    | inl state => exact ⟨hs, trivial⟩
    | inr outpoint =>
        refine Sound.bind (fun s measured hs hmeasured => ?_) (fun _ _ _ _ => trivial)
          (sound_measureFunding hlocated)
        cases measured with
        | inl state => exact ⟨hs, trivial⟩
        | inr fundingValueSat =>
            refine Sound.bind (fun s paid hs _ => ?_) (fun _ _ _ _ => trivial)
              (sound_obtainPayment hmeasured)
            cases paid with
            | inl state => exact ⟨hs, trivial⟩
            | inr payment =>
                dsimp only
                split
                · exact ⟨hs, trivial⟩
                · exact sound_quiet unpaid_claimFunded hs

end Committing

/-! ## What a run has seen when it pays -/

/-- The output that is pinned has been seen unspent and at depth in this run. -/
def SawFunding (swap : SubmarineSwap) (fits : OutPoint → Prop) (start : SwapRecord)
    (before : List Event) : Prop :=
  ∃ outpoint utxo, Pinned start.resume before outpoint ∧ fits outpoint ∧
    ⟨.outpointStatus swap.htlcSpk outpoint, .ok (some utxo)⟩ ∈ before ∧
      start.requiredConfirmations ≤ utxo.confirmations

/-- The tip, read just before, leaves the payment and the claim their time. -/
def InTime (swap : SubmarineSwap) (limit : Option ℕ) (before : List Event) : Prop :=
  ∃ early tip cltvLimit,
    before = early ++ [⟨.tipHeight, .ok tip⟩, ⟨.invoicePayStarted, .ok ()⟩] ∧
      limit = some cltvLimit ∧
        tip + cltvLimit + swap.timelock.minClaimWindowBlocks ≤ swap.timeoutHeight

/-- The payment, with this limit. -/
def Op.PaysWith (limit : Option ℕ) (op : Op) : Prop :=
  ∃ invoice maxFeeMsat, op = .payInvoice invoice maxFeeMsat limit

/-- No record has the mark of a payment without a funding, and each funding fits. -/
structure Linked (fits : OutPoint → Prop) (rec : SwapRecord) : Prop where
  pinned : rec.invoicePayStartedAtUnix.isSome = true → rec.fundingOutpoint.isSome = true
  fits : ∀ outpoint, rec.fundingOutpoint = some outpoint → fits outpoint

/-- What a run keeps of its record, and has seen when it pays. -/
structure Informed (swap : SubmarineSwap) (allowed : (op : Op) → Ans op → Prop)
    (fits : OutPoint → Prop) (start : SwapRecord) (s : Progressing) : Prop where
  linked : Linked fits s.copy
  allowed : ∀ event ∈ s.trace, allowed event.1 event.2
  paid : ∀ limit, Program.Guarded (Op.PaysWith limit)
    (fun before => SawFunding swap fits start before ∧ InTime swap limit before) s.trace

/-- The calls that change neither mark and pay nothing. -/
def Op.inert : Op → Bool
  | .funded _ | .invoicePayStarted | .payInvoice .. => false
  | _ => true

namespace Informed

open Progressing (Advances)

variable {allowed : (op : Op) → Ans op → Prop} {fits : OutPoint → Prop} {rec : SwapRecord}
  {s s' : Progressing} {op : Op} {answer : Ans op}

/-- A call that does not pay leaves what has been seen before payments. -/
theorem paid_moves (h : Informed swap allowed fits rec s) (hop : op.paysInvoice = false)
    (hmoves : Advances allowed s op answer s') :
    ∀ limit, Program.Guarded (Op.PaysWith limit)
      (fun before => SawFunding swap fits rec before ∧ InTime swap limit before) s'.trace := by
  intro limit
  rw [hmoves.trace]
  refine (h.paid limit).snoc ?_
  rintro ⟨invoice, maxFeeMsat, rfl⟩
  cases hop

/-- After one call more every answer is still an allowed one. -/
theorem allowed_moves (h : Informed swap allowed fits rec s)
    (hmoves : Advances allowed s op answer s') :
    ∀ event ∈ s'.trace, allowed event.1 event.2 := by
  rw [hmoves.trace]
  intro event hmem
  rcases List.mem_append.mp hmem with hmem | hmem
  · exact h.allowed event hmem
  · obtain rfl := List.mem_singleton.mp hmem
    exact hmoves.allowed

/-- A call that changes neither mark and pays nothing keeps what the run knows. -/
theorem moves (h : Informed swap allowed fits rec s) (hop : op.inert = true)
    (hmoves : Advances allowed s op answer s') : Informed swap allowed fits rec s' := by
  obtain ⟨unix, hcopy⟩ := hmoves.copy
  have hfunding : s'.copy.fundingOutpoint = s.copy.fundingOutpoint := by
    rw [hcopy]
    refine SwapRecord.reported_fundingOutpoint _ unix ?_
    rintro outpoint rfl
    cases hop
  have hmark : s'.copy.invoicePayStartedAtUnix = s.copy.invoicePayStartedAtUnix := by
    rw [hcopy]
    refine SwapRecord.reported_invoicePayStartedAtUnix _ unix ?_
    rintro rfl
    cases hop
  refine ⟨⟨?_, ?_⟩, h.allowed_moves hmoves, h.paid_moves ?_ hmoves⟩
  · rw [hfunding, hmark]
    exact h.linked.pinned
  · rw [hfunding]
    exact h.linked.fits
  · cases op <;> first
      | rfl
      | cases hop

/-- The run has pinned an output that fits. -/
structure Pins (fits : OutPoint → Prop) (rec : SwapRecord) (outpoint : OutPoint)
    (s : Progressing) : Prop where
  pinned : Pinned rec.resume s.trace outpoint
  fits : fits outpoint
  copy : s.copy.fundingOutpoint.isSome = true

omit [Crypto] in
/-- No call takes a pinned output back. -/
theorem Pins.moves (h : Pins fits rec outpoint s) (hmoves : Advances allowed s op answer s') :
    Pins fits rec outpoint s' := by
  refine ⟨?_, h.fits, ?_⟩
  · rw [hmoves.trace]
    exact h.pinned.imp_right fun hmem => List.mem_append_left _ hmem
  · obtain ⟨unix, hcopy⟩ := hmoves.copy
    rw [hcopy]
    exact Reentry.isSome_reported unix op h.copy

/-- It has looked at it, too. -/
structure Sees (swap : SubmarineSwap) (fits : OutPoint → Prop) (rec : SwapRecord)
    (alreadyAttempted : Bool) (outpoint : OutPoint) (s : Progressing) : Prop where
  pins : Pins fits rec outpoint s
  seen : ∃ utxo, ⟨.outpointStatus swap.htlcSpk outpoint, .ok (some utxo)⟩ ∈ s.trace ∧
    (rec.requiredConfirmations ≤ utxo.confirmations ∨ alreadyAttempted = true)

/-- No call takes back what has been seen of the funding. -/
theorem Sees.moves (h : Sees swap fits rec alreadyAttempted outpoint s)
    (hmoves : Advances allowed s op answer s') :
    Sees swap fits rec alreadyAttempted outpoint s' := by
  obtain ⟨utxo, hmem, hdeep⟩ := h.seen
  refine ⟨h.pins.moves hmoves, utxo, ?_, hdeep⟩
  rw [hmoves.trace]
  exact List.mem_append_left _ hmem

/-- What the search for the funding leaves. -/
def Located (fits : OutPoint → Prop) (rec : SwapRecord) : SwapState ⊕ OutPoint → Progressing → Prop
  | .inl _, _ => True
  | .inr outpoint, s => Pins fits rec outpoint s

/-- An output is pinned if the chain shows it alone and at a price in range. -/
def Prices (swap : SubmarineSwap) (allowed : (op : Op) → Ans op → Prop)
    (fits : OutPoint → Prop) : Prop :=
  ∀ spk outputs, allowed (.findOutputs spk) (.ok outputs) → ∀ utxo ∈ outputs,
    swap.onchainAmountSat ≤ utxo.valueSat →
      utxo.valueSat ≤ swap.onchainAmountSat + defaultMaxOverpaySat → fits utxo.outpoint

/-- An output that is adopted fits, and is reported before it is used. -/
theorem sound_adoptFunding (hprices : Prices swap allowed fits) {spk : BitcoinScript.Bytes}
    {outputs : List FundingUtxo} (houtputs : allowed (.findOutputs spk) (.ok outputs))
    (h : Informed swap allowed fits rec s) {adopted : Option FundingUtxo}
    (hadopted : (selectFunding outputs swap.onchainAmountSat defaultMaxOverpaySat).adopted =
      adopted) :
    Sound (Advances allowed) (Informed swap allowed fits rec)
      (OnOk fun found s => ∀ outpoint, found = some outpoint → Pins fits rec outpoint s)
      (adoptFunding rec.requiredConfirmations adopted) s := by
  cases adopted with
  | none => exact ⟨h, nofun⟩
  | some utxo =>
      obtain ⟨hmem, hle, hge⟩ := selectFunding_adopted hadopted
      have hfits : fits utxo.outpoint := hprices spk outputs houtputs utxo hmem hle hge
      unfold adoptFunding
      dsimp only
      split
      · refine ⟨h, fun answer s' hmoves => ?_⟩
        obtain ⟨unix, hcopy⟩ := hmoves.copy
        have hfunding : s'.copy.fundingOutpoint = some utxo.outpoint := by
          rw [hcopy, SwapRecord.reported_funded]
        have hsome : s'.copy.fundingOutpoint.isSome = true := hfunding ▸ rfl
        refine ⟨⟨⟨fun _ => hsome, ?_⟩, h.allowed_moves hmoves, h.paid_moves rfl hmoves⟩, ?_⟩
        · intro outpoint heq
          obtain rfl := Option.some.inj (hfunding.symm.trans heq)
          exact hfits
        · rintro outpoint ⟨⟩
          refine ⟨.inr ?_, hfits, hsome⟩
          rw [hmoves.trace]
          exact List.mem_append_right _ (List.mem_singleton_self _)
      · exact ⟨h, nofun⟩

/-- A round of the search goes on, or ends with an output that fits pinned. -/
theorem sound_fundingRound (hprices : Prices swap allowed fits)
    (h : Informed swap allowed fits rec s) :
    Sound (Advances allowed) (Informed swap allowed fits rec)
      (RoundMeets (fun _ s => Informed swap allowed fits rec s) (OnOk (Located fits rec)))
      (fundingRound swap rec.requiredConfirmations poll) s := by
  refine ⟨h, fun answer looked hmoves => ?_⟩
  have hlooked := h.moves rfl hmoves
  refine sound_orThrow_bind hlooked (fun _ _ => trivial) fun outputs heq => ?_
  subst heq
  split
  · exact ⟨hlooked, trivial⟩
  · exact ⟨hlooked, trivial⟩
  · exact ⟨hlooked, trivial⟩
  · refine Sound.bind (fun s found hs hfound => ?_) (fun _ _ _ _ => trivial)
      (sound_adoptFunding hprices hmoves.allowed hlooked rfl)
    cases found with
    | some outpoint => exact ⟨hs, hfound outpoint rfl⟩
    | none =>
        refine ⟨hs, fun answer timed hmoves => ?_⟩
        have htimed := hs.moves rfl hmoves
        refine sound_orThrow_bind htimed (fun _ _ => trivial) fun tip _ => ?_
        split
        · exact ⟨htimed, trivial⟩
        · refine ⟨htimed, fun _ slept hmoves => ?_⟩
          have hslept := htimed.moves rfl hmoves
          exact ⟨hslept, hslept⟩

/-- The search ends with an output that fits pinned: the one on record, or one that it
reports. -/
theorem sound_locateFunding (hprices : Prices swap allowed fits) (hrec : Linked fits rec)
    (h : Informed swap allowed fits rec s)
    (hcopy : rec.fundingOutpoint.isSome = true → s.copy.fundingOutpoint.isSome = true) :
    Sound (Advances allowed) (Informed swap allowed fits rec) (OnOk (Located fits rec))
      (locateFunding swap rec.resume rec.requiredConfirmations poll fuel) s := by
  unfold locateFunding
  split
  case h_1 outpoint hfunding =>
      have hpins : Pins fits rec outpoint s :=
        ⟨.inl hfunding, hrec.fits outpoint hfunding, hcopy (Option.isSome_of_eq_some hfunding)⟩
      refine ⟨h, fun answer looked hmoves => ?_⟩
      have hlooked := h.moves rfl hmoves
      refine sound_orThrow_bind hlooked (fun _ _ => trivial) fun spend _ => ?_
      cases spend with
      | none => exact ⟨hlooked, hpins.moves hmoves⟩
      | some spend =>
          dsimp only
          split
          · exact ⟨hlooked, trivial⟩
          · exact ⟨hlooked, hpins.moves hmoves⟩
  case h_2 =>
      exact Sound.iterate (J := fun _ s => Informed swap allowed fits rec s) (fun _ _ h => h)
        (fun _ s h => sound_fundingRound hprices h) fuel h

/-- The reorg guard goes on to pay only with the pinned output seen at depth, or for a payment
already started. -/
theorem sound_measureFunding (h : Informed swap allowed fits rec s)
    (hpins : Pins fits rec outpoint s) :
    Sound (Advances allowed) (Informed swap allowed fits rec)
      (OnOk fun measured s => ∀ value, measured = .inr value →
        Sees swap fits rec alreadyAttempted outpoint s)
      (measureFunding swap alreadyAttempted outpoint rec.requiredConfirmations poll) s := by
  refine ⟨h, fun answer looked hmoves => ?_⟩
  have hlooked := h.moves rfl hmoves
  have hmissing : Sound (Advances allowed) (Informed swap allowed fits rec)
      (OnOk fun measured s => ∀ value, measured = .inr value →
        Sees swap fits rec alreadyAttempted outpoint s)
      (missingFunding swap alreadyAttempted outpoint poll >>= fun state =>
        (pure (.inl state) : Driver DriverError (SwapState ⊕ ℕ))) looked := by
    refine Sound.bind (fun s state hs _ => ?_) (fun _ _ _ _ => trivial)
      (OnlyCalls.sound (fun _ op _ _ hop h hmoves => h.moves ?_ hmoves) calls_missingFunding
        hlooked)
    · exact ⟨hs, nofun⟩
    · cases op <;> first
        | rfl
        | cases hop
  refine sound_orThrow_bind hlooked (fun _ _ => trivial) fun status heq => ?_
  subst heq
  cases status with
  | none => exact hmissing
  | some utxo =>
      dsimp only
      split
      case isTrue hdeep =>
          refine ⟨hlooked, fun _ _ => ⟨hpins.moves hmoves, utxo, ?_, hdeep⟩⟩
          rw [hmoves.trace]
          exact List.mem_append_right _ (List.mem_singleton_self _)
      case isFalse => exact hmissing

/-- **The payment**, on a record without the mark: all of it has been seen. -/
theorem sound_payWithinTimelocks (h : Informed swap allowed fits rec s)
    (hsees : Sees swap fits rec false outpoint s) :
    Sound (Advances allowed) (Informed swap allowed fits rec) (fun _ _ => True)
      (payWithinTimelocks swap) s := by
  refine ⟨h, fun answer timed htip => ?_⟩
  have htimed := h.moves rfl htip
  have hsees := hsees.moves htip
  refine sound_orThrow_bind htimed (fun _ _ => trivial) fun tip heq => ?_
  subst heq
  split
  · exact ⟨htimed, trivial⟩
  · split
    · exact ⟨htimed, trivial⟩
    case h_2 cltvLimit hbudget =>
        refine ⟨htimed, fun recorded started hmark => ?_⟩
        have hsees := hsees.moves hmark
        have hstarted : Informed swap allowed fits rec started := by
          obtain ⟨unix, hcopy⟩ := hmark.copy
          have hfunding : started.copy.fundingOutpoint = timed.copy.fundingOutpoint := by
            rw [hcopy]
            exact SwapRecord.reported_fundingOutpoint _ unix nofun
          refine ⟨⟨fun _ => hsees.pins.copy, ?_⟩, htimed.allowed_moves hmark,
            htimed.paid_moves rfl hmark⟩
          rw [hfunding]
          exact htimed.linked.fits
        refine sound_orThrow_bind hstarted (fun _ _ => trivial) fun _ hrecorded => ?_
        subst hrecorded
        refine ⟨hstarted, fun answer paid hpay => ?_⟩
        have hpaid : Informed swap allowed fits rec paid := by
          obtain ⟨unix, hcopy⟩ := hpay.copy
          have hlinked : Linked fits paid.copy := by
            rw [hcopy]
            exact hstarted.linked
          refine ⟨hlinked, hstarted.allowed_moves hpay, fun limit => ?_⟩
          rw [hpay.trace]
          refine (hstarted.paid limit).snoc ?_
          rintro ⟨invoice, maxFeeMsat, hop⟩
          cases hop
          obtain ⟨utxo, hmem, hdeep⟩ := hsees.seen
          refine ⟨⟨outpoint, utxo, hsees.pins.pinned, hsees.pins.fits, hmem,
            hdeep.resolve_right nofun⟩, s.trace, tip, cltvLimit, ?_, rfl,
            submarineCltvBudget_eq_some hbudget⟩
          rw [hmark.trace, htip.trace, List.append_assoc]
          rfl
        rcases answer with (_ | _ | _ | _) | payment
        · exact ⟨hpaid, trivial⟩
        · exact ⟨hpaid, trivial⟩
        · exact ⟨hpaid, trivial⟩
        · exact ⟨hpaid, trivial⟩
        · exact ⟨hpaid, fun _ s' hmoves => ⟨hpaid.moves rfl hmoves, trivial⟩⟩

/-- The payment loop pays only for a funding that was seen at depth, and within the
timelocks. -/
theorem sound_obtainPayment (hrec : Linked fits rec) (h : Informed swap allowed fits rec s)
    (hsees : Sees swap fits rec rec.invoicePayStartedAtUnix.isSome outpoint s) :
    Sound (Advances allowed) (Informed swap allowed fits rec) (fun _ _ => True)
      (obtainPayment swap rec.resume rec.invoicePayStartedAtUnix.isSome poll) s := by
  have hround : ∀ {s : Progressing}, Informed swap allowed fits rec s →
      Sees swap fits rec rec.invoicePayStartedAtUnix.isSome outpoint s →
      Sound (Advances allowed) (Informed swap allowed fits rec)
        (RoundMeets (fun _ s => Informed swap allowed fits rec s ∧
          Sees swap fits rec rec.invoicePayStartedAtUnix.isSome outpoint s) fun _ _ => True)
        (paymentRound swap rec.resume rec.invoicePayStartedAtUnix.isSome poll) s := by
    intro s h hsees
    refine ⟨h, fun answer asked hmoves => ?_⟩
    have hasked := h.moves rfl hmoves
    have hsees := hsees.moves hmoves
    have hwait : Sound (Advances allowed) (Informed swap allowed fits rec)
        (RoundMeets (fun _ s => Informed swap allowed fits rec s ∧
          Sees swap fits rec rec.invoicePayStartedAtUnix.isSome outpoint s) fun _ _ => True)
        ((sleep poll).bind fun _ =>
          (Program.pure (.inl ()) : Driver DriverError (Unit ⊕ (SwapState ⊕ PaymentResult))))
        asked :=
      ⟨hasked, fun _ slept hmoves =>
        ⟨hasked.moves rfl hmoves, hasked.moves rfl hmoves, hsees.moves hmoves⟩⟩
    have hunrecorded : Sound (Advances allowed) (Informed swap allowed fits rec)
        (RoundMeets (fun _ s => Informed swap allowed fits rec s ∧
          Sees swap fits rec rec.invoicePayStartedAtUnix.isSome outpoint s) fun _ _ => True)
        (if rec.resume.funding.isSome ∧ rec.invoicePayStartedAtUnix.isSome then
          (do sleep poll; pure (.inl ()) : Driver DriverError (Unit ⊕ (SwapState ⊕ PaymentResult)))
        else payWithinTimelocks swap >>= fun outcome => pure (.inr outcome)) asked := by
      split
      case isTrue => exact hwait
      case isFalse hnot =>
          -- The mark would come with a funding, so there is none.
          have hunmarked : rec.invoicePayStartedAtUnix.isSome = false := by
            by_contra hmark
            have hmark := Bool.not_eq_false _ ▸ hmark
            exact hnot ⟨hrec.pinned hmark, hmark⟩
          rw [hunmarked] at hsees
          refine Sound.bind (fun s outcome hs _ => ?_) (fun _ _ _ _ => trivial)
            (sound_payWithinTimelocks hasked hsees)
          exact ⟨hs, trivial⟩
    refine sound_orThrow_bind hasked (fun _ _ => trivial) fun status _ => ?_
    cases status with
    | succeeded payment =>
        exact ⟨hasked, fun _ paid hmoves => ⟨hasked.moves rfl hmoves, trivial⟩⟩
    | inFlight => exact hwait
    | failed reason => exact ⟨hasked, trivial⟩
    | unknown => exact hunrecorded
    | notFound => exact hunrecorded
  have hrounds : Sound (Advances allowed) (Informed swap allowed fits rec) (fun _ _ => True)
      (Program.repeatUpTo
        (fun _ => paymentRound swap rec.resume rec.invoicePayStartedAtUnix.isSome poll)
        paymentPollIterations ()) s := by
    refine Sound.repeatUpTo (J := fun _ s => Informed swap allowed fits rec s ∧
      Sees swap fits rec rec.invoicePayStartedAtUnix.isSome outpoint s) (fun _ _ h => h.1)
      (fun _ _ _ => trivial) (fun _ s h => Sound.mono (fun _ h => h) ?_ (hround h.1 h.2)) _
      ⟨h, hsees⟩
    rintro s (_ | _ | _) _ h
    · trivial
    · exact h
    · trivial
  refine Sound.bind (fun s outcome hs _ => ?_) (fun _ _ _ _ => trivial) hrounds
  cases outcome <;> exact ⟨hs, trivial⟩

/-- The claim pays nothing, and so keeps what the run knows. -/
theorem sound_claimFunded {start : SwapRecord} {fundingValueSat : ℕ} {preimage : Preimage}
    (h : Informed swap allowed fits start s) :
    Sound (Advances allowed) (Informed swap allowed fits start) (fun _ _ => True)
      (claimFunded swap resume outpoint fundingValueSat preimage poll fuel) s := by
  refine Sound.mono (fun _ h => h) (fun _ _ _ _ => trivial)
    (OnlyCalls.sound (fun _ op _ _ hop h hmoves => h.moves ?_ hmoves) calls_claimFunded h)
  cases op <;> first
    | rfl
    | cases hop

/-- **The submarine driver** keeps the two marks linked, and pays for what it has seen. -/
theorem upkeep_submarineRun (hprices : Prices swap allowed fits)
    (hidles : ∀ op, allowed op (idle op)) (poll : ℕ) :
    Upkeep (submarineRun swap poll) allowed (fun _ => True) (Linked fits)
      (Informed swap allowed fits) where
  alike rec old hlike h := by
    have hfunding : rec.fundingOutpoint = old.fundingOutpoint :=
      congrArg Resume.funding hlike.resume
    have hmark : rec.invoicePayStartedAtUnix = old.invoicePayStartedAtUnix :=
      congrArg Resume.invoicePayStartedAtUnix hlike.resume
    exact ⟨by rw [hmark, hfunding]; exact h.pinned, by rw [hfunding]; exact h.fits⟩
  mark rec fork unix _ h := ⟨h.pinned, h.fits⟩
  copy start s h := h.linked
  carried start s copy hlike h := by
    have hfunding : copy.fundingOutpoint = s.copy.fundingOutpoint :=
      congrArg Resume.funding hlike.resume
    have hmark : copy.invoicePayStartedAtUnix = s.copy.invoicePayStartedAtUnix :=
      congrArg Resume.invoicePayStartedAtUnix hlike.resume
    refine ⟨⟨?_, ?_⟩, h.allowed, h.paid⟩
    · rw [hfunding, hmark]
      exact h.linked.pinned
    · rw [hfunding]
      exact h.linked.fits
  idles := hidles
  drives rec fuel h := by
    have hstart : Informed swap allowed fits rec ⟨rec, []⟩ :=
      ⟨h, fun _ hmem => (List.not_mem_nil hmem).elim, fun _ => Program.guarded_nil⟩
    unfold submarineRun driveSubmarineSwap
    refine Sound.bind (fun s located hs hlocated => ?_) (fun _ _ _ _ => trivial)
      (sound_locateFunding hprices h hstart id)
    cases located with
    | inl state => exact ⟨hs, trivial⟩
    | inr outpoint =>
        refine Sound.bind (fun s measured hs hmeasured => ?_) (fun _ _ _ _ => trivial)
          (sound_measureFunding hs hlocated)
        cases measured with
        | inl state => exact ⟨hs, trivial⟩
        | inr fundingValueSat =>
            refine Sound.bind (fun s paid hs _ => ?_) (fun _ _ _ _ => trivial)
              (sound_obtainPayment h hs (hmeasured fundingValueSat rfl))
            cases paid with
            | inl state => exact ⟨hs, trivial⟩
            | inr payment =>
                dsimp only
                split
                · exact ⟨hs, trivial⟩
                · exact sound_claimFunded hs

end Informed

/-! ## Over all runs -/

/-- **A submarine swap's invoice is paid at most once.**  Through every sequence of runs of its
driver, each started on what the store has or on what the run before has left, with every
answer of the chain and the node, with writes that fail, marks of the reorg monitor and
crashes between any two steps and in the middle of any call. -/
theorem submarine_pays_once (swap : SubmarineSwap) (poll : ℕ) (rec : SwapRecord)
    (events : List DaemonEvent) :
    (Daemon.run (submarineRun swap poll) events ⟨rec, none, [], []⟩).made Op.paysInvoice ≤ 1 := by
  refine Daemon.made_le_one (Committing.commits_submarineRun swap poll) ?_ (fun _ _ _ h => h) ?_
    rec events
  · exact fun rec unix op h =>
      ⟨Reentry.isSome_reported unix op h.1, Reentry.started_reported unix op h.2⟩
  · intro op hop
    cases op <;> first
      | rfl
      | cases hop

/-- An output has one value, wherever the chain shows it. -/
def OneValue (value : OutPoint → ℕ) : (op : Op) → Ans op → Prop
  | .findOutputs _, .ok outputs => ∀ utxo ∈ outputs, utxo.valueSat = value utxo.outpoint
  | .outpointStatus _ outpoint, .ok (some utxo) => utxo.valueSat = value outpoint
  | _, _ => True

/-- The answers of a history give each output this one value. -/
def Consistent (events : List DaemonEvent) (value : OutPoint → ℕ) : Prop :=
  ∀ event ∈ events, event.Within (OneValue value) fun _ => True

omit [Crypto] in
/-- An idle environment shows no output, so it gives none a second value. -/
theorem oneValue_idle (value : OutPoint → ℕ) (op : Op) : OneValue value op (idle op) := by
  cases op <;> first
    | trivial
    | exact fun _ hmem => (List.not_mem_nil hmem).elim

/-- **A submarine swap's invoice is paid only when its claim is safe.**  Over all runs from a
record that nothing has happened to, whenever the node is asked to pay, the run that asks has
just read a tip from which the payment's timelock and the claim window both end before the
client can refund; and it has seen the output that is pinned, in this run or an earlier one,
unspent and at the depth the swap requires.  Where the chain gives an output one value, that
output is worth the swap's amount, or more by no more than the overpayment that is kept. -/
theorem submarine_pays_in_time (swap : SubmarineSwap) (poll : ℕ) (rec : SwapRecord)
    (events : List DaemonEvent) (hfunding : rec.fundingOutpoint = none)
    (hmark : rec.invoicePayStartedAtUnix = none) :
    ∀ asked ∈ (Daemon.run (submarineRun swap poll) events ⟨rec, none, [], []⟩).asks,
      ∀ limit, asked.op.PaysWith limit → InTime swap limit asked.before ∧
        ∃ outpoint utxo, Pinned asked.start.resume asked.before outpoint ∧
          ⟨.outpointStatus swap.htlcSpk outpoint, .ok (some utxo)⟩ ∈ asked.before ∧
          rec.requiredConfirmations ≤ utxo.confirmations ∧
          ∀ value, Consistent events value → swap.onchainAmountSat ≤ utxo.valueSat ∧
            utxo.valueSat ≤ swap.onchainAmountSat + defaultMaxOverpaySat := by
  let allowed : (op : Op) → Ans op → Prop := fun op answer =>
    ∀ value, Consistent events value → OneValue value op answer
  let fits : OutPoint → Prop := fun outpoint => ∀ value, Consistent events value →
    swap.onchainAmountSat ≤ value outpoint ∧
      value outpoint ≤ swap.onchainAmountSat + defaultMaxOverpaySat
  have hprices : Informed.Prices swap allowed fits := by
    intro spk outputs hallowed utxo hmem hle hge value hvalue
    rw [← hallowed value hvalue utxo hmem]
    exact ⟨hle, hge⟩
  have hidles : ∀ op, allowed op (idle op) := fun op value _ => oneValue_idle value op
  -- the answers of the run are consistent with the value, each by itself
  have hwithin : ∀ event ∈ events, event.Within allowed fun _ => True := by
    intro event hmem
    cases event with
    | answer answers unix put => exact fun op value hvalue => hvalue _ hmem op
    | begin _ | ask | noteFee _ _ | finish _ _ _ _ _ _ | mark _ _ _ | crash _ _ => trivial
  have hfresh : Linked fits rec ∧ rec.requiredConfirmations = rec.requiredConfirmations := by
    refine ⟨⟨fun hsome => ?_, fun outpoint hsome => ?_⟩, rfl⟩
    · rw [hmark] at hsome
      cases hsome
    · rw [hfunding] at hsome
      cases hsome
  -- the number of confirmations is never written again
  have hkept : SwapRecord.Kept (fun _ => True)
      fun old => old.requiredConfirmations = rec.requiredConfirmations :=
    ⟨fun _ _ hlike h => hlike.requiredConfirmations.trans h, fun _ _ _ _ h => h,
      fun old unix op h => (old.reported_requiredConfirmations unix op).trans h⟩
  have hup := (Informed.upkeep_submarineRun hprices hidles poll).keeping hkept
  have hkeeps := (Daemon.keeps_new hfresh).run hup hwithin
  intro asked hasked limit hpays
  obtain ⟨copy, hknown, hrequired, -⟩ := hkeeps.asks asked hasked
  obtain ⟨hsaw, htime⟩ := hknown.paid limit asked.before ⟨asked.op, idle asked.op⟩ [] rfl hpays
  obtain ⟨outpoint, utxo, hpinned, hfits, hseen, hdeep⟩ := hsaw
  refine ⟨htime, outpoint, utxo, hpinned, hseen, hrequired ▸ hdeep, fun value hvalue => ?_⟩
  have hshown := hknown.allowed _ (List.mem_append_left _ hseen) value hvalue
  have hvalued : utxo.valueSat = value outpoint := hshown
  rw [hvalued]
  exact hfits value hvalue

end

/-! ## A swap that is paid for -/

namespace PaidOnce

local instance tables : Crypto := tableCrypto []

def swap : SubmarineSwap where
  paymentHash := Bytes32.ofNat 81
  onchainAmountSat := 100000
  feeRateSatVb := 2
  htlcScript := []
  htlcSpk := []
  taproot := none
  timeoutHeight := 800144
  claimKey := Bytes32.ofNat 1
  invoice := "lnbc1"
  maxRoutingFeeMsat := 1000
  timelock := {}

def outpoint : OutPoint := ⟨7, 0⟩

/-- The client's funding is there from the start. -/
def answers : (op : Op) → Ans op
  | .findOutputs _ => .ok [⟨outpoint, 100000, 6⟩]
  | .outpointStatus .. => .ok (some ⟨outpoint, 100000, 6⟩)
  | .tipHeight => .ok 800000
  | op => idle op

/-- The driver asks seven times and is killed while it pays. -/
def events : List DaemonEvent :=
  .begin 1 :: (List.replicate 6 [.ask, .answer answers 10 .landed]).flatten ++
    [.ask, .crash 11 true]

/-- The daemon after that. -/
def daemon : Daemon :=
  Daemon.run (submarineRun swap 5) events ⟨{ requiredConfirmations := 1 }, none, [], []⟩

/-- The example's run asks for the payment. -/
theorem any_paysInvoice : daemon.asks.any (fun asked => asked.op.paysInvoice) = true := by
  decide +kernel

/-- The payment of the example leaves the time that the timelocks ask for. -/
theorem submarine_paid_in_time :
    ∃ asked ∈ daemon.asks, ∃ limit, asked.op.PaysWith limit ∧ InTime swap limit asked.before := by
  obtain ⟨asked, hasked, hpays⟩ := List.any_eq_true.mp any_paysInvoice
  have hlimit : ∃ limit, asked.op.PaysWith limit := by
    cases hop : asked.op <;> rw [hop] at hpays <;> first
      | exact ⟨_, _, _, rfl⟩
      | cases hpays
  obtain ⟨limit, hwith⟩ := hlimit
  exact ⟨asked, hasked, limit, hwith,
    (submarine_pays_in_time swap 5 { requiredConfirmations := 1 } events rfl rfl asked hasked
      limit hwith).1⟩

end PaidOnce

end PubkySwap
