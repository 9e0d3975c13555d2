import PubkySwap.Submarine

/-!
# One run of the submarine driver

The parts of the driver, each specified by the exchange it adds to the log.
`driveSubmarineSwap_sound` puts them together: how a run that returns has gone,
by the state it returns.
-/

namespace PubkySwap

open BitcoinScript (Bytes)
open Program (orThrow iterate Sound Logged OnOk Always RoundMeets OnlyCalls onlyCalls_ask
  sound_logged_call sound_orThrow_bind onlyCalls_pure onOk_ok onlyCalls_call onlyCalls_orThrow
  onlyCalls_throw)

/-- Calls of the opening of a run: nothing about the output's depth, about a
payment or about a spend of ours. -/
def Op.opening : Op → Bool
  | .findSpend .. | .findOutputs _ | .funded _ | .tipHeight | .sleep _ => true
  | _ => false

/-- Calls about the payment. -/
def Op.paying : Op → Bool
  | .paymentStatus _ | .tipHeight | .invoicePayStarted | .payInvoice .. | .invoicePaid
  | .sleep _ => true
  | _ => false

/-- The reorg guard's question. -/
def Op.measures : Op → Bool
  | .outpointStatus .. => true
  | _ => false

/-- The payment an exchange shows to have succeeded. -/
def paymentIn : Event → Option PaymentResult
  | ⟨.paymentStatus _, .ok (.succeeded payment)⟩ => some payment
  | ⟨.payInvoice .., .ok payment⟩ => some payment
  | _ => none

/-- No exchange shows a payment. -/
def Unpaid (log : List Event) : Prop := ∀ e ∈ log, paymentIn e = none

/-- No opening call is a payment. -/
theorem paymentIn_of_opening {e : Event} (h : e.1.opening = true) : paymentIn e = none := by
  obtain ⟨op, answer⟩ := e
  cases op <;> first
    | rfl
    | cases h

/-- No opening call broadcasts. -/
theorem broadcasts_of_opening {op : Op} (h : op.opening = true) : op.broadcasts = false := by
  cases op <;> first
    | rfl
    | cases h

/-- No call of the payment loop broadcasts. -/
theorem broadcasts_of_paying {op : Op} (h : op.paying = true) : op.broadcasts = false := by
  cases op <;> first
    | rfl
    | cases h

/-- No call of the payment loop reads the funding again. -/
theorem measures_of_paying {op : Op} (h : op.paying = true) : op.measures = false := by
  cases op <;> first
    | rfl
    | cases h

/-- No call of the claim reads the funding again. -/
theorem measures_of_spending {op : Op} (h : op.spending = true) : op.measures = false := by
  cases op <;> first
    | rfl
    | cases h

/-- What the reorg guard lets pass. -/
def Measured (requiredConfirmations : ℕ) (alreadyAttempted : Bool) : Option FundingUtxo → Prop
  | some utxo => requiredConfirmations ≤ utxo.confirmations ∨ alreadyAttempted = true
  | none => False

/-- The swap's funding outpoint: recorded by an earlier run, or by this one. -/
def Pinned (resume : Resume) (log : List Event) (outpoint : OutPoint) : Prop :=
  resume.funding = some outpoint ∨ (⟨.funded outpoint, ()⟩ : Event) ∈ log

section

variable [Crypto]

/-! ## What a run knows -/

/-- A spend of this swap's own: one an earlier run recorded, or one of this run. -/
def OwnSpend (resume : Resume) (log : List Event) (txid : Txid) : Prop :=
  txid ∈ resume.ourSpends ∨ Attempted log txid ∨ Accepted log txid

/-- The list the claim loop carries: what was recorded and what it has tried. -/
def CarriesOwn (resume : Resume) (ours : List Txid) (log : List Event) : Prop :=
  ∀ txid, txid ∈ ours ↔ txid ∈ resume.ourSpends ∨ Attempted log txid

variable {swap : SubmarineSwap} {resume : Resume} {log : List Event}
  {requiredConfirmations poll : ℕ} {alreadyAttempted : Bool} {outpoint : OutPoint}

/-! ## The funding outpoint -/

/-- The part of the run before the reorg guard. -/
structure Opened (swap : SubmarineSwap) (resume : Resume) (log : List Event) : Prop where
  opening : ∀ e ∈ log, e.1.opening = true
  nonempty : log ≠ []
  unclaimed : ∀ outpoint spend, resume.funding = some outpoint →
    log.head? = some ⟨.findSpend swap.htlcSpk outpoint, .ok (some spend)⟩ →
      extractPreimage spend outpoint swap.paymentHash = none

/-- How the first part ends. -/
def LocateMeets (swap : SubmarineSwap) (resume : Resume) :
    SwapState ⊕ OutPoint → List Event → Prop
  | .inl state, log =>
      (state = .claimed ∧ ∃ outpoint spend, resume.funding = some outpoint ∧
        log = [⟨.findSpend swap.htlcSpk outpoint, .ok (some spend)⟩] ∧
        (extractPreimage spend outpoint swap.paymentHash).isSome) ∨
      (state ≠ .claimed ∧ ∀ e ∈ log, e.1.opening = true)
  | .inr outpoint, log => Opened swap resume log ∧ Pinned resume log outpoint

/-- One round makes opening calls only, and reports the outpoint it ends with. -/
theorem awaitDepth_sound (hlog : ∀ e ∈ log, e.1.opening = true)
    (hstart : log ≠ []) (hnone : resume.funding = none) (adopted : Option FundingUtxo) :
    Sound Logged Always
      (RoundMeets (fun _ log => ∀ e ∈ log, e.1.opening = true) (OnOk (LocateMeets swap resume)))
      (awaitDepth swap requiredConfirmations poll adopted) log := by
  refine Sound.bind (Q := OnOk fun adopted log => (∀ e ∈ log, e.1.opening = true) ∧ log ≠ [] ∧
    ∀ outpoint ∈ adopted, Pinned resume log outpoint) ?_ (fun _ _ _ _ => trivial) ?_
  · rintro log' adopted - ⟨hlog', hne, hpinned⟩
    cases adopted with
    | some outpoint =>
        exact ⟨trivial, ⟨hlog', hne, fun _ _ h => by rw [hnone] at h; cases h⟩, hpinned _ rfl⟩
    | none =>
        refine (sound_logged_call _ _).mpr ⟨trivial, fun answer => ?_⟩
        have h₁ : ∀ e ∈ log' ++ [⟨.tipHeight, answer⟩], e.1.opening = true :=
          List.forall_mem_append.mpr ⟨hlog', List.forall_mem_singleton.mpr rfl⟩
        refine sound_orThrow_bind trivial (fun _ _ => trivial) fun tip _ => ?_
        split
        · exact ⟨trivial, Or.inr ⟨nofun, h₁⟩⟩
        · refine (sound_logged_call _ _).mpr ⟨trivial, fun _ => ⟨trivial, ?_⟩⟩
          exact List.forall_mem_append.mpr ⟨h₁, List.forall_mem_singleton.mpr rfl⟩
  · cases adopted with
    | none => exact ⟨trivial, hlog, hstart, nofun⟩
    | some utxo =>
        show Sound _ _ _ (if _ then _ else _) _
        split
        · refine (sound_logged_call _ _).mpr ⟨trivial, fun _ => ⟨trivial, ?_, ?_, ?_⟩⟩
          · exact List.forall_mem_append.mpr ⟨hlog, List.forall_mem_singleton.mpr rfl⟩
          · exact List.append_ne_nil_of_left_ne_nil hstart _
          · rintro outpoint ⟨⟩
            exact Or.inr (List.mem_append_right _ (List.mem_singleton_self _))
        · exact ⟨trivial, hlog, hstart, nofun⟩

/-- A round of the search for the funding makes opening calls only, and reports the output it
ends with. -/
theorem fundingRound_sound (hlog : ∀ e ∈ log, e.1.opening = true)
    (hnone : resume.funding = none) :
    Sound Logged Always
      (RoundMeets (fun _ log => ∀ e ∈ log, e.1.opening = true) (OnOk (LocateMeets swap resume)))
      (fundingRound swap requiredConfirmations poll) log := by
  refine (sound_logged_call _ _).mpr ⟨trivial, fun answer => ?_⟩
  have h₁ : ∀ e ∈ log ++ [⟨.findOutputs swap.htlcSpk, answer⟩], e.1.opening = true :=
    List.forall_mem_append.mpr ⟨hlog, List.forall_mem_singleton.mpr rfl⟩
  have hne : log ++ [⟨.findOutputs swap.htlcSpk, answer⟩] ≠ [] :=
    List.append_ne_nil_of_right_ne_nil _ (List.cons_ne_nil _ _)
  refine sound_orThrow_bind trivial (fun _ _ => trivial) fun outputs _ => ?_
  cases selectFunding outputs swap.onchainAmountSat defaultMaxOverpaySat with
  | none => exact awaitDepth_sound h₁ hne hnone _
  | exact utxo => exact awaitDepth_sound h₁ hne hnone _
  | overpaid utxo excessSat => exact awaitDepth_sound h₁ hne hnone _
  | underpaid gotSat => exact ⟨trivial, Or.inr ⟨nofun, h₁⟩⟩
  | excessiveOverpay gotSat => exact ⟨trivial, Or.inr ⟨nofun, h₁⟩⟩
  | multiple utxos => exact ⟨trivial, Or.inr ⟨nofun, h₁⟩⟩

/-- The search for the funding opens the run: it ends the swap before any payment, or pins the
funding output. -/
theorem locateFunding_sound (fuel : ℕ) :
    Sound Logged Always (OnOk (LocateMeets swap resume))
      (locateFunding swap resume requiredConfirmations poll fuel) [] := by
  unfold locateFunding
  split
  · rename_i outpoint hfunding
    refine (sound_logged_call _ _).mpr ⟨trivial, fun answer => ?_⟩
    refine sound_orThrow_bind trivial (fun _ _ => trivial) fun found hfound => ?_
    subst hfound
    have hopened : (∀ spend, found = some spend →
        extractPreimage spend outpoint swap.paymentHash = none) →
        Opened swap resume ([] ++ [⟨.findSpend swap.htlcSpk outpoint, .ok found⟩]) := by
      intro hunclaimed
      refine ⟨List.forall_mem_singleton.mpr rfl, List.cons_ne_nil _ _, ?_⟩
      rintro outpoint' spend hfunding' ⟨⟩
      exact hunclaimed spend rfl
    cases found with
    | none => exact ⟨trivial, hopened nofun, Or.inl hfunding⟩
    | some spend =>
        dsimp only
        split
        · rename_i hclaimed
          exact ⟨trivial, Or.inl ⟨rfl, outpoint, spend, hfunding, rfl, hclaimed⟩⟩
        · rename_i hunclaimed
          refine ⟨trivial, hopened ?_, Or.inl hfunding⟩
          rintro _ ⟨⟩
          exact Option.not_isSome_iff_eq_none.mp hunclaimed
  · rename_i hnone
    exact Sound.iterate (J := fun _ log => ∀ e ∈ log, e.1.opening = true) (fun _ _ _ => trivial)
      (fun _ log hlog => fundingRound_sound hlog hnone) fuel nofun

/-! ## The output -/

/-- How the reorg guard ends. -/
def MeasureMeets (swap : SubmarineSwap) (requiredConfirmations : ℕ) (alreadyAttempted : Bool)
    (outpoint : OutPoint) (before : List Event) : SwapState ⊕ ℕ → List Event → Prop
  | .inl state, log =>
      (state = .claimed ∧ ∃ status spend, ¬ Measured requiredConfirmations alreadyAttempted status ∧
        log = before ++ [⟨.outpointStatus swap.htlcSpk outpoint, .ok status⟩,
          ⟨.findSpend swap.htlcSpk outpoint, .ok (some spend)⟩]) ∨
      (state ≠ .claimed ∧ (state.isTerminal = true → Unpaid log))
  | .inr fundingValueSat, log =>
      ∃ utxo, Measured requiredConfirmations alreadyAttempted (some utxo) ∧
        fundingValueSat = utxo.valueSat ∧
        log = before ++ [⟨.outpointStatus swap.htlcSpk outpoint, .ok (some utxo)⟩]

/-- Where the funding does not measure up, the swap is claimed only on a spend of it, and ends
otherwise only unpaid. -/
theorem missingFunding_sound {before : List Event} (hbefore : Unpaid before)
    {status : Option FundingUtxo}
    (hstatus : ¬ Measured requiredConfirmations alreadyAttempted status) :
    Sound Logged Always
      (OnOk fun state log =>
        MeasureMeets swap requiredConfirmations alreadyAttempted outpoint before (.inl state) log)
      (missingFunding swap alreadyAttempted outpoint poll)
      (before ++ [⟨.outpointStatus swap.htlcSpk outpoint, .ok status⟩]) := by
  refine (sound_logged_call _ _).mpr ⟨trivial, fun answer => ?_⟩
  refine sound_orThrow_bind trivial (fun _ _ => trivial) fun found hfound => ?_
  subst hfound
  have hlog : Unpaid (before ++ [⟨.outpointStatus swap.htlcSpk outpoint, .ok status⟩] ++
      [⟨.findSpend swap.htlcSpk outpoint, .ok found⟩]) :=
    List.forall_mem_append.mpr ⟨List.forall_mem_append.mpr
      ⟨hbefore, List.forall_mem_singleton.mpr rfl⟩, List.forall_mem_singleton.mpr rfl⟩
  cases found with
  | some spend =>
      exact ⟨trivial, Or.inl ⟨rfl, status, spend, hstatus, List.append_assoc _ _ _⟩⟩
  | none =>
      dsimp only
      split
      · refine (sound_logged_call _ _).mpr ⟨trivial, fun answer => ?_⟩
        refine sound_orThrow_bind trivial (fun _ _ => trivial) fun payment hpayment => ?_
        subst hpayment
        cases payment with
        | failed reason =>
            refine ⟨trivial, Or.inr ⟨nofun, fun _ => ?_⟩⟩
            exact List.forall_mem_append.mpr ⟨hlog, List.forall_mem_singleton.mpr rfl⟩
        | _ => exact ⟨trivial, fun _ _ _ => ⟨trivial, Or.inr ⟨nofun, nofun⟩⟩⟩
      · exact ⟨trivial, Or.inr ⟨nofun, fun _ => hlog⟩⟩

/-- The run goes on to pay only when the funding is there, deep enough or already paid for,
and knows its value. -/
theorem measureFunding_sound {before : List Event} (hbefore : Unpaid before) :
    Sound Logged Always
      (OnOk (MeasureMeets swap requiredConfirmations alreadyAttempted outpoint before))
      (measureFunding swap alreadyAttempted outpoint requiredConfirmations poll) before := by
  refine (sound_logged_call _ _).mpr ⟨trivial, fun answer => ?_⟩
  refine sound_orThrow_bind trivial (fun _ _ => trivial) fun status hstatus => ?_
  subst hstatus
  cases status with
  | none =>
      exact Sound.andThen (missingFunding_sound hbefore not_false)
        fun _ _ hstate => ⟨trivial, hstate⟩
  | some utxo =>
      dsimp only
      split
      · next hmeasured => exact ⟨trivial, utxo, hmeasured, rfl, rfl⟩
      · next hshallow =>
          exact Sound.andThen (missingFunding_sound hbefore hshallow)
            fun _ _ hstate => ⟨trivial, hstate⟩

/-! ## The payment -/

/-- How the payment part ends, in the exchange it adds. -/
def PayMeets (before : List Event) : SwapState ⊕ PaymentResult → List Event → Prop
  | .inl state, log => state ≠ .claimed ∧ ∃ t, log = before ++ t ∧
      (∀ e ∈ t, e.1.paying = true) ∧ Unpaid t
  | .inr payment, log => ∃ t, log = before ++ t ∧ (∀ e ∈ t, e.1.paying = true) ∧
      ∀ e ∈ t, ∀ other ∈ paymentIn e, other = payment

/-- What a round of the payment loop leaves behind if it goes on. -/
def StillUnpaid (before log : List Event) : Prop :=
  ∃ t, log = before ++ t ∧ (∀ e ∈ t, e.1.paying = true) ∧ Unpaid t

omit [Crypto] in
/-- A call about the payment that shows none leaves the invoice unpaid. -/
theorem StillUnpaid.append {before : List Event} (h : StillUnpaid before log) {e : Event}
    (hpaying : e.1.paying = true) (hunpaid : paymentIn e = none) :
    StillUnpaid before (log ++ [e]) := by
  obtain ⟨t, rfl, hcalls, ht⟩ := h
  refine ⟨t ++ [e], List.append_assoc _ _ _, ?_, ?_⟩
  · exact List.forall_mem_append.mpr ⟨hcalls, List.forall_mem_singleton.mpr hpaying⟩
  · exact List.forall_mem_append.mpr ⟨ht, List.forall_mem_singleton.mpr hunpaid⟩

omit [Crypto] in
/-- The exchange that shows the payment, and the report of it. -/
theorem StillUnpaid.paid {before : List Event} (h : StillUnpaid before log) {event : Event}
    {payment : PaymentResult} (hpaying : event.1.paying = true)
    (hpaid : paymentIn event = some payment) :
    PayMeets before (.inr payment) (log ++ [event] ++ [⟨.invoicePaid, ()⟩]) := by
  obtain ⟨t, rfl, hcalls, ht⟩ := h
  refine ⟨t ++ [event] ++ [⟨.invoicePaid, ()⟩], by simp only [List.append_assoc], ?_, ?_⟩
  · exact List.forall_mem_append.mpr ⟨List.forall_mem_append.mpr
      ⟨hcalls, List.forall_mem_singleton.mpr hpaying⟩, List.forall_mem_singleton.mpr rfl⟩
  · simp only [List.forall_mem_append, List.forall_mem_singleton]
    refine ⟨⟨fun e he other hother => ?_, fun other hother => ?_⟩, nofun⟩
    · rw [ht e he] at hother
      cases hother
    · rw [hpaid] at hother
      exact (Option.mem_some.mp hother).symm

/-- Asking for the payment makes calls about it only, and goes on with the payment that the
node reports. -/
theorem payWithinTimelocks_sound {before : List Event} (h : StillUnpaid before log) :
    Sound Logged Always (OnOk (PayMeets before)) (payWithinTimelocks swap) log := by
  refine (sound_logged_call _ _).mpr ⟨trivial, fun answer => ?_⟩
  have h₁ := h.append (e := ⟨.tipHeight, answer⟩) rfl rfl
  refine sound_orThrow_bind trivial (fun _ _ => trivial) fun tip _ => ?_
  split
  · exact ⟨trivial, nofun, h₁⟩
  split
  · exact ⟨trivial, nofun, h₁⟩
  rename_i cltvLimit _
  refine (sound_logged_call _ _).mpr ⟨trivial, fun answer => ?_⟩
  have h₂ := h₁.append (e := ⟨.invoicePayStarted, answer⟩) rfl rfl
  refine sound_orThrow_bind trivial (fun _ _ => trivial) fun _ _ => ?_
  refine (sound_logged_call _ _).mpr ⟨trivial, fun answer => ?_⟩
  cases answer with
  | ok payment =>
      exact (sound_logged_call _ _).mpr ⟨trivial, fun _ => ⟨trivial, h₂.paid rfl rfl⟩⟩
  | error e =>
      have h₃ := h₂.append (e :=
        ⟨.payInvoice swap.invoice swap.maxRoutingFeeMsat (some cltvLimit), .error e⟩) rfl rfl
      cases e with
      | _ => exact ⟨trivial, nofun, h₃⟩

/-- A round of the payment loop ends with the one payment it has seen, or goes on unpaid. -/
theorem paymentRound_sound {before : List Event} (h : StillUnpaid before log) :
    Sound Logged Always
      (RoundMeets (fun _ log => StillUnpaid before log) (OnOk (PayMeets before)))
      (paymentRound swap resume alreadyAttempted poll) log := by
  refine (sound_logged_call _ _).mpr ⟨trivial, fun answer => ?_⟩
  refine sound_orThrow_bind trivial (fun _ _ => trivial) fun status hstatus => ?_
  subst hstatus
  have hunknown : StillUnpaid before (log ++ [⟨.paymentStatus swap.paymentHash, .ok status⟩]) →
      Sound Logged Always
        (RoundMeets (fun _ log => StillUnpaid before log) (OnOk (PayMeets before)))
        (if resume.funding.isSome ∧ alreadyAttempted then do
            sleep poll
            pure (.inl ())
          else do
            let outcome ← payWithinTimelocks swap
            pure (.inr outcome))
        (log ++ [⟨.paymentStatus swap.paymentHash, .ok status⟩]) := by
    intro h₁
    split
    · exact (sound_logged_call _ _).mpr ⟨trivial, fun _ => ⟨trivial, h₁.append rfl rfl⟩⟩
    · refine Sound.bind (fun s r _ hr => ?_) (fun _ _ _ _ => trivial) (payWithinTimelocks_sound h₁)
      exact ⟨trivial, hr⟩
  cases status with
  | succeeded payment =>
      exact (sound_logged_call _ _).mpr ⟨trivial, fun _ => ⟨trivial, h.paid rfl rfl⟩⟩
  | inFlight =>
      have h₁ := h.append (e := ⟨.paymentStatus swap.paymentHash, .ok .inFlight⟩) rfl rfl
      exact (sound_logged_call _ _).mpr ⟨trivial, fun _ => ⟨trivial, h₁.append rfl rfl⟩⟩
  | failed reason =>
      have h₁ := h.append (e := ⟨.paymentStatus swap.paymentHash, .ok (.failed reason)⟩)
        rfl rfl
      exact ⟨trivial, nofun, h₁⟩
  | unknown => exact hunknown (h.append rfl rfl)
  | notFound => exact hunknown (h.append rfl rfl)

/-- The payment loop sees one payment at most, by induction over its rounds with the invoice
unpaid between them. -/
theorem obtainPayment_sound :
    Sound Logged Always (OnOk (PayMeets log)) (obtainPayment swap resume alreadyAttempted poll)
      log := by
  refine Sound.andThen (P := fun r log' =>
    r.elim (fun _ => StillUnpaid log log') fun outcome => PayMeets log outcome log') ?_ ?_
  · refine Sound.repeatUpTo (J := fun _ log' => StillUnpaid log log') (fun _ _ _ => trivial)
      (fun _ _ h => h) (fun _ log' h => ?_) paymentPollIterations
      ⟨[], (List.append_nil _).symm, nofun, nofun⟩
    refine Sound.mono (fun _ _ => trivial) ?_ (paymentRound_sound h)
    rintro s (e | r | outcome) _ hr
    · trivial
    · exact hr
    · exact hr
  · rintro log' (r | outcome) hr
    · exact ⟨trivial, nofun, hr⟩
    · exact ⟨trivial, hr⟩

/-! ## The claim -/

/-- What the run knows of its opening once the reorg guard has let it pass. -/
structure Guarded (swap : SubmarineSwap) (resume : Resume) (requiredConfirmations : ℕ)
    (alreadyAttempted : Bool) (outpoint : OutPoint) (log : List Event) : Prop where
  pinned : Pinned resume log outpoint
  nonempty : log ≠ []
  unclaimed : ∀ outpoint spend, resume.funding = some outpoint →
    log.head? = some ⟨.findSpend swap.htlcSpk outpoint, .ok (some spend)⟩ →
      extractPreimage spend outpoint swap.paymentHash = none
  measured : ∀ outpoint status,
    (⟨.outpointStatus swap.htlcSpk outpoint, .ok status⟩ : Event) ∈ log →
      Measured requiredConfirmations alreadyAttempted status

/-- The opening and the guard's answer. -/
theorem Opened.guarded (h : Opened swap resume log) (hpinned : Pinned resume log outpoint)
    {utxo : FundingUtxo} (hmeasured : Measured requiredConfirmations alreadyAttempted (some utxo)) :
    Guarded swap resume requiredConfirmations alreadyAttempted outpoint
      (log ++ [⟨.outpointStatus swap.htlcSpk outpoint, .ok (some utxo)⟩]) := by
  refine ⟨hpinned.imp_right (List.mem_append_left _), ?_, ?_, ?_⟩
  · exact List.append_ne_nil_of_left_ne_nil h.nonempty _
  · intro other spend hfunding hhead
    rw [List.head?_append_of_ne_nil _ h.nonempty] at hhead
    exact h.unclaimed other spend hfunding hhead
  · intro other status hmem
    rcases List.mem_append.mp hmem with hmem | hmem
    · cases h.opening _ hmem
    · cases List.mem_singleton.mp hmem
      exact hmeasured

/-- Further exchanges ask the guard nothing. -/
theorem Guarded.append (h : Guarded swap resume requiredConfirmations alreadyAttempted outpoint
    log) {t : List Event} (ht : ∀ e ∈ t, e.1.measures = false) :
    Guarded swap resume requiredConfirmations alreadyAttempted outpoint (log ++ t) := by
  refine ⟨h.pinned.imp_right (List.mem_append_left _), ?_, ?_, ?_⟩
  · exact List.append_ne_nil_of_left_ne_nil h.nonempty _
  · intro other spend hfunding hhead
    rw [List.head?_append_of_ne_nil _ h.nonempty] at hhead
    exact h.unclaimed other spend hfunding hhead
  · intro other status hmem
    rcases List.mem_append.mp hmem with hmem | hmem
    · exact h.measured other status hmem
    · cases ht _ hmem

/-- A claim transaction spends the output it is built for. -/
theorem claimJob_builds {fundingValueSat : ℕ} {preimage : Preimage} {dest : Bytes}
    {ours : List Txid} {rate : ℕ} {tx : Transaction}
    (h : (claimJob swap outpoint fundingValueSat preimage dest poll ours).build rate = .ok tx) :
    tx.Spends outpoint := by
  simp only [claimJob] at h
  split at h
  · simp only [BoltzTaprootSwap.claimTx] at h
    split at h
    · cases h
    · exact BoltzTaprootSwap.spendTx_spends h
  · exact buildHtlcSpend_spends h

/-- The claim's closures keep the list of what is ours. -/
theorem claimJob_meets (swap : SubmarineSwap) (outpoint : OutPoint) (fundingValueSat : ℕ)
    (preimage : Preimage) (dest : Bytes) (poll : ℕ) (ours : List Txid) :
    JobMeets (claimJob swap outpoint fundingValueSat preimage dest poll ours)
      (CarriesOwn resume) := by
  refine ⟨claimJob_builds, ?_, ?_, ?_⟩
  · rintro _ ⟨⟩
    exact quiet_walletCpfp
  · intro carried log event hquiet h txid
    rw [h txid]
    refine or_congr_right ⟨?_, ?_⟩
    · rintro ⟨tx, answer, hmem, htxid⟩
      exact ⟨tx, answer, List.mem_append_left _ hmem, htxid⟩
    · rintro ⟨tx, answer, hmem, htxid⟩
      rcases List.mem_append.mp hmem with hmem | hmem
      · exact ⟨tx, answer, hmem, htxid⟩
      · rw [← List.mem_singleton.mp hmem] at hquiet
        cases hquiet
  · intro carried log tx answer _ h txid
    show txid ∈ carried ++ [_] ↔ _
    rw [List.mem_append, List.mem_singleton, h txid, or_assoc]
    refine or_congr_right ⟨?_, ?_⟩
    · rintro (⟨tx', answer', hmem, htxid⟩ | rfl)
      · exact ⟨tx', answer', List.mem_append_left _ hmem, htxid⟩
      · exact ⟨tx, answer, List.mem_append_right _ (List.mem_singleton_self _), rfl⟩
    · rintro ⟨tx', answer', hmem, rfl⟩
      rcases List.mem_append.mp hmem with hmem | hmem
      · exact Or.inl ⟨tx', answer', hmem, rfl⟩
      · cases List.mem_singleton.mp hmem
        exact Or.inr rfl

/-- Broadcasting the claim and bumping its fee makes spending calls only. -/
theorem claimJob_spending (fundingValueSat : ℕ) (preimage : Preimage) (dest : Bytes)
    (ours : List Txid) (fuel : ℕ) (seen : List Txid) :
    Spending (confirmOrBump (claimJob swap outpoint fundingValueSat preimage dest poll ours)
      fuel seen) := by
  refine spending_confirmOrBump ?_ fuel seen
  rintro _ ⟨⟩
  exact spending_walletCpfp

/-- How the claim loop ends. -/
def ClaimMeets (swap : SubmarineSwap) (resume : Resume) (requiredConfirmations : ℕ)
    (alreadyAttempted : Bool) (outpoint : OutPoint) : SwapState → List Event → Prop
  | .claimed, log =>
      Guarded swap resume requiredConfirmations alreadyAttempted outpoint log ∧
      ∃ txid confirmations, OwnSpend resume log txid ∧
        Spotted swap.htlcSpk outpoint log txid ∧ finalityDepth ≤ confirmations ∧
        (⟨.txConfirmations swap.htlcSpk txid, .ok (some confirmations)⟩ : Event) ∈ log
  | .failed _, log =>
      ∃ before t known ours tx, log = before ++ t ∧ CarriesOwn resume known before ∧
        Pass outpoint known ours t ∧ Crypto.computeTxid tx ∉ ours ∧
        ∃ earlier tip, log = earlier ++ [⟨.tipHeight, .ok tip⟩,
          ⟨.findSpend swap.htlcSpk outpoint, .ok (some tx)⟩]
  | _, _ => False

/-- The invariant of the claim loop. -/
def Claiming (swap : SubmarineSwap) (resume : Resume) (requiredConfirmations : ℕ)
    (alreadyAttempted : Bool) (outpoint : OutPoint) (ours : List Txid) (log : List Event) : Prop :=
  Guarded swap resume requiredConfirmations alreadyAttempted outpoint log ∧
    CarriesOwn resume ours log

/-- One pass: a claim of ours is buried, a spend that is not known as ours
appears, or the loop goes on knowing what it has tried. -/
theorem claimPass_sound {fundingValueSat : ℕ} {preimage : Preimage} {dest : Bytes} (fuel : ℕ)
    {ours : List Txid}
    (h : Claiming swap resume requiredConfirmations alreadyAttempted outpoint ours log) :
    Sound Logged Always
      (RoundMeets (Claiming swap resume requiredConfirmations alreadyAttempted outpoint)
        (OnOk (ClaimMeets swap resume requiredConfirmations alreadyAttempted outpoint)))
      (claimPass swap outpoint fundingValueSat preimage dest poll fuel ours) log := by
  have hjob : JobMeets (claimJob swap outpoint fundingValueSat preimage dest poll ours)
      (CarriesOwn resume) := claimJob_meets swap outpoint fundingValueSat preimage dest poll ours
  have hbump := (bump_sound hjob fuel h.2).andOk
    (claimJob_spending fundingValueSat preimage dest ours fuel ours).logged
  refine Sound.bind ?_ (fun _ _ _ _ => trivial) hbump.mapErrorOk
  rintro log' ⟨outcome, carried⟩ - ⟨⟨mine, hknows, houtcome⟩, t, rfl, ht⟩
  have hguarded := h.1.append fun e he => measures_of_spending (ht e he)
  obtain ⟨t', ht', hpass⟩ := hknows.since
  cases outcome with
  | confirmed txid =>
      obtain ⟨hmine, hspotted, confirmations, hdeep, hmem⟩ := houtcome
      refine ⟨trivial, hguarded, txid, confirmations, ?_, hspotted, hdeep, hmem⟩
      rcases (hpass.ours txid).mp hmine with hknown | ⟨tx, haccepted⟩
      · rcases (h.2 txid).mp hknown with hrecorded | ⟨tx, answer, htried, htxid⟩
        · exact Or.inl hrecorded
        · exact Or.inr (Or.inl ⟨tx, answer, List.mem_append_left _ htried, htxid⟩)
      · exact Or.inr (Or.inr ⟨tx, ht' ▸ List.mem_append_right _ haccepted⟩)
  | conflictingSpend tx =>
      obtain ⟨hforeign, hlast⟩ := houtcome
      exact ⟨trivial, log, t', ours, mine, tx, ht', h.2, hpass, hforeign, hlast⟩
  | deadlineExceeded lastTxid tip =>
      refine (sound_logged_call _ _).mpr ⟨trivial, fun _ => ⟨trivial, ?_, ?_⟩⟩
      · exact hguarded.append (List.forall_mem_singleton.mpr rfl)
      · exact hjob.tracks.append rfl hknows.tracked

/-- From a guarded log without broadcasts, the claim ends as its last pass does, by induction
over the passes. -/
theorem claimFunded_sound {fundingValueSat : ℕ} {preimage : Preimage} (fuel : ℕ)
    (hguarded : Guarded swap resume requiredConfirmations alreadyAttempted outpoint log)
    (hquiet : ∀ e ∈ log, e.1.broadcasts = false) :
    Sound Logged Always
      (OnOk (ClaimMeets swap resume requiredConfirmations alreadyAttempted outpoint))
      (claimFunded swap resume outpoint fundingValueSat preimage poll fuel) log := by
  refine (sound_logged_call _ _).mpr ⟨trivial, fun dest => ?_⟩
  refine Sound.iterate (fun _ _ _ => trivial) (fun ours log h => claimPass_sound fuel h) fuel
    ⟨?_, ?_⟩
  · exact hguarded.append (List.forall_mem_singleton.mpr rfl)
  · intro txid
    refine ⟨Or.inl, fun h => h.elim (fun h => h) ?_⟩
    rintro ⟨tx, answer, hmem, -⟩
    rcases List.mem_append.mp hmem with hmem | hmem
    · cases hquiet _ hmem
    · cases List.mem_singleton.mp hmem

/-! ## The run -/

/-- How a run that returns has gone. -/
def RunMeets (swap : SubmarineSwap) (resume : Resume) (requiredConfirmations : ℕ)
    (alreadyAttempted : Bool) : SwapState → List Event → Prop
  | .claimed, log =>
      (∃ outpoint spend, resume.funding = some outpoint ∧
        log = [⟨.findSpend swap.htlcSpk outpoint, .ok (some spend)⟩] ∧
        (extractPreimage spend outpoint swap.paymentHash).isSome) ∨
      (∃ before outpoint status spend, (∀ e ∈ before, e.1.opening = true) ∧
        ¬ Measured requiredConfirmations alreadyAttempted status ∧
        log = before ++ [⟨.outpointStatus swap.htlcSpk outpoint, .ok status⟩,
          ⟨.findSpend swap.htlcSpk outpoint, .ok (some spend)⟩]) ∨
      ∃ outpoint, ClaimMeets swap resume requiredConfirmations alreadyAttempted outpoint
        .claimed log
  | .failed reason, log =>
      (∀ e ∈ log, ∀ payment ∈ paymentIn e, paymentHash payment.preimage ≠ swap.paymentHash) ∨
      ∃ outpoint, Pinned resume log outpoint ∧
        ClaimMeets swap resume requiredConfirmations alreadyAttempted outpoint (.failed reason) log
  | _, _ => True

/-- A run that ends before the claim has not bought the preimage. -/
theorem RunMeets.of_unpaid {state : SwapState} (hstate : state ≠ .claimed)
    (hlog : state.isTerminal = true → Unpaid log) :
    RunMeets swap resume requiredConfirmations alreadyAttempted state log := by
  cases state with
  | claimed => exact absurd rfl hstate
  | failed reason =>
      refine Or.inl fun e he payment hpayment => ?_
      rw [hlog rfl e he] at hpayment
      cases hpayment
  | _ => trivial

/-- A run that ends in the claim loop. -/
theorem RunMeets.of_claim {state : SwapState} (hpinned : Pinned resume log outpoint)
    (h : ClaimMeets swap resume requiredConfirmations alreadyAttempted outpoint state log) :
    RunMeets swap resume requiredConfirmations alreadyAttempted state log := by
  cases state with
  | claimed => exact Or.inr (Or.inr ⟨outpoint, h⟩)
  | failed reason => exact Or.inr ⟨outpoint, hpinned, h⟩
  | _ => trivial

omit [Crypto] in
/-- A log of opening calls has no payment in it. -/
theorem unpaid_of_opening (h : ∀ e ∈ log, e.1.opening = true) : Unpaid log :=
  fun e he => paymentIn_of_opening (h e he)

/-- **How a run goes**, whatever it is told of earlier runs and whatever the
chain, the node and the wallet answer. -/
theorem driveSubmarineSwap_sound (fuel : ℕ) :
    Sound Logged Always (OnOk (RunMeets swap resume requiredConfirmations alreadyAttempted))
      (driveSubmarineSwap swap requiredConfirmations poll resume alreadyAttempted fuel) [] := by
  refine Sound.andThen (locateFunding_sound fuel) ?_
  rintro log (state | outpoint) hlocated
  · refine ⟨trivial, ?_⟩
    rcases hlocated with ⟨rfl, hclaimed⟩ | ⟨hstate, hopening⟩
    · exact Or.inl hclaimed
    · exact RunMeets.of_unpaid hstate fun _ => unpaid_of_opening hopening
  obtain ⟨hopened, hpinned⟩ := hlocated
  have hunpaid := unpaid_of_opening hopened.opening
  refine Sound.andThen (measureFunding_sound hunpaid) ?_
  rintro log₁ (state | fundingValueSat) hmeasured
  · refine ⟨trivial, ?_⟩
    rcases hmeasured with ⟨rfl, status, spend, hstatus, rfl⟩ | ⟨hstate, hlog⟩
    · exact Or.inr (Or.inl ⟨log, outpoint, status, spend, hopened.opening, hstatus, rfl⟩)
    · exact RunMeets.of_unpaid hstate hlog
  obtain ⟨utxo, hmeasured, rfl, rfl⟩ := hmeasured
  have hguarded := hopened.guarded hpinned hmeasured
  have hunpaid₁ : Unpaid (log ++ [⟨.outpointStatus swap.htlcSpk outpoint, .ok (some utxo)⟩]) :=
    List.forall_mem_append.mpr ⟨hunpaid, List.forall_mem_singleton.mpr rfl⟩
  refine Sound.andThen obtainPayment_sound ?_
  rintro log₂ (state | payment) hpaid
  · obtain ⟨hstate, t, rfl, -, ht⟩ := hpaid
    exact ⟨trivial, RunMeets.of_unpaid hstate fun _ => List.forall_mem_append.mpr ⟨hunpaid₁, ht⟩⟩
  obtain ⟨t, rfl, hcalls, honly⟩ := hpaid
  dsimp only
  split
  · rename_i hwrong
    refine ⟨trivial, Or.inl (List.forall_mem_append.mpr ⟨?_, ?_⟩)⟩
    · intro e he other hother
      rw [hunpaid₁ e he] at hother
      cases hother
    · intro e he other hother
      rw [honly e he other hother]
      exact hwrong
  · have hguarded₁ := hguarded.append fun e he => measures_of_paying (hcalls e he)
    refine Sound.mono (fun _ _ => trivial) ?_ (claimFunded_sound fuel hguarded₁ ?_).extending
    · rintro log₃ (e | state) - hclaim
      · trivial
      · obtain ⟨hclaim, u, rfl⟩ := hclaim
        exact RunMeets.of_claim (hguarded₁.pinned.imp_right (List.mem_append_left _)) hclaim
    · simp only [List.forall_mem_append, List.forall_mem_singleton]
      exact ⟨⟨fun e he => broadcasts_of_opening (hopened.opening e he), rfl⟩,
        fun e he => broadcasts_of_paying (hcalls e he)⟩

end

end PubkySwap
