import PubkySwap.ClientStoreRun
import PubkySwap.ClientSubmarineRun

/-!
# Drivers on the client's store

What the two drivers of the client keep to by themselves, and what is left of it when
their reports go to the store.

A submarine driver asks the wallet to fund at most once, only after its intent was
recorded, and never when it was started with a mark.  A reverse driver pays nothing
but the invoice it was given.  `sound_drive` carries this over: whatever a driver does
on the store, the client's invariant stands, although every report may fail, and any
of them may fail after the record has reached the disk.
-/

namespace PubkySwap

open BitcoinScript (Bytes)
open Program (orThrow iterate Sound Logged OnOk Guarded OnlyCalls onlyCalls_orThrow
  onlyCalls_orThrow_bind sound_logged_call sound_orThrow_bind)

/-! ## What a reverse driver pays -/

/-- Calls that fund nothing and pay nothing but the swap's invoice. -/
def ReverseClaim.Keeps (claim : ReverseClaim) : Op → Prop
  | .fundHtlc .. => False
  | .payInvoice invoice _ _ => invoice = claim.invoice
  | .spawnPayInvoice invoice _ _ => invoice = claim.invoice
  | _ => True

section

variable [Crypto] {claim : ReverseClaim} {maxRoutingFeeMsat requiredConfirmations poll fuel : ℕ}
  {resume : Resume} {paying : Bool} {log : List Event}

omit [Crypto] in
/-- What the driver calls before it claims sends no funding and pays no other invoice. -/
theorem ReverseClaim.Prepares.keeps {op : Op} (h : claim.Prepares op) : claim.Keeps op := by
  unfold Prepares at h
  unfold Keeps
  split at h <;> first | exact h | trivial

/-- Driving the claim sends no funding and pays no other invoice. -/
theorem keeps_driveClaim {funding : FundingUtxo} :
    OnlyCalls claim.Keeps (claim.driveClaim resume funding poll paying fuel) := by
  have hjob : JobCalls (claim.claimJob resume funding poll) claim.Keeps :=
    ⟨trivial, fun _ => trivial, trivial, fun _ => trivial, fun _ => trivial, fun _ _ _ => trivial,
      nofun, trivial, trivial⟩
  refine OnlyCalls.bind (fun r => ?_) (hjob.calls_confirmOrBump fuel ()).mapError
  obtain ⟨outcome, _⟩ := r
  cases outcome with
  | confirmed txid =>
      have hsettle : Preparing claim (ReverseClaim.settlePayment paying) := preparing_settlePayment
      exact OnlyCalls.bind (fun _ => Program.onlyCalls_pure _) (hsettle.mono fun _ h => h.keeps)
  | conflictingSpend tx => trivial
  | deadlineExceeded lastTxid tip => trivial

omit [Crypto] in
/-- A round that waits for the provider's funding sends none and pays no other invoice. -/
theorem keeps_fundingRound :
    OnlyCalls claim.Keeps (claim.fundingRound requiredConfirmations poll paying) := by
  refine ⟨trivial, fun answer => onlyCalls_orThrow_bind fun outputs _ => ?_⟩
  refine onlyCalls_orThrow_bind fun found _ => ?_
  cases found with
  | some utxo => trivial
  | none =>
      have hwait : Preparing claim (claim.keepWaiting poll paying) := preparing_keepWaiting
      exact OnlyCalls.bind (fun _ => Program.onlyCalls_pure _) (hwait.mono fun _ h => h.keeps)

/-- **A reverse driver pays the invoice it was given, and no other.** -/
theorem keeps_executeReverseSwap :
    OnlyCalls claim.Keeps
      (executeReverseSwap claim maxRoutingFeeMsat requiredConfirmations poll resume fuel) := by
  have hstart : Preparing claim (claim.startPayment maxRoutingFeeMsat resume) :=
    preparing_startPayment
  refine OnlyCalls.bind (fun paying => ?_) (hstart.mono fun _ h => h.keeps)
  refine OnlyCalls.bind (fun funding => ?_) (OnlyCalls.iterate (fun _ => keeps_fundingRound) _ _)
  refine ⟨trivial, fun answer => onlyCalls_orThrow_bind fun tip _ => ?_⟩
  split
  · exact keeps_driveClaim
  · trivial

/-! ## When a reverse driver pays -/

/-- A part of a driver that does not ask the node to pay. -/
abbrev Payless {ε α : Type} (p : Driver ε α) : Prop := OnlyCalls (fun op => ¬op.pays = true) p

omit [Crypto] in
/-- A call that only looks or waits pays nothing. -/
theorem Op.idles.payless {op : Op} (h : op.idles) : ¬op.pays = true := by
  cases op
  all_goals first | exact h.elim | exact nofun

omit [Crypto] in
/-- A round that waits for the provider's funding pays nothing. -/
theorem payless_fundingRound :
    Payless (claim.fundingRound requiredConfirmations poll paying) := by
  refine ⟨nofun, fun answer => onlyCalls_orThrow_bind fun outputs _ => ?_⟩
  refine onlyCalls_orThrow_bind fun found _ => ?_
  cases found with
  | some utxo => trivial
  | none =>
      exact OnlyCalls.bind (fun _ => Program.onlyCalls_pure _)
        (waiting_keepWaiting.mono fun _ h => h.payless)

/-- Driving the claim starts no payment: the one of the run was started before. -/
theorem payless_driveClaim {funding : FundingUtxo} :
    Payless (claim.driveClaim resume funding poll paying fuel) := by
  have hjob : JobCalls (claim.claimJob resume funding poll) fun op => ¬op.pays = true :=
    ⟨nofun, fun _ => nofun, nofun, fun _ => nofun, fun _ => nofun, fun _ _ _ => nofun, nofun, nofun,
      nofun⟩
  refine OnlyCalls.bind (fun r => ?_) (hjob.calls_confirmOrBump fuel ()).mapError
  obtain ⟨outcome, _⟩ := r
  cases outcome with
  | confirmed txid =>
      exact OnlyCalls.bind (fun _ => Program.onlyCalls_pure _)
        (waiting_settlePayment.mono fun _ h => h.payless)
  | conflictingSpend tx => trivial
  | deadlineExceeded lastTxid tip => trivial

/-- A payment has been recorded. -/
def PaymentRecorded (log : List Event) : Prop :=
  (⟨.invoicePayStarted, .ok ()⟩ : Event) ∈ log

/-- A run pays only after the node's answer allowed it and the payment was recorded, and
has done nothing else before. -/
abbrev PaysRecorded (hash : PaymentHash) (resume : Resume) (log : List Event) : Prop :=
  Guarded (fun op => op.pays = true) (fun before => ∃ answer, Cleared resume answer ∧
    before = [⟨.paymentStatus hash, answer⟩, ⟨.invoicePayStarted, .ok ()⟩]) log

/-- **The one payment of a run** is its third call. -/
theorem paysRecorded_startPayment :
    Sound Logged (PaysRecorded claim.paymentHash resume)
      (fun log _ => PaysRecorded claim.paymentHash resume log)
      (claim.startPayment maxRoutingFeeMsat resume) [] := by
  refine (sound_logged_call _ _).mpr ⟨Program.guarded_nil, fun answer => ?_⟩
  have hlog : PaysRecorded claim.paymentHash resume
      ([] ++ [⟨.paymentStatus claim.paymentHash, answer⟩]) := Program.guarded_nil.snoc nofun
  -- Unless the answer says that a payment may exist, it is recorded and started.
  have hpay (hcleared : Cleared resume answer) :
      Sound Logged (PaysRecorded claim.paymentHash resume)
        (fun log _ => PaysRecorded claim.paymentHash resume log)
        (Program.call .invoicePayStarted fun recorded =>
          (orThrow DriverError.message recorded).bind fun _ =>
            (spawnPayInvoice claim.invoice maxRoutingFeeMsat none).bind fun _ =>
              (Program.pure true : Driver DriverError Bool))
        ([] ++ [⟨.paymentStatus claim.paymentHash, answer⟩]) := by
    refine (sound_logged_call _ _).mpr ⟨hlog, fun recorded => ?_⟩
    have hlog₁ : PaysRecorded claim.paymentHash resume
        ([⟨.paymentStatus claim.paymentHash, answer⟩] ++ [⟨.invoicePayStarted, recorded⟩]) :=
      hlog.snoc nofun
    refine sound_orThrow_bind hlog₁ (fun _ _ => hlog₁) fun done hdone => ?_
    subst hdone
    refine (sound_logged_call _ _).mpr ⟨hlog₁, fun spawned => ?_⟩
    have hlog₂ : PaysRecorded claim.paymentHash resume
        ([⟨.paymentStatus claim.paymentHash, answer⟩] ++ [⟨.invoicePayStarted, .ok ()⟩] ++
          [⟨.spawnPayInvoice claim.invoice maxRoutingFeeMsat none, spawned⟩]) :=
      hlog₁.snoc fun _ => ⟨answer, hcleared, rfl⟩
    exact ⟨hlog₂, hlog₂⟩
  rcases answer with e | status
  · exact ⟨hlog, hlog⟩
  cases status with
  | unknown =>
      cases hfresh : resume.isFresh with
      | true => exact hpay hfresh
      | false => exact ⟨hlog, hlog⟩
  | notFound => exact hpay trivial
  | inFlight => exact ⟨hlog, hlog⟩
  | succeeded result => exact ⟨hlog, hlog⟩
  | failed reason => exact hpay trivial

/-- **A reverse driver pays once**, after the node's answer and its own record. -/
theorem paysRecorded_executeReverseSwap :
    Sound Logged (PaysRecorded claim.paymentHash resume)
      (fun log _ => PaysRecorded claim.paymentHash resume log)
      (executeReverseSwap claim maxRoutingFeeMsat requiredConfirmations poll resume fuel) [] := by
  refine Sound.bind ?_ (fun _ _ h _ => h) paysRecorded_startPayment
  intro log paying hlog _
  refine OnlyCalls.guarded ?_ hlog
  refine OnlyCalls.bind (fun funding => ?_) (OnlyCalls.iterate (fun _ => payless_fundingRound) _ _)
  refine ⟨nofun, fun answer => onlyCalls_orThrow_bind fun tip _ => ?_⟩
  split
  · exact payless_driveClaim
  · trivial

end

/-! ## How often a submarine driver funds -/

/-- An intent to fund has been recorded. -/
def IntentRecorded (log : List Event) : Prop :=
  ∃ tip, (⟨.fundingIntent tip, .ok ()⟩ : Event) ∈ log

/-- The wallet is asked at most once, after an intent was recorded, and only when the
driver was started without a mark. -/
abbrev FundsOnce (resume : Resume) (log : List Event) : Prop :=
  Guarded (fun op => op.funds = true) (fun before => resume.marked = false ∧
    IntentRecorded before ∧ ∀ event ∈ before, event.1.funds = false) log

/-- A part of a driver that does not ask the wallet. -/
abbrev Unfunded {ε α : Type} (p : Driver ε α) : Prop := OnlyCalls (fun op => ¬op.funds = true) p

/-- A call that waits sends no funding. -/
theorem Op.waits_unfunded {op : Op} (h : op.waits = true) : ¬op.funds = true := by
  unfold Op.waits at h
  split at h
  all_goals simp_all [Op.funds]

section

variable [Crypto] {funding : SubmarineFunding} {resume : Resume} {outpoint : OutPoint}
  {poll fuel : ℕ} {log : List Event}

/-- Waiting for a recorded funding to show sends no other. -/
theorem unfunded_awaitRecordedFunding : Unfunded (funding.awaitRecordedFunding poll fuel) :=
  OnlyCalls.iterate (fun _ => (SubmarineFunding.waiting_awaitRound _).mono
    fun _ h => Op.waits_unfunded h) fuel ()

/-- Driving the refund sends no funding. -/
theorem unfunded_driveRefund : Unfunded (funding.driveRefund resume outpoint poll fuel) := by
  refine ⟨nofun, fun dest => ?_⟩
  have hjob : JobCalls (funding.refundJob resume outpoint dest poll)
      fun op => ¬op.funds = true := by
    refine ⟨nofun, nofun, nofun, nofun, nofun, fun _ _ _ => nofun, ?_, nofun, nofun⟩
    rintro bump ⟨⟩ parent rate
    refine ⟨nofun, fun answer => ?_⟩
    cases answer <;> trivial
  dsimp only [Program.pure_bind]
  refine OnlyCalls.bind (fun r => ?_) (hjob.calls_confirmOrBump fuel ()).mapError
  obtain ⟨outcome, _⟩ := r
  cases outcome with
  | confirmed txid => trivial
  | deadlineExceeded lastTxid tip => trivial
  | conflictingSpend tx =>
      dsimp only
      split
      · trivial
      · exact ⟨nofun, fun _ => trivial⟩

/-- A round of the settlement loop sends no funding. -/
theorem unfunded_settlementRound :
    Unfunded (funding.settlementRound resume outpoint poll fuel) := by
  refine ⟨nofun, fun answer => onlyCalls_orThrow_bind fun state _ => ?_⟩
  split
  · trivial
  refine ⟨nofun, fun answer => onlyCalls_orThrow_bind fun tip _ => ?_⟩
  split
  · refine ⟨nofun, fun answer => onlyCalls_orThrow_bind fun spend _ => ?_⟩
    cases spend with
    | none => exact unfunded_driveRefund
    | some spend =>
        dsimp only
        split
        · trivial
        · exact unfunded_driveRefund
  · exact ⟨nofun, fun _ => trivial⟩

/-- The one place where the wallet is asked. -/
theorem fundsOnce_commitFunding (hmarked : resume.marked = false)
    (hbefore : ∀ event ∈ log, event.1.funds = false) (tip : ℕ) :
    Sound Logged (FundsOnce resume) (fun log _ => FundsOnce resume log)
      (funding.commitFunding tip poll fuel) log := by
  have hlog : FundsOnce resume log := by
    intro before event after heq hfunds
    rw [hbefore event (by rw [heq]; simp)] at hfunds
    cases hfunds
  refine (sound_logged_call _ _).mpr ⟨hlog, fun answer => ?_⟩
  have hlog₁ : FundsOnce resume (log ++ [⟨.fundingIntent tip, answer⟩]) := hlog.snoc nofun
  refine sound_orThrow_bind hlog₁ (fun _ _ => hlog₁) fun done hdone => ?_
  subst hdone
  refine (sound_logged_call _ _).mpr ⟨hlog₁, fun answer => ?_⟩
  have hlog₂ : FundsOnce resume (log ++ [⟨.fundingIntent tip, .ok done⟩] ++
      [⟨.fundHtlc funding.htlcSpk funding.onchainAmountSat, answer⟩]) := by
    refine hlog₁.snoc fun _ => ⟨hmarked, ⟨tip, by simp⟩, fun event hmem => ?_⟩
    rcases List.mem_append.mp hmem with hmem | hmem
    · exact hbefore event hmem
    · rw [List.mem_singleton.mp hmem]
      rfl
  cases answer with
  | ok outpoint =>
      have hfunded : Unfunded (Program.bind (funded outpoint) fun _ =>
          (Program.pure (some outpoint) : Driver DriverError (Option OutPoint))) :=
        ⟨nofun, fun _ => trivial⟩
      exact hfunded.guarded hlog₂
  | error e => exact unfunded_awaitRecordedFunding.guarded hlog₂

/-- **A submarine driver funds at most once.** -/
theorem fundsOnce_executeSubmarineSwap :
    Sound Logged (FundsOnce resume) (fun log _ => FundsOnce resume log)
      (executeSubmarineSwap funding poll resume fuel) [] := by
  have hestablish : Sound Logged (FundsOnce resume) (fun log _ => FundsOnce resume log)
      (funding.establishFunding resume poll fuel) [] := by
    unfold SubmarineFunding.establishFunding
    cases hfunding : resume.funding with
    | some outpoint => exact ⟨Program.guarded_nil, Program.guarded_nil⟩
    | none =>
        refine (sound_logged_call _ _).mpr ⟨Program.guarded_nil, fun answer => ?_⟩
        have hlog : FundsOnce resume
            ([] ++ [⟨.findFunding funding.htlcSpk funding.onchainAmountSat, answer⟩]) :=
          Program.guarded_nil.snoc nofun
        refine sound_orThrow_bind hlog (fun _ _ => hlog) fun found hfound => ?_
        subst hfound
        cases found with
        | some utxo =>
            refine (sound_logged_call _ _).mpr ⟨hlog, fun _ => ?_⟩
            exact ⟨hlog.snoc nofun, hlog.snoc nofun⟩
        | none =>
            dsimp only
            split
            · exact unfunded_awaitRecordedFunding.guarded hlog
            · rename_i hintent
              refine (sound_logged_call _ _).mpr ⟨hlog, fun answer => ?_⟩
              have hlog₁ : FundsOnce resume (_ ++ [⟨.tipHeight, answer⟩]) := hlog.snoc nofun
              refine sound_orThrow_bind hlog₁ (fun _ _ => hlog₁) fun tip _ => ?_
              split
              · refine fundsOnce_commitFunding ?_ ?_ tip
                · simpa [Resume.marked, hfunding] using hintent
                · intro event hmem
                  simp only [List.nil_append, List.mem_append, List.mem_singleton] at hmem
                  rcases hmem with rfl | rfl <;> rfl
              · exact ⟨hlog₁, hlog₁⟩
  refine Sound.bind ?_ (fun _ _ h _ => h) hestablish
  intro log established hlog _
  cases established with
  | none => exact ⟨hlog, hlog⟩
  | some outpoint =>
      have hloop : Unfunded (iterate (fun _ =>
          funding.settlementRound resume outpoint poll fuel) fuel ()) :=
        OnlyCalls.iterate (fun _ => unfunded_settlementRound) fuel ()
      exact hloop.guarded hlog

end

/-! ## A driver on the store -/

/-- What a driver keeps to by itself. -/
structure DriverStart.KeepsTo [Crypto] (start : DriverStart) (log : List Event) : Prop where
  once : FundsOnce start.resume log
  reverse : ∀ claim n, start.execution = .reverse claim n →
    Gated claim n log ∧ PaysOnly claim.invoice log ∧
      PaysRecorded claim.paymentHash start.resume log

/-- The outside of a driver's exchange: the reports went to the store. -/
def outside (log : List Event) : List Event := log.filter fun event => !event.1.isReport

/-- A report is not an event of the outside. -/
theorem outside_append_report {log : List Event} {event : Event} (h : event.1.isReport = true) :
    outside (log ++ [event]) = outside log := by
  simp [outside, h]

/-- Every other call is an event of the outside, in its place. -/
theorem outside_append {log : List Event} {event : Event} (h : event.1.isReport = false) :
    outside (log ++ [event]) = outside log ++ [event] := by
  simp [outside, h]

/-- The events of the outside are events of the log. -/
theorem mem_outside {log : List Event} {event : Event} (h : event ∈ outside log) : event ∈ log :=
  List.mem_of_mem_filter h

/-- The gate of a claim is a matter of the outside. -/
theorem ReverseClaim.Open.outside {claim : ReverseClaim} {n : ℕ} {log : List Event}
    (h : claim.Open n log) : claim.Open n (outside log) := by
  obtain ⟨before, utxo, tip, after, rfl, hopen⟩ := h
  refine ⟨PubkySwap.outside before, utxo, tip, PubkySwap.outside after, ?_, hopen⟩
  simp [PubkySwap.outside, Op.isReport]

/-- The gate before the claim asks nothing of the reports, so it stands without them. -/
theorem Gated.outside {claim : ReverseClaim} {n : ℕ} {log : List Event} (h : Gated claim n log) :
    Gated claim n (outside log) :=
  Guarded.filter h _ fun _ hopen => hopen.outside

/-- Leaving the reports out leaves no new payment in. -/
theorem PaysOnly.outside {invoice : String} {log : List Event} (h : PaysOnly invoice log) :
    PaysOnly invoice (outside log) :=
  fun event hmem => h event (mem_outside hmem)

/-- With the reports left out, a payment still comes right after the answer that cleared
it. -/
theorem PaysRecorded.outside {hash : PaymentHash} {resume : Resume} {log : List Event}
    (h : PaysRecorded hash resume log) : PaysCleared hash resume (outside log) := by
  refine Guarded.filter h _ ?_
  rintro before ⟨answer, hcleared, rfl⟩
  exact ⟨answer, by simp [Op.isReport], hcleared⟩

/-- A property that no exchange of a driver of the swap ends. -/
def Steady (swapId : Uuid) (J : ClientWorld → Prop) : Prop :=
  ∀ (w : ClientWorld) (run : DriverRun) (older : List DriverRun) (event : Event),
    w.runs = run :: older → run.start.swapId = swapId → J w → J (w.drove event)

section

variable [Crypto] [ClientCrates] {decode : String → Option DecodedHoldInvoice}
  {legacy : List SwapRecord} {calls : List ClientCall} {J : ClientWorld → Prop}
    {start : DriverStart}
  {older : List DriverRun} {log : List Event} {w : ClientWorld}

/-- **A driver in the world**: the world has its outside, and what the driver has recorded,
an intent to fund or a payment, the record says. -/
structure Driving (decode : String → Option DecodedHoldInvoice) (legacy : List SwapRecord)
    (calls : List ClientCall) (J : ClientWorld → Prop) (start : DriverStart)
    (older : List DriverRun) (log : List Event) (w : ClientWorld) : Prop where
  keeps : Keeps decode legacy calls J w
  runs : w.runs = ⟨start, outside log⟩ :: older
  free : start.resume.marked = true ∨ fundingsOf start.swapId older = 0
  marked : IntentRecorded log → w.MarkedAt start.swapId
  paying : PaymentRecorded log → w.PayingAt start.swapId

omit [Crypto] [ClientCrates] in
/-- An intent is on record already, or the last event is the report of one. -/
theorem intentRecorded_append {event : Event} (h : IntentRecorded (log ++ [event])) :
    IntentRecorded log ∨ ∃ tip, event = ⟨.fundingIntent tip, .ok ()⟩ := by
  obtain ⟨tip, hmem⟩ := h
  rcases List.mem_append.mp hmem with hmem | hmem
  · exact Or.inl ⟨tip, hmem⟩
  · exact Or.inr ⟨tip, (List.mem_singleton.mp hmem).symm⟩

omit [Crypto] [ClientCrates] in
/-- The start of a payment is on record already, or the last event is the report of it. -/
theorem paymentRecorded_append {event : Event} (h : PaymentRecorded (log ++ [event])) :
    PaymentRecorded log ∨ event = ⟨.invoicePayStarted, .ok ()⟩ :=
  (List.mem_append.mp h).imp_right fun hmem => (List.mem_singleton.mp hmem).symm

/-- A driver that may fund is the first of its swap to do so. -/
theorem Driving.unfunded (h : Driving decode legacy calls J start older log w)
    {op : Op} {answer : Ans op}
    (hkeeps : start.KeepsTo (log ++ [⟨op, answer⟩])) (hfunds : op.funds = true) :
    fundingsOf start.swapId w.runs = 0 ∧ w.MarkedAt start.swapId := by
  obtain ⟨hmarked, hintent, hnone⟩ := hkeeps.once log ⟨op, answer⟩ [] rfl hfunds
  refine ⟨?_, h.marked hintent⟩
  have holder : fundingsOf start.swapId older = 0 := by
    rcases h.free with hfree | hfree
    · rw [hmarked] at hfree
      cases hfree
    · exact hfree
  have hown : DriverRun.fundings ⟨start, outside log⟩ = 0 := by
    refine List.countP_eq_zero.mpr fun event hmem => ?_
    rw [hnone event (mem_outside hmem)]
    exact nofun
  rw [h.runs]
  simp only [fundingsOf, List.map_cons, List.sum_cons, if_true, hown] at holder ⊢
  omega

/-- **An exchange with the outside.** -/
theorem Driving.drove (h : Driving decode legacy calls J start older log w)
    (hsteady : Steady start.swapId J) {op : Op} {answer : Ans op}
    (hop : op.isReport = false) (hkeeps : start.KeepsTo (log ++ [⟨op, answer⟩])) :
    Driving decode legacy calls J start older (log ++ [⟨op, answer⟩]) (w.drove ⟨op, answer⟩) where
  keeps := by
    refine ⟨h.keeps.1.drove h.runs ?_ ?_ ?_, hsteady w _ older _ h.runs rfl h.keeps.2⟩
    · intro claim n hexec
      obtain ⟨hgated, hpays, hrecorded⟩ := hkeeps.reverse claim n hexec
      have hlog : outside (log ++ [⟨op, answer⟩]) = outside log ++ [⟨op, answer⟩] :=
        outside_append hop
      exact ⟨hlog ▸ hgated.outside, hlog ▸ hpays.outside, hlog ▸ hrecorded.outside⟩
    · exact h.unfunded hkeeps
    · rintro hpays ⟨claim, n, hexec⟩
      obtain ⟨_, -, hbefore⟩ := (hkeeps.reverse claim n hexec).2.2 log ⟨op, answer⟩ [] rfl hpays
      refine h.paying ?_
      rw [hbefore]
      exact List.mem_cons_of_mem _ (List.mem_singleton_self _)
  runs := by
    rw [ClientWorld.runs_drove h.runs, outside_append hop]
  free := h.free
  marked := by
    intro hintent
    have hmarked : (w.drove ⟨op, answer⟩).MarkedAt start.swapId ↔ w.MarkedAt start.swapId := by
      simp [ClientWorld.MarkedAt]
    rw [hmarked]
    rcases intentRecorded_append hintent with hintent | ⟨tip, heq⟩
    · exact h.marked hintent
    · cases heq
      cases hop
  paying := by
    intro hrecorded
    have hpaying : (w.drove ⟨op, answer⟩).PayingAt start.swapId ↔ w.PayingAt start.swapId := by
      simp [ClientWorld.PayingAt]
    rw [hpaying]
    rcases paymentRecorded_append hrecorded with hrecorded | heq
    · exact h.paying hrecorded
    · cases heq
      cases hop

/-- What the world has to keep while a report is carried out. -/
def Meanwhile (J : ClientWorld → Prop) (start : DriverStart) (older : List DriverRun)
    (log : List Event) (w : ClientWorld) : Prop :=
  J w ∧ w.runs = ⟨start, outside log⟩ :: older ∧
    (IntentRecorded log → w.MarkedAt start.swapId) ∧ (PaymentRecorded log → w.PayingAt start.swapId)

omit [Crypto] [ClientCrates] in
/-- What a driver has done stays true while others change the records. -/
theorem stable_meanwhile (hJ : Stable J) : Stable (Meanwhile J start older log) := by
  intro w rec old hold hcont hw
  refine ⟨hJ w rec old hold hcont hw.1, hw.2.1, fun hintent => ?_, fun hrecorded => ?_⟩
  · exact stable_markedAt start.swapId w rec old hold hcont (hw.2.2.1 hintent)
  · exact stable_payingAt start.swapId w rec old hold hcont (hw.2.2.2 hrecorded)

/-- **A report that was carried out.** -/
theorem Driving.reported (hfree : start.resume.marked = true ∨ fundingsOf start.swapId older = 0)
    (hw : Keeps decode legacy calls (Meanwhile J start older log) w) {op : Op} {answer : Ans op}
    (hop : op.isReport = true)
    (hintent : ∀ tip, (⟨op, answer⟩ : Event) = ⟨.fundingIntent tip, .ok ()⟩ →
      w.MarkedAt start.swapId)
    (hpayment : (⟨op, answer⟩ : Event) = ⟨.invoicePayStarted, .ok ()⟩ → w.PayingAt start.swapId) :
    Driving decode legacy calls J start older (log ++ [⟨op, answer⟩]) w where
  keeps := ⟨hw.1, hw.2.1⟩
  runs := by
    rw [outside_append_report hop]
    exact hw.2.2.1
  free := hfree
  marked := by
    intro hrecorded
    rcases intentRecorded_append hrecorded with hrecorded | ⟨tip, heq⟩
    · exact hw.2.2.2.1 hrecorded
    · exact hintent tip heq
  paying := by
    intro hrecorded
    rcases paymentRecorded_append hrecorded with hrecorded | heq
    · exact hw.2.2.2.2 hrecorded
    · exact hpayment heq

omit [Crypto] [ClientCrates] in
/-- A report that may fail: what it establishes is established if it says so. -/
theorem sound_report {I P : ClientWorld → Prop} {p : ClientProgram Unit}
    (h : Sound (Moves decode) I (OnOk fun _ w => P w) p w) :
    Sound (Moves decode) I (fun w r => ∃ answer, r = .ok answer ∧ (answer = .ok () → P w))
      (report p) w := by
  refine Sound.bind (Q := fun w r => ∃ result, r = .ok result ∧ (result = .ok () → P w)) ?_ ?_
    (Sound.attempt ?_ h)
  · rintro w result hI ⟨_, ⟨⟩, hresult⟩
    refine ⟨hI, _, rfl, fun hok => hresult ?_⟩
    cases result with
    | ok done => rfl
    | error e => cases hok
  · rintro w e - ⟨_, ⟨⟩, -⟩
  · intro w r _ hr
    refine ⟨r, rfl, ?_⟩
    rintro rfl
    exact hr

omit [Crypto] [ClientCrates] in
/-- A write whose failure is only logged. -/
theorem sound_bestEffort {I : ClientWorld → Prop} {P : Unit → ClientWorld → Prop}
    {p : ClientProgram Unit} (h : Sound (Moves decode) I (OnOk P) p w) :
    Sound (Moves decode) I (fun _ r => r = .ok ()) (bestEffort p) w := by
  refine Sound.bind (Q := fun _ r => ∃ result, r = .ok result) ?_ ?_ (Sound.attempt ?_ h)
  · exact fun _ _ hI _ => ⟨hI, rfl⟩
  · rintro w e - ⟨_, ⟨⟩⟩
  · exact fun _ r _ _ => ⟨r, rfl⟩

omit [Crypto] [ClientCrates] in
/-- A call that is no report passes through to the drivers' environment unchanged. -/
theorem progress_outside {swapId : Uuid} {op : Op} (h : op.isReport = false) :
    progress swapId op = Program.ask (ClientOp.drive op) := by
  cases op
  all_goals first | rfl | cases h

/-- **One call of a driver**, carried out on the store. -/
theorem Driving.call (hJ : Stable J) (hsteady : Steady start.swapId J)
    (h : Driving decode legacy calls J start older log w) (op : Op)
    (hnext : ∀ answer : Ans op, start.KeepsTo (log ++ [⟨op, answer⟩])) :
    Sound (Moves decode) (Keeps decode legacy calls J)
      (fun w' r => ∃ answer log', r = .ok answer ∧ Logged log op answer log' ∧
        Driving decode legacy calls J start older log' w') (progress start.swapId op) w := by
  have hmeanwhile : Keeps decode legacy calls (Meanwhile J start older log) w :=
    ⟨h.keeps.1, h.keeps.2, h.runs, h.marked, h.paying⟩
  have hstable : Stable (Meanwhile J start older log) := stable_meanwhile hJ
  by_cases hop : op.isReport = true
  · cases op with
    | fundingIntent tip =>
        have hwrite : Sound (Moves decode) (Keeps decode legacy calls (Meanwhile J start older log))
            (OnOk fun _ w' => w'.MarkedAt start.swapId) (recordFundingIntent start.swapId tip) w :=
          sound_recordFundingIntent hstable hmeanwhile tip
        refine Sound.mono (fun _ hw => ⟨hw.1, hw.2.1⟩) ?_ (sound_report hwrite)
        rintro w' r hw ⟨answer, rfl, hok⟩
        refine ⟨answer, _, rfl, rfl, .reported h.free hw rfl (fun tip heq => ?_) nofun⟩
        cases heq
        exact hok rfl
    | funded outpoint =>
        have hwrite : Sound (Moves decode) (Keeps decode legacy calls (Meanwhile J start older log))
            (OnOk fun _ _ => True) (recordFunded start.swapId outpoint) w :=
          sound_recordFunded hstable hmeanwhile outpoint
        refine Sound.mono (fun _ hw => ⟨hw.1, hw.2.1⟩) ?_ (sound_bestEffort hwrite)
        rintro w' r hw rfl
        exact ⟨(), _, rfl, rfl, .reported h.free hw rfl nofun nofun⟩
    | spendBroadcast txid =>
        have hwrite : Sound (Moves decode) (Keeps decode legacy calls (Meanwhile J start older log))
            (OnOk fun _ _ => True) (recordOurSpend start.swapId txid) w :=
          sound_recordOurSpend hstable hmeanwhile txid
        refine Sound.mono (fun _ hw => ⟨hw.1, hw.2.1⟩) ?_ (sound_bestEffort hwrite)
        rintro w' r hw rfl
        exact ⟨(), _, rfl, rfl, .reported h.free hw rfl nofun nofun⟩
    | invoicePayStarted =>
        have hwrite : Sound (Moves decode) (Keeps decode legacy calls (Meanwhile J start older log))
            (OnOk fun _ w' => w'.PayingAt start.swapId) (recordPaymentStarted start.swapId) w :=
          sound_recordPaymentStarted hstable hmeanwhile
        refine Sound.mono (fun _ hw => ⟨hw.1, hw.2.1⟩) ?_ (sound_report hwrite)
        rintro w' r hw ⟨answer, rfl, hok⟩
        refine ⟨answer, _, rfl, rfl, .reported h.free hw rfl nofun fun heq => ?_⟩
        cases heq
        exact hok rfl
    | _ => cases hop
  · have hop' : op.isReport = false := by simpa using hop
    rw [progress_outside hop']
    refine ⟨h.keeps, fun answer w' hmove => ?_⟩
    obtain rfl : w' = w.drove ⟨op, answer⟩ := hmove
    have hdrove := h.drove hsteady hop' (hnext answer)
    exact ⟨hdrove.keeps, answer, _, rfl, rfl, hdrove⟩

/-- **A driver carried out on the store keeps the client's invariant.** -/
theorem sound_drive {α : Type} {p : Driver DriverError α} (hJ : Stable J)
    (hsteady : Steady start.swapId J)
    (hp : Sound Logged start.KeepsTo (fun _ _ => True) p []) (hw : Keeps decode legacy calls J w)
    (hruns : w.runs = ⟨start, []⟩ :: older)
    (hfree : start.resume.marked = true ∨ fundingsOf start.swapId older = 0) :
    Sound (Moves decode) (Keeps decode legacy calls J) (OnOk fun _ _ => True)
      (p.handle (progress start.swapId)) w := by
  have hstart : Driving decode legacy calls J start older [] w :=
    ⟨hw, hruns, hfree, fun ⟨_, hmem⟩ => (nomatch hmem), fun hmem => (nomatch hmem)⟩
  have hkeeps : ∀ log w, Driving decode legacy calls J start older log w → start.KeepsTo log →
      Keeps decode legacy calls J w :=
    fun _ _ hdriving _ => hdriving.keeps
  refine Sound.handle hkeeps ?_ ?_ hp hstart
  · rintro _ _ r - -
    cases r <;> trivial
  · intro op log w hdriving _ hnext
    exact hdriving.call hJ hsteady op fun answer => hnext answer _ rfl

end

/-! ## The two drivers -/

section

variable [Crypto] {claim : ReverseClaim} {funding : SubmarineFunding} {resume : Resume}
  {swapId : Uuid} {maxRoutingFeeMsat requiredConfirmations poll fuel : ℕ}

omit [Crypto] in
/-- A log pays one invoice only as long as each payment that is added names it. -/
theorem PaysOnly.append {invoice : String} {log : List Event} {event : Event}
    (h : PaysOnly invoice log)
    (hevent : ∀ paid fee cltv, event.1 = .payInvoice paid fee cltv ∨
      event.1 = .spawnPayInvoice paid fee cltv → paid = invoice) :
    PaysOnly invoice (log ++ [event]) := by
  intro found hmem
  rcases List.mem_append.mp hmem with hmem | hmem
  · exact h found hmem
  · rw [List.mem_singleton.mp hmem]
    exact hevent

/-- The reverse driver keeps to the swap it was started with, whatever the environment
answers. -/
theorem keepsTo_executeReverseSwap :
    Sound Logged (DriverStart.mk swapId (.reverse claim requiredConfirmations) resume).KeepsTo
      (fun _ _ => True)
      (executeReverseSwap claim maxRoutingFeeMsat requiredConfirmations poll resume fuel) [] := by
  have hcalls : Sound Logged (fun log => FundsOnce resume log ∧ PaysOnly claim.invoice log)
      (fun _ _ => True)
      (executeReverseSwap claim maxRoutingFeeMsat requiredConfirmations poll resume fuel) [] := by
    refine Sound.mono (fun _ h => h) (fun _ _ _ _ => trivial)
      (keeps_executeReverseSwap.sound ?_ ⟨Program.guarded_nil, nofun⟩)
    rintro log op answer _ hkeep ⟨honce, hpays⟩ rfl
    constructor
    · refine honce.snoc fun hfunds => ?_
      cases op
      all_goals first | exact hkeep.elim | cases hfunds
    · refine hpays.append ?_
      rintro paid fee cltv (rfl | rfl)
      · exact hkeep
      · exact hkeep
  refine Sound.mono ?_ (fun _ _ _ _ => trivial)
    ((executeReverseSwap_gated fuel).and (hcalls.and paysRecorded_executeReverseSwap))
  rintro log ⟨hgated, ⟨honce, hpays⟩, hrecorded⟩
  refine ⟨honce, ?_⟩
  rintro _ _ ⟨⟩
  exact ⟨hgated, hpays, hrecorded⟩

/-- The submarine driver keeps to the swap it was started with, whatever the environment
answers. -/
theorem keepsTo_executeSubmarineSwap :
    Sound Logged (DriverStart.mk swapId (.submarine funding) resume).KeepsTo (fun _ _ => True)
      (executeSubmarineSwap funding poll resume fuel) [] := by
  refine Sound.mono ?_ (fun _ _ _ _ => trivial) fundsOnce_executeSubmarineSwap
  exact fun log honce => ⟨honce, nofun⟩

variable [ClientCrates] {decode : String → Option DecodedHoldInvoice} {legacy : List SwapRecord}
  {calls : List ClientCall} {J : ClientWorld → Prop} {w : ClientWorld}

/-- **Driving a reverse swap.** -/
theorem sound_driveReverse (hJ : Stable J) (hsteady : Steady swapId J)
    (hw : Kept decode legacy calls w)
    (hcalled : J (w.called ⟨swapId, .reverse claim requiredConfirmations, resume⟩))
    (hremembers : J w)
    (hgiven : Given decode calls w swapId claim requiredConfirmations)
    (hheld : w.HeldAt swapId claim.preimage)
    (hfree : resume.marked = true ∨ fundingsOf swapId w.runs = 0)
    (hfresh : resume.isFresh = true → NeverPaid swapId w.runs ∧
      ∃ rec, w.store swapId = some rec ∧ rec.swapRequest.isSome) :
    Sound (Moves decode) (Keeps decode legacy calls J) (OnOk fun _ _ => True)
      (driveReverse swapId claim maxRoutingFeeMsat requiredConfirmations resume fuel) w := by
  refine ⟨⟨hw, hremembers⟩, fun _ w' hmove => ?_⟩
  obtain rfl : w' = w.called _ := hmove
  refine sound_drive hJ hsteady keepsTo_executeReverseSwap
    ⟨hw.called ?_ fun hstart => hfresh hstart.1, hcalled⟩ rfl hfree
  rintro _ _ ⟨⟩
  exact ⟨hgiven, hheld⟩

/-- **Driving a submarine swap.** -/
theorem sound_driveSubmarine (hJ : Stable J) (hsteady : Steady swapId J)
    (hw : Kept decode legacy calls w)
    (hcalled : J (w.called ⟨swapId, .submarine funding, resume⟩)) (hremembers : J w)
    (hfree : resume.marked = true ∨ fundingsOf swapId w.runs = 0) :
    Sound (Moves decode) (Keeps decode legacy calls J) (OnOk fun _ _ => True)
      (driveSubmarine swapId funding resume fuel) w := by
  refine ⟨⟨hw, hremembers⟩, fun _ w' hmove => ?_⟩
  obtain rfl : w' = w.called _ := hmove
  exact sound_drive hJ hsteady keepsTo_executeSubmarineSwap ⟨hw.called nofun nofun, hcalled⟩ rfl
    hfree

end

end PubkySwap
