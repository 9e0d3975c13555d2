import PubkySwap.DaemonRun

/-!
# The outpoint on record

The outpoint of a swap's funding is written to its record once.  A run that finds it there
does not look for another, so what the chain shows later cannot move the swap to a different
output.  The one exception is the reverse driver on a record with the mark of a reorg, which
looks again if the recorded output is not there at depth.

The copy of a run has the outpoint that is on disk, and the run reports none but the first
that its copy has had (`Recording.Held`).  The rule `Daemon.Pins.run` takes this to the runs
of the daemon.
-/

namespace PubkySwap

open Program (Sound OnlyCalls RoundMeets sound_orThrow_bind onlyCalls_orThrow_bind)

/-- The report of an outpoint. -/
def Op.records : Op → Bool
  | .funded _ => true
  | _ => false

/-- A run's copy of the record, and the outpoint that it had first. -/
structure Recording where
  copy : SwapRecord
  first : Option OutPoint

namespace Recording

/-- At the start of a run. -/
def ofRecord (rec : SwapRecord) : Recording := ⟨rec, rec.fundingOutpoint⟩

/-- What an answer makes of it. -/
structure Advances (s : Recording) (op : Op) (_ : Ans op) (s' : Recording) : Prop where
  copy : ∃ unix, s'.copy = s.copy.reported unix op
  first : s'.first = s.first.or s'.copy.fundingOutpoint

/-- The copy has the outpoint that it had first. -/
def Held (s : Recording) : Prop := s.copy.fundingOutpoint = s.first

/-- There is none yet. -/
structure Unrecorded (s : Recording) : Prop where
  held : s.Held
  first : s.first = none

variable {s s' : Recording} {op : Op} {answer : Ans op}

/-- A call that records no funding leaves the copy's funding as it is. -/
theorem copy_of_not_records (hop : op.records = false) (hmoves : Advances s op answer s') :
    s'.copy.fundingOutpoint = s.copy.fundingOutpoint := by
  obtain ⟨unix, hcopy⟩ := hmoves.copy
  rw [hcopy]
  refine SwapRecord.reported_fundingOutpoint _ unix ?_
  rintro outpoint rfl
  cases hop

/-- A call that records no funding keeps the one that is held. -/
theorem Held.moves (h : s.Held) (hop : op.records = false) (hmoves : Advances s op answer s') :
    s'.Held := by
  have hcopy := copy_of_not_records hop hmoves
  have hfirst : s.copy.fundingOutpoint = s.first := h
  rw [Held, hmoves.first, hcopy, hfirst, Option.or_self]

/-- A call that records no funding leaves the record without one. -/
theorem Unrecorded.moves (h : s.Unrecorded) (hop : op.records = false)
    (hmoves : Advances s op answer s') : s'.Unrecorded := by
  have hheld : s'.Held := h.held.moves hop hmoves
  refine ⟨hheld, ?_⟩
  have hcopy : s'.copy.fundingOutpoint = s.first := (copy_of_not_records hop hmoves).trans h.held
  rw [← h.first, ← hcopy]
  exact hheld.symm

/-- The first outpoint is reported. -/
theorem Unrecorded.recorded (h : s.Unrecorded) (hmoves : Advances s op answer s') : s'.Held := by
  rw [Held, hmoves.first, h.first, Option.none_or]

/-- A program without a report keeps the outpoint. -/
theorem sound_held {ε α : Type} {p : Driver ε α} (hp : OnlyCalls (fun op => op.records = false) p)
    (hs : s.Held) : Sound Advances Held (fun _ _ => True) p s :=
  Sound.mono (fun _ h => h) (fun _ _ _ _ => trivial)
    (OnlyCalls.sound (fun _ _ _ _ hop h hmoves => h.moves hop hmoves) hp hs)

/-- A program that records no funding leaves the record without one. -/
theorem sound_unrecorded {ε α : Type} {p : Driver ε α}
    (hp : OnlyCalls (fun op => op.records = false) p) (hs : s.Unrecorded) :
    Sound Advances Held (fun s _ => s.Unrecorded) p s :=
  Sound.mono (fun _ h => h.held) (fun _ _ _ h => h)
    (OnlyCalls.sound (fun _ _ _ _ hop h hmoves => h.moves hop hmoves) hp hs)

/-! ## The drivers -/

section

variable [Crypto]

section

variable {swap : ReverseSwap} {rec : SwapRecord} {poll fuel : ℕ}

/-- The wait for a funding that was intended records one output at most. -/
theorem sound_awaitRecordedFunding (hs : s.Unrecorded) :
    Sound Advances Held (fun _ _ => True) (awaitRecordedFunding swap poll fuel) s := by
  have hround : ∀ {s : Recording} (watchPoll : ℕ), s.Unrecorded →
      Sound Advances Held (RoundMeets (fun _ s => s.Unrecorded) fun _ _ => True)
        (awaitRound swap watchPoll) s := by
    intro s watchPoll hs
    refine ⟨hs.held, fun answer looked hmoves => ?_⟩
    have hlooked := hs.moves rfl hmoves
    refine sound_orThrow_bind hlooked.held (fun _ _ => trivial) fun found _ => ?_
    cases found with
    | some utxo => exact ⟨hlooked.held, fun _ _ hmoves => ⟨hlooked.recorded hmoves, trivial⟩⟩
    | none =>
        refine ⟨hlooked.held, fun answer listed hmoves => ?_⟩
        have hlisted := hlooked.moves rfl hmoves
        refine sound_orThrow_bind hlisted.held (fun _ _ => trivial) fun history _ => ?_
        have hsearches : OnlyCalls (fun op => op.records = false)
            (selectRecordedFunding swap.htlcSpk swap.paymentHash swap.onchainAmountSat history) :=
          (searches_selectRecordedFunding ..).mono fun op hop => by cases op <;> first
            | rfl
            | cases hop
        refine Sound.bind (fun s chosen hheld hs => ?_) (fun _ _ _ _ => trivial)
          (sound_unrecorded hsearches hlisted)
        cases chosen with
        | some outpoint => exact ⟨hheld, fun _ _ hmoves => ⟨hs.recorded hmoves, trivial⟩⟩
        | none =>
            refine ⟨hheld, fun answer timed hmoves => ?_⟩
            have htimed := hs.moves rfl hmoves
            refine sound_orThrow_bind htimed.held (fun _ _ => trivial) fun tip _ => ?_
            split
            · exact ⟨htimed.held, fun _ s' hmoves => ⟨htimed.held.moves rfl hmoves, trivial⟩⟩
            · refine ⟨htimed.held, fun _ slept hmoves => ?_⟩
              have hslept := htimed.moves rfl hmoves
              exact ⟨hslept.held, hslept⟩
  exact Sound.iterate (J := fun _ s => s.Unrecorded) (fun _ _ h => h.held)
    (fun _ _ h => hround _ h) fuel hs

/-- Committing to a funding records one output at most, whether the wallet names it or the
chain shows it. -/
theorem sound_commitFunding (hs : s.Unrecorded) (tip : ℕ) :
    Sound Advances Held (fun _ _ => True) (commitFunding swap tip poll fuel) s := by
  refine ⟨hs.held, fun answer intended hmoves => ?_⟩
  have hintended := hs.moves rfl hmoves
  cases answer with
  | error e => exact sound_held ⟨rfl, fun _ => trivial⟩ hintended.held
  | ok _ =>
      refine ⟨hintended.held, fun answer asked hmoves => ?_⟩
      have hasked := hintended.moves rfl hmoves
      cases answer with
      | ok outpoint => exact ⟨hasked.held, fun _ _ hmoves => ⟨hasked.recorded hmoves, trivial⟩⟩
      | error e => exact sound_awaitRecordedFunding hasked

/-- Funding within the timelocks records one output at most. -/
theorem sound_fundWithinTimelocks (hs : s.Unrecorded) :
    Sound Advances Held (fun _ _ => True) (fundWithinTimelocks swap poll fuel) s := by
  refine ⟨hs.held, fun answer known hmoves => ?_⟩
  have hknown := hs.moves rfl hmoves
  refine sound_orThrow_bind hknown.held (fun _ _ => trivial) fun status _ => ?_
  split
  · exact sound_held ⟨rfl, fun _ => trivial⟩ hknown.held
  · refine ⟨hknown.held, fun answer timed hmoves => ?_⟩
    have htimed := hknown.moves rfl hmoves
    refine sound_orThrow_bind htimed.held (fun _ _ => trivial) fun tip _ => ?_
    split
    · exact sound_held ⟨rfl, fun _ => trivial⟩ htimed.held
    · exact sound_commitFunding htimed tip

/-- The provider's search and funding record one output at most. -/
theorem sound_establishFunding (hs : s.Unrecorded) (hnone : rec.fundingOutpoint = none) :
    Sound Advances Held (fun _ _ => True)
      (establishFunding swap rec.resume rec.requiredConfirmations poll fuel) s := by
  have hresume : rec.resume.funding = none := hnone
  unfold establishFunding
  rw [hresume]
  refine ⟨hs.held, fun answer looked hmoves => ?_⟩
  have hlooked := hs.moves rfl hmoves
  refine sound_orThrow_bind hlooked.held (fun _ _ => trivial) fun found _ => ?_
  cases found with
  | some utxo => exact ⟨hlooked.held, fun _ _ hmoves => ⟨hlooked.recorded hmoves, trivial⟩⟩
  | none =>
      dsimp only
      split
      · exact sound_awaitRecordedFunding hlooked
      · exact sound_fundWithinTimelocks hlooked

/-- With an outpoint on record and no mark nothing is reported. -/
theorem quiet_establishFunding (hmark : rec.reorgSeenAtHeight = none)
    (hsome : rec.fundingOutpoint.isSome = true) :
    OnlyCalls (fun op => op.records = false)
      (establishFunding swap rec.resume rec.requiredConfirmations poll fuel) := by
  refine calls_establishFunding.mono fun op hop => ?_
  cases op <;> first
    | rfl
    | skip
  obtain hnone | hseen := hop
  · have hnone : rec.fundingOutpoint = none := hnone
    rw [hnone] at hsome
    cases hsome
  · have hseen : rec.reorgSeenAtHeight.isSome = true := hseen
    rw [hmark] at hseen
    cases hseen

/-- Watching a funded swap records no funding. -/
theorem quiet_watchFunded {outpoint : OutPoint} :
    OnlyCalls (fun op => op.records = false)
      (watchFunded swap rec.resume outpoint rec.requiredConfirmations poll fuel) :=
  calls_watchFunded.mono fun op hop => by cases op <;> first
    | rfl
    | cases hop

/-- **The reverse driver** on a record without the mark of a reorg. -/
theorem sound_reverseRun (swap : ReverseSwap) (poll fuel : ℕ)
    (hmark : rec.reorgSeenAtHeight = none) :
    Sound Advances Held (fun _ _ => True) (reverseRun swap poll rec fuel) (ofRecord rec) := by
  have haccept : OnlyCalls (fun op => op.records = false)
      (awaitAcceptance swap rec.resume poll fuel) :=
    calls_awaitAcceptance.mono fun op hop => by cases op <;> first
      | rfl
      | cases hop
  by_cases hsome : rec.fundingOutpoint.isSome = true
  · refine sound_held (OnlyCalls.bind (fun ended => ?_) haccept) rfl
    cases ended with
    | some state => trivial
    | none =>
        refine OnlyCalls.bind (fun outcome => ?_) (quiet_establishFunding hmark hsome)
        cases outcome with
        | refused state => trivial
        | funded outpoint => exact quiet_watchFunded
  · have hnone : rec.fundingOutpoint = none := Option.not_isSome_iff_eq_none.mp hsome
    refine Sound.bind (fun s ended hheld hs => ?_) (fun _ _ _ _ => trivial)
      (sound_unrecorded haccept ⟨rfl, hnone⟩)
    cases ended with
    | some state => exact ⟨hheld, trivial⟩
    | none =>
        refine Sound.bind (fun s outcome hs _ => ?_) (fun _ _ _ _ => trivial)
          (sound_establishFunding hs hnone)
        cases outcome with
        | refused state => exact ⟨hs, trivial⟩
        | funded outpoint => exact sound_held quiet_watchFunded hs

end

section

variable {swap : SubmarineSwap} {rec : SwapRecord} {poll fuel : ℕ}

/-- A round of the search records the output that it ends with, and none before. -/
theorem sound_fundingRound (requiredConfirmations : ℕ) (hs : s.Unrecorded) :
    Sound Advances Held (RoundMeets (fun _ s => s.Unrecorded) fun _ _ => True)
      (fundingRound swap requiredConfirmations poll) s := by
  refine ⟨hs.held, fun answer looked hmoves => ?_⟩
  have hlooked := hs.moves rfl hmoves
  refine sound_orThrow_bind hlooked.held (fun _ _ => trivial) fun outputs _ => ?_
  have hwait : Sound Advances Held (RoundMeets (fun _ s => s.Unrecorded) fun _ _ => True)
      (awaitDepth swap requiredConfirmations poll none) looked := by
    refine ⟨hlooked.held, fun answer timed hmoves => ?_⟩
    have htimed := hlooked.moves rfl hmoves
    refine sound_orThrow_bind htimed.held (fun _ _ => trivial) fun tip _ => ?_
    split
    · exact ⟨htimed.held, trivial⟩
    · refine ⟨htimed.held, fun _ slept hmoves => ?_⟩
      have hslept := htimed.moves rfl hmoves
      exact ⟨hslept.held, hslept⟩
  have hawait : ∀ adopted, Sound Advances Held
      (RoundMeets (fun _ s => s.Unrecorded) fun _ _ => True)
      (awaitDepth swap requiredConfirmations poll adopted) looked := by
    intro adopted
    cases adopted with
    | none => exact hwait
    | some utxo =>
        by_cases hdeep : requiredConfirmations ≤ utxo.confirmations
        · unfold awaitDepth adoptFunding
          dsimp only
          rw [if_pos hdeep]
          exact ⟨hlooked.held, fun _ _ hmoves => ⟨hlooked.recorded hmoves, trivial⟩⟩
        · unfold awaitDepth adoptFunding at hwait ⊢
          dsimp only at hwait ⊢
          rw [if_neg hdeep]
          exact hwait
  split
  · exact ⟨hlooked.held, trivial⟩
  · exact ⟨hlooked.held, trivial⟩
  · exact ⟨hlooked.held, trivial⟩
  · exact hawait _

/-- The search records one output at most, and none where the record has one already. -/
theorem sound_locateFunding :
    Sound Advances Held (fun _ _ => True)
      (locateFunding swap rec.resume rec.requiredConfirmations poll fuel) (ofRecord rec) := by
  by_cases hsome : rec.fundingOutpoint.isSome = true
  · refine sound_held (calls_locateFunding.mono fun op hop => ?_) rfl
    cases op <;> first
      | rfl
      | skip
    have hnone : rec.fundingOutpoint = none := hop
    rw [hnone] at hsome
    cases hsome
  · have hnone : rec.resume.funding = none := Option.not_isSome_iff_eq_none.mp hsome
    unfold locateFunding
    rw [hnone]
    exact Sound.iterate (J := fun _ s => s.Unrecorded) (fun _ _ h => h.held)
      (fun _ _ h => sound_fundingRound _ h) fuel ⟨rfl, hnone⟩

/-- After the search for the funding nothing is reported. -/
theorem quiet_afterFunding (swap : SubmarineSwap) (rec : SwapRecord) (outpoint : OutPoint)
    (poll fuel : ℕ) :
    OnlyCalls (fun op => op.records = false)
      (measureFunding swap rec.invoicePayStartedAtUnix.isSome outpoint rec.requiredConfirmations
        poll) ∧
      OnlyCalls (fun op => op.records = false)
        (obtainPayment swap rec.resume rec.invoicePayStartedAtUnix.isSome poll) ∧
      ∀ fundingValueSat preimage, OnlyCalls (fun op => op.records = false)
        (claimFunded swap rec.resume outpoint fundingValueSat preimage poll fuel) := by
  refine ⟨calls_measureFunding.mono fun op hop => ?_, calls_obtainPayment.mono fun op hop => ?_,
    fun _ _ => calls_claimFunded.mono fun op hop => ?_⟩
  all_goals
    cases op <;> first
      | rfl
      | cases hop

/-- **The submarine driver** on any record. -/
theorem sound_submarineRun (swap : SubmarineSwap) (poll fuel : ℕ) :
    Sound Advances Held (fun _ _ => True) (submarineRun swap poll rec fuel) (ofRecord rec) := by
  refine Sound.bind (fun s located hs _ => ?_) (fun _ _ _ _ => trivial) sound_locateFunding
  cases located with
  | inl state => exact ⟨hs, trivial⟩
  | inr outpoint =>
      obtain ⟨hmeasure, hpay, hclaim⟩ := quiet_afterFunding swap rec outpoint poll fuel
      refine sound_held (OnlyCalls.bind (fun measured => ?_) hmeasure) hs
      cases measured with
      | inl state => trivial
      | inr fundingValueSat =>
          refine OnlyCalls.bind (fun paid => ?_) hpay
          cases paid with
          | inl state => trivial
          | inr payment =>
              dsimp only
              split
              · trivial
              · exact hclaim _ _

end

end

/-- The next report leaves the copy with the outpoint it has. -/
theorem sound_reported {rec : SwapRecord} {ε α : Type} {Q : Recording → Except ε α → Prop}
    {op : Op} {next : Ans op → Driver ε α}
    (h : Sound Advances Held Q (.call op next) (ofRecord rec)) (answer : Ans op) (unix : ℕ) :
    Sound Advances Held Q (next answer) (ofRecord (rec.reported unix op)) ∧
      ∀ outpoint, rec.fundingOutpoint = some outpoint →
        (rec.reported unix op).fundingOutpoint = some outpoint := by
  have hmoves : Advances (ofRecord rec) op answer ⟨rec.reported unix op,
      rec.fundingOutpoint.or (rec.reported unix op).fundingOutpoint⟩ := ⟨⟨unix, rfl⟩, rfl⟩
  have hnext := h.step hmoves
  have hheld : (rec.reported unix op).fundingOutpoint =
      rec.fundingOutpoint.or (rec.reported unix op).fundingOutpoint := hnext.invariant
  rw [← hheld] at hnext
  refine ⟨hnext, fun outpoint hfunding => ?_⟩
  rw [hheld, hfunding, Option.some_or]

end Recording

/-! ## Over all runs -/

open Recording (Advances Held ofRecord)

/-- A driver that reports no outpoint but the first, on the records in `P`. -/
structure RecordsFirst (drive : SwapRecord → ℕ → Driver DriverError SwapState)
    (marks : ℕ → Prop) (P : SwapRecord → Prop) : Prop extends SwapRecord.Kept marks P where
  drives : ∀ rec fuel, P rec →
    Sound Advances Held (fun _ _ => True) (drive rec fuel) (ofRecord rec)

namespace Daemon

variable {drive : SwapRecord → ℕ → Driver DriverError SwapState} {marks : ℕ → Prop}
  {P : SwapRecord → Prop} {daemon : Daemon}

/-- The copy of a run has the outpoint that is on disk, and the run reports no other. -/
structure Pins (P : SwapRecord → Prop) (daemon : Daemon) : Prop where
  disk : P daemon.disk
  task : ∀ task, daemon.task = some task → P task.copy ∧
    (∀ outpoint, daemon.disk.fundingOutpoint = some outpoint →
      task.copy.fundingOutpoint = some outpoint) ∧
    Sound Advances Held (fun _ _ => True) task.left (ofRecord task.copy)

/-- A run that is spawned on the record on disk starts with its funding, and reports no
other. -/
theorem Pins.spawn (hfirst : RecordsFirst drive marks P) (hdisk : P daemon.disk)
    {rec : SwapRecord} (hrec : P rec)
    (hsame : ∀ outpoint, daemon.disk.fundingOutpoint = some outpoint →
      rec.fundingOutpoint = some outpoint) (fuel : ℕ) :
    Pins P (daemon.spawn drive rec fuel) := by
  refine ⟨hdisk, ?_⟩
  rintro _ ⟨⟩
  exact ⟨hrec, hsame, hfirst.drives rec fuel hrec⟩

/-- **One step** keeps the agreement, and the outpoint on disk. -/
theorem Pins.step (hfirst : RecordsFirst drive marks P) (h : Pins P daemon)
    {event : DaemonEvent} (hwithin : event.Within (fun _ _ => True) marks) :
    Pins P (daemon.step drive event) ∧
      ∀ outpoint, daemon.disk.fundingOutpoint = some outpoint →
        (daemon.step drive event).disk.fundingOutpoint = some outpoint := by
  have hfunding : ∀ {rec old : SwapRecord}, rec.Alike old →
      rec.fundingOutpoint = old.fundingOutpoint := fun hlike => congrArg Resume.funding hlike.resume
  -- A write leaves the disk as it was, or puts there what the copy has.
  have hleaves : ∀ {disk new copy : SwapRecord}, new.Alike disk ∨ new.Alike copy → P disk →
      P copy → (∀ outpoint, disk.fundingOutpoint = some outpoint →
        copy.fundingOutpoint = some outpoint) →
      P new ∧ (∀ outpoint, disk.fundingOutpoint = some outpoint →
        new.fundingOutpoint = some outpoint) ∧
      ∀ outpoint, new.fundingOutpoint = some outpoint →
        copy.fundingOutpoint = some outpoint := by
    rintro disk new copy (hlike | hlike) hdisk hcopy hsame
    · rw [hfunding hlike]
      exact ⟨hfirst.alike _ _ hlike hdisk, fun _ h => h, hsame⟩
    · rw [hfunding hlike]
      exact ⟨hfirst.alike _ _ hlike hcopy, hsame, fun _ h => h⟩
  have hwritten : ∀ op (copy disk : SwapRecord) unix put,
      (writtenFor op copy disk unix put).Alike disk ∨
        (writtenFor op copy disk unix put).Alike copy := by
    intro op copy disk unix put
    unfold writtenFor
    split
    · exact copy.putOver_alike disk unix put
    · exact .inl (.refl disk)
  have hsteps := step_steps drive daemon event
  generalize daemon.step drive event = after at hsteps
  cases hsteps with
  | same => exact ⟨h, fun _ h => h⟩
  | begin htask fuel => exact ⟨.spawn hfirst h.disk h.disk (fun _ h => h) fuel, fun _ h => h⟩
  | @ask task op next htask hleft hasked =>
      refine ⟨⟨h.disk, ?_⟩, fun _ h => h⟩
      rintro _ ⟨⟩
      exact h.task task htask
  | @answer task op next htask hleft hasked answers unix put hevent =>
      -- what the driver reports is recorded in its copy first, whatever becomes of the write
      obtain ⟨hcopy, hsame, hsound⟩ := h.task task htask
      rw [hleft] at hsound
      obtain ⟨hnext, hreported⟩ :=
        Recording.sound_reported hsound (put.reply op (answers op)) unix
      obtain ⟨hkept, hstays, hagrees⟩ := hleaves (hwritten op _ daemon.disk unix put) h.disk
        (hfirst.reported _ unix op hcopy) fun outpoint h => hreported outpoint (hsame outpoint h)
      refine ⟨⟨hkept, ?_⟩, hstays⟩
      rintro _ ⟨⟩
      exact ⟨hfirst.reported _ unix op hcopy, hagrees, hnext⟩
  | @note task state copy disk htask hleft hlike hdisk =>
      obtain ⟨hcopy, hsame, hsound⟩ := h.task task htask
      obtain ⟨hkept, hstays, hagrees⟩ := hleaves hdisk h.disk hcopy hsame
      refine ⟨⟨hkept, ?_⟩, hstays⟩
      rintro _ ⟨⟩
      refine ⟨hfirst.alike _ _ hlike hcopy, fun outpoint h => ?_, ?_⟩
      · rw [hfunding hlike]
        exact hagrees outpoint h
      · show Sound _ _ _ task.left _
        rw [hleft]
        exact ⟨rfl, trivial⟩
  | @ended task disk htask hdisk =>
      obtain ⟨hcopy, hsame, hsound⟩ := h.task task htask
      obtain ⟨hkept, hstays, hagrees⟩ := hleaves hdisk h.disk hcopy hsame
      exact ⟨⟨hkept, fun _ htask => (Option.some_ne_none _ htask.symm).elim⟩, hstays⟩
  | @handBack task rec disk htask hrec hdisk fuel =>
      obtain ⟨hcopy, hsame, hsound⟩ := h.task task htask
      obtain ⟨hkept, hstays, hagrees⟩ := hleaves hdisk h.disk hcopy hsame
      refine ⟨.spawn hfirst hkept (hfirst.alike _ _ hrec hcopy) (fun outpoint h => ?_) fuel, hstays⟩
      rw [hfunding hrec]
      exact hagrees outpoint h
  | mark fork unix put hevent =>
      subst hevent
      have hlike := SwapRecord.putOver_alike (daemon.disk.markReorg fork unix) daemon.disk unix put
      obtain ⟨hkept, hstays, hagrees⟩ := hleaves hlike h.disk
        (hfirst.mark _ fork unix hwithin h.disk) (fun _ h => h)
      refine ⟨⟨hkept, fun task htask => ?_⟩, hstays⟩
      obtain ⟨hcopy, hsame, hsound⟩ := h.task task htask
      exact ⟨hcopy, fun outpoint h => hsame outpoint (hagrees outpoint h), hsound⟩
  | @die task op next htask hleft hasked unix put =>
      obtain ⟨hcopy, hsame, hsound⟩ := h.task task htask
      rw [hleft] at hsound
      obtain ⟨-, hreported⟩ := Recording.sound_reported hsound (idle op) unix
      obtain ⟨hkept, hstays, hagrees⟩ := hleaves (hwritten op _ daemon.disk unix put) h.disk
        (hfirst.reported _ unix op hcopy) fun outpoint h => hreported outpoint (hsame outpoint h)
      exact ⟨⟨hkept, fun _ htask => (Option.some_ne_none _ htask.symm).elim⟩, hstays⟩

/-- No history of the daemon replaces a funding on disk. -/
theorem Pins.run (hfirst : RecordsFirst drive marks P) (h : Pins P daemon)
    {events : List DaemonEvent}
    (hwithin : ∀ event ∈ events, event.Within (fun _ _ => True) marks) :
    Pins P (run drive events daemon) ∧
      ∀ outpoint, daemon.disk.fundingOutpoint = some outpoint →
        (run drive events daemon).disk.fundingOutpoint = some outpoint := by
  induction events generalizing daemon with
  | nil => exact ⟨h, fun _ h => h⟩
  | cons event events ih =>
      obtain ⟨hstep, hstays⟩ := h.step hfirst (hwithin event List.mem_cons_self)
      obtain ⟨hrun, hlasts⟩ :=
        ih hstep fun later hlater => hwithin later (List.mem_cons_of_mem _ hlater)
      exact ⟨hrun, fun outpoint hdisk => hlasts outpoint (hstays outpoint hdisk)⟩

/-- **Once on disk, on disk for good.** -/
theorem funding_stays (hfirst : RecordsFirst drive marks P) {rec : SwapRecord} (hrec : P rec)
    {before after : List DaemonEvent}
    (hwithin : ∀ event ∈ before ++ after, event.Within (fun _ _ => True) marks)
    {outpoint : OutPoint}
    (hdisk : (run drive before ⟨rec, none, [], []⟩).disk.fundingOutpoint = some outpoint) :
    (run drive (before ++ after) ⟨rec, none, [], []⟩).disk.fundingOutpoint = some outpoint := by
  have hnew : Pins P ⟨rec, none, [], []⟩ :=
    ⟨hrec, fun _ htask => (Option.some_ne_none _ htask.symm).elim⟩
  have hbefore := (hnew.run hfirst fun event hmem =>
    hwithin event (List.mem_append_left _ hmem)).1
  have hafter := (hbefore.run hfirst fun event hmem =>
    hwithin event (List.mem_append_right _ hmem)).2
  rw [run, List.foldl_append]
  exact hafter outpoint hdisk

end Daemon

section

variable [Crypto]

/-- **A submarine swap keeps its funding outpoint.**  From any record, once an outpoint is on
disk it stays there, through every sequence of runs, answers, failed writes, marks of the
reorg monitor and crashes. -/
theorem submarine_funding_stays (swap : SubmarineSwap) (poll : ℕ) (rec : SwapRecord)
    (before after : List DaemonEvent) (outpoint : OutPoint)
    (hdisk : (Daemon.run (submarineRun swap poll) before ⟨rec, none, [], []⟩).disk.fundingOutpoint =
      some outpoint) :
    (Daemon.run (submarineRun swap poll) (before ++ after)
      ⟨rec, none, [], []⟩).disk.fundingOutpoint =
      some outpoint := by
  have hfirst : RecordsFirst (submarineRun swap poll) (fun _ => True) fun _ => True :=
    { alike := fun _ _ _ h => h
      mark := fun _ _ _ _ h => h
      reported := fun _ _ _ h => h
      drives := fun _ fuel _ => Recording.sound_submarineRun swap poll fuel }
  refine Daemon.funding_stays hfirst trivial (fun event _ => ?_) hdisk
  cases event <;> first
    | trivial
    | exact fun _ => trivial

/-- **A reverse swap changes its funding outpoint only after a reorg.**  From any record
without a mark, while the reorg monitor makes none, an outpoint that is on disk stays there. -/
theorem reverse_funding_stays (swap : ReverseSwap) (poll : ℕ) (rec : SwapRecord)
    (hrec : rec.reorgSeenAtHeight = none) (before after : List DaemonEvent)
    (hmarks : ∀ fork unix put, DaemonEvent.mark fork unix put ∉ before ++ after)
    (outpoint : OutPoint)
    (hdisk : (Daemon.run (reverseRun swap poll) before ⟨rec, none, [], []⟩).disk.fundingOutpoint =
      some outpoint) :
    (Daemon.run (reverseRun swap poll) (before ++ after) ⟨rec, none, [], []⟩).disk.fundingOutpoint =
      some outpoint := by
  have hfirst : RecordsFirst (reverseRun swap poll) (fun _ => False)
      fun rec => rec.reorgSeenAtHeight = none :=
    { alike := fun _ _ hlike h => (congrArg Resume.reorgSeenAtHeight hlike.resume).trans h
      mark := fun _ _ _ hfalse _ => hfalse.elim
      reported := fun rec unix op h => (rec.reported_reorgSeenAtHeight unix op).trans h
      drives := fun _ fuel h => Recording.sound_reverseRun swap poll fuel h }
  refine Daemon.funding_stays hfirst hrec (fun event hmem => ?_) hdisk
  cases event with
  | answer answers unix put => exact fun _ => trivial
  | mark fork unix put => exact hmarks fork unix put hmem
  | begin _ | ask | noteFee _ _ | finish _ _ _ _ _ _ | crash _ _ => trivial

end

namespace KeptFunding

local instance tables : Crypto := tableCrypto []

def submarine : SubmarineSwap where
  paymentHash := Bytes32.ofNat 81
  onchainAmountSat := 100000
  feeRateSatVb := 2
  htlcScript := []
  htlcSpk := []
  taproot := none
  timeoutHeight := 800144
  claimKey := Bytes32.ofNat 1
  invoice := "lnbc1"
  maxRoutingFeeMsat := 1000
  timelock := {}

def reverse : ReverseSwap where
  paymentHash := Bytes32.ofNat 81
  onchainAmountSat := 100000
  feeRateSatVb := 2
  htlcScript := []
  htlcSpk := []
  taproot := none
  timeoutHeight := 800144
  refundKey := Bytes32.ofNat 1
  timelock := {}

def outpoint : OutPoint := ⟨7, 0⟩

/-- The output is there, at depth. -/
def answers : (op : Op) → Ans op
  | .invoiceState _ => .ok .accepted
  | .findFunding .. => .ok (some ⟨outpoint, 100000, 6⟩)
  | .findOutputs _ => .ok [⟨outpoint, 100000, 6⟩]
  | op => idle op

/-- A run of so many calls. -/
def before (calls : ℕ) : List DaemonEvent :=
  .begin 1 :: (List.replicate calls [.ask, .answer answers 10 .landed]).flatten

/-- The process dies and starts again. -/
def after : List DaemonEvent := [.crash 11 false, .begin 1]

/-- A run in which the submarine funding is recorded, and stays through what follows. -/
theorem submarine_funding_stays_seven :
    (Daemon.run (submarineRun submarine 5) (before 2 ++ after)
      ⟨{}, none, [], []⟩).disk.fundingOutpoint = some outpoint :=
  submarine_funding_stays submarine 5 {} (before 2) after outpoint (by decide +kernel)

/-- A run in which the reverse funding is recorded, and stays through what follows. -/
theorem reverse_funding_stays_seven :
    (Daemon.run (reverseRun reverse 5) (before 3 ++ after)
      ⟨{}, none, [], []⟩).disk.fundingOutpoint = some outpoint := by
  refine reverse_funding_stays reverse 5 {} rfl (before 3) after ?_ outpoint (by decide +kernel)
  intro fork unix put hmem
  simp [before, after] at hmem

end KeptFunding

/-! ## The mark of a reorg -/

/-- The record has the mark of a reorg at this height or below. -/
def SwapRecord.MarkedBelow (fork : ℕ) (rec : SwapRecord) : Prop :=
  ∃ height, rec.reorgSeenAtHeight = some height ∧ height ≤ fork

/-- The mark of a reorganisation is at its fork or below. -/
theorem SwapRecord.markedBelow_markReorg (rec : SwapRecord) (fork unix : ℕ) :
    (rec.markReorg fork unix).MarkedBelow fork := by
  cases hseen : rec.reorgSeenAtHeight with
  | none => exact ⟨fork, by rw [markReorg, hseen], le_refl fork⟩
  | some seen => exact ⟨min seen fork, by rw [markReorg, hseen], min_le_right seen fork⟩

/-- Marks only sink. -/
theorem SwapRecord.kept_markedBelow (fork : ℕ) :
    SwapRecord.Kept (fun _ => True) (SwapRecord.MarkedBelow fork) where
  alike rec old hlike h := by
    obtain ⟨height, hseen, hle⟩ := h
    exact ⟨height, (congrArg Resume.reorgSeenAtHeight hlike.resume).trans hseen, hle⟩
  mark rec later unix _ h := by
    obtain ⟨height, hseen, hle⟩ := h
    refine ⟨min height later, ?_, (min_le_left height later).trans hle⟩
    rw [markReorg, hseen]
  reported rec unix op h := by
    obtain ⟨height, hseen, hle⟩ := h
    exact ⟨height, (rec.reported_reorgSeenAtHeight unix op).trans hseen, hle⟩

/-- **A mark lasts** if no run is on an unmarked copy when it is made: whatever happens then,
the disk keeps a mark as low, and every run is started with one. -/
theorem mark_lasts (drive : SwapRecord → ℕ → Driver DriverError SwapState) (daemon : Daemon)
    (fork unix : ℕ) (hlive : daemon.disk.state.isTerminal = false)
    (hcopy : ∀ task, daemon.task = some task → task.copy.MarkedBelow fork)
    (events : List DaemonEvent) :
    (Daemon.run drive events (daemon.mark fork unix .landed)).disk.MarkedBelow fork ∧
      ∃ later, (Daemon.run drive events (daemon.mark fork unix .landed)).starts =
          daemon.starts ++ later ∧ ∀ rec ∈ later, rec.MarkedBelow fork := by
  have hmark : daemon.mark fork unix .landed =
      { daemon with
        disk := (daemon.disk.markReorg fork unix).stamped (some daemon.disk) unix } := by
    rw [Daemon.mark, hlive]
    rfl
  have heverywhere : Daemon.Everywhere (SwapRecord.MarkedBelow fork)
      (daemon.mark fork unix .landed) := by
    rw [hmark]
    exact ⟨daemon.disk.markedBelow_markReorg fork unix, hcopy⟩
  have hwithin : ∀ event ∈ events, event.Within (fun _ _ => True) fun _ => True := by
    intro event _
    cases event <;> first
      | trivial
      | exact fun _ => trivial
  obtain ⟨hrun, hstarts⟩ :=
    heverywhere.run (SwapRecord.kept_markedBelow fork) hwithin
  rw [hmark] at hrun hstarts ⊢
  exact ⟨hrun.disk, hstarts⟩

namespace KeptMark

local instance tables : Crypto := KeptFunding.tables

/-- The reverse driver on a copy that has been marked at 799980, in the middle of its checks of
the funding. -/
def running : Daemon :=
  Daemon.run (reverseRun KeptFunding.reverse 5)
    [.begin 1, .ask, .answer KeptFunding.answers 10 .landed, .ask]
    ⟨{ fundingTxid := some 7, fundingVout := some 0, reorgSeenAtHeight := some 799980 }, none,
      [], []⟩

/-- It goes on, fails to write, dies, and is started again. -/
def later : List DaemonEvent :=
  [.answer KeptFunding.answers 11 (.failed "" false), .ask, .crash 12 true, .begin 1]

/-- **A mark lasts under a running driver**: the block that goes at 799990 leaves the mark
where it was, and the driver is started with it again. -/
theorem mark_lasts_running :
    running.task.isSome = true ∧
      (Daemon.run (reverseRun KeptFunding.reverse 5) later
        (running.mark 799990 11 .landed)).disk.MarkedBelow 799990 ∧
      ∃ starts, (Daemon.run (reverseRun KeptFunding.reverse 5) later
          (running.mark 799990 11 .landed)).starts = running.starts ++ starts ∧
        ∀ rec ∈ starts, rec.MarkedBelow 799990 := by
  have hmarked : running.task.map (fun task => task.copy.reorgSeenAtHeight) =
      some (some 799980) := by decide +kernel
  refine ⟨by decide +kernel, mark_lasts (reverseRun KeptFunding.reverse 5) running 799990 11
    (by decide +kernel) (fun task htask => ⟨799980, ?_, by decide⟩) later⟩
  rw [htask] at hmarked
  exact Option.some.inj hmarked

end KeptMark

end PubkySwap
