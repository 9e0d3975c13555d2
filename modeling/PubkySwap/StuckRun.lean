import PubkySwap.Lib.Replay
import PubkySwap.Progress
import PubkySwap.ProviderCalls
import PubkySwap.SubmarineRun

/-!
# How often a swap has failed

A swap whose driver is entered again and again counts its failures, and loses the count as
soon as a report moves its state.  So the count is kept by a run that writes no state but
the one on record (`SwapRecord.recordAfter_kept`), and is lost in one that writes another
(`SwapRecord.recordAfter_lost`).  From some run on, a swap whose runs write at most one
state needs an operator (`Reentry.needsRecovery_of_one_state`).

The rest says what the two provider drivers report.  A report of theirs that moves the state
is made only on a record without the mark that the report itself leaves
(`reports_driveReverseSwap`, `reports_driveSubmarineSwap`), with one exception: a reverse
swap whose record carries a reorg looks for its funding again, and reports it again.
-/

namespace PubkySwap

open BitcoinScript (Bytes)
open Program (Run Ending OnlyCalls Sound Logged OnOk Always RoundMeets sound_logged_call
  sound_orThrow_bind onlyCalls_orThrow_bind)

/-! ## The record through a run -/

/-- The state that a report writes. -/
def Op.stateWritten : Op → Option SwapState
  | .fundingIntent _ => some .lockupPending
  | .funded _ => some .lockupConfirmed
  | .invoicePayStarted => some .invoicePending
  | .invoicePaid => some .invoicePaid
  | .claimObserved _ => some .invoicePaid
  | _ => none

namespace SwapRecord

variable {clock : ℕ → ℕ} {rec : SwapRecord} {trace : List Event}

/-- A report leaves the state that it writes, or else the one that was there. -/
theorem reported_state (rec : SwapRecord) (unix : ℕ) (op : Op) :
    (rec.reported unix op).state = op.stateWritten.getD rec.state := by
  cases op <;> first
    | rfl
    | (simp only [reported, updated]; split <;> rfl)

/-- The count is lost with the state. -/
theorem reported_retryCount (rec : SwapRecord) (unix : ℕ) (op : Op) :
    (rec.reported unix op).retryCount =
      if op.stateWritten.getD rec.state = rec.state then rec.retryCount else 0 := by
  cases op <;> simp only [reported, updated, Op.stateWritten, Option.getD] <;> split <;> first
    | rfl
    | simp_all [noteOurSpend, progressed]

/-- No report changes the depth the swap asks of its funding. -/
theorem reported_requiredConfirmations (rec : SwapRecord) (unix : ℕ) (op : Op) :
    (rec.reported unix op).requiredConfirmations = rec.requiredConfirmations := by
  cases op <;> first
    | rfl
    | (simp only [reported, updated]; split <;> rfl)

/-- No report changes the height at which a reorganisation was seen. -/
theorem reported_reorgSeenAtHeight (rec : SwapRecord) (unix : ℕ) (op : Op) :
    (rec.reported unix op).reorgSeenAtHeight = rec.reorgSeenAtHeight := by
  cases op <;> first
    | rfl
    | (simp only [reported, updated]; split <;> rfl)

/-- The report of a funding records its output. -/
theorem reported_funded (rec : SwapRecord) (unix : ℕ) (outpoint : OutPoint) :
    (rec.reported unix (.funded outpoint)).fundingOutpoint = some outpoint := by
  simp only [reported, updated]
  split <;> rfl

/-- No other report changes the recorded funding. -/
theorem reported_fundingOutpoint (rec : SwapRecord) (unix : ℕ) {op : Op}
    (hop : ∀ outpoint, op ≠ .funded outpoint) :
    (rec.reported unix op).fundingOutpoint = rec.fundingOutpoint := by
  cases op <;> first
    | rfl
    | exact absurd rfl (hop _)
    | (simp only [reported, updated]; split <;> rfl)

/-- The report of a funding intent records its tip. -/
theorem reported_fundingIntent (rec : SwapRecord) (unix tip : ℕ) :
    (rec.reported unix (.fundingIntent tip)).fundingIntentAtHeight = some tip := by
  simp only [reported, updated]
  split <;> rfl

/-- No report but that of an intent or of a funding changes the recorded intent. -/
theorem reported_fundingIntentAtHeight (rec : SwapRecord) (unix : ℕ) {op : Op}
    (hintent : ∀ tip, op ≠ .fundingIntent tip) (hfunded : ∀ outpoint, op ≠ .funded outpoint) :
    (rec.reported unix op).fundingIntentAtHeight = rec.fundingIntentAtHeight := by
  cases op <;> first
    | rfl
    | exact absurd rfl (hintent _)
    | exact absurd rfl (hfunded _)
    | (simp only [reported, updated]; split <;> rfl)

/-- The report of a payment's start records the time at which it was made. -/
theorem reported_invoicePayStarted (rec : SwapRecord) (unix : ℕ) :
    (rec.reported unix .invoicePayStarted).invoicePayStartedAtUnix = some unix := by
  simp only [reported, updated]
  split <;> rfl

/-- No other report changes the recorded start of a payment. -/
theorem reported_invoicePayStartedAtUnix (rec : SwapRecord) (unix : ℕ) {op : Op}
    (hop : op ≠ .invoicePayStarted) :
    (rec.reported unix op).invoicePayStartedAtUnix = rec.invoicePayStartedAtUnix := by
  cases op <;> first
    | rfl
    | exact absurd rfl hop
    | (simp only [reported, updated]; split <;> rfl)

/-! ### Whole traces -/

/-- What every report keeps, a trace keeps. -/
theorem recordAfter_keeps {P : SwapRecord → Prop} :
    ∀ {trace : List Event} {clock : ℕ → ℕ} {rec : SwapRecord},
      (∀ (rec : SwapRecord) unix, ∀ event ∈ trace, P rec → P (rec.reported unix event.1)) → P rec →
        P (rec.recordAfter clock trace) := by
  intro trace
  induction trace with
  | nil => exact fun _ h => h
  | cons event trace ih =>
      intro clock rec hkeep h
      exact ih (fun rec unix e he => hkeep rec unix e (List.mem_cons_of_mem _ he))
        (hkeep rec (clock 0) event List.mem_cons_self h)

/-- What one report reaches and every report keeps. -/
theorem recordAfter_reaches {P : SwapRecord → Prop} {event : Event}
    (hkeep : ∀ (rec : SwapRecord) unix op, P rec → P (rec.reported unix op))
    (hreach : ∀ (rec : SwapRecord) unix, P (rec.reported unix event.1)) :
    ∀ {trace : List Event} {clock : ℕ → ℕ} {rec : SwapRecord}, event ∈ trace →
      P (rec.recordAfter clock trace) := by
  intro trace
  induction trace with
  | nil => exact nofun
  | cons head trace ih =>
      intro clock rec hmem
      rcases List.mem_cons.mp hmem with rfl | hmem
      · show P (recordAfter (fun i => clock (i + 1)) (rec.reported (clock 0) event.1) trace)
        exact recordAfter_keeps (fun rec unix e _ => hkeep rec unix e.1) (hreach rec (clock 0))
      · exact ih hmem

/-- **The count is kept** by reports that write no state but the one on record. -/
theorem recordAfter_kept {state : SwapState} (hrec : rec.state = state)
    (hwrites : ∀ event ∈ trace, ∀ s ∈ event.1.stateWritten, s = state) :
    (rec.recordAfter clock trace).state = state ∧
      (rec.recordAfter clock trace).retryCount = rec.retryCount := by
  refine recordAfter_keeps (P := fun r => r.state = state ∧ r.retryCount = rec.retryCount) ?_
    ⟨hrec, rfl⟩
  rintro r unix event hmem ⟨hstate, hcount⟩
  have hsame : event.1.stateWritten.getD r.state = r.state := by
    cases hwritten : event.1.stateWritten with
    | none => rfl
    | some s => exact (hwrites event hmem s hwritten).trans hstate.symm
  rw [reported_state, reported_retryCount, if_pos hsame, hsame]
  exact ⟨hstate, hcount⟩

/-- **The count is lost** with the first report that writes another state. -/
theorem recordAfter_lost : ∀ {trace : List Event} {clock : ℕ → ℕ} {rec : SwapRecord},
    (∃ event ∈ trace, ∃ s ∈ event.1.stateWritten, s ≠ rec.state) →
      ∃ before after, trace = before ++ after ∧
        (rec.recordAfter clock before).retryCount = 0 := by
  intro trace
  induction trace with
  | nil => exact nofun
  | cons head trace ih =>
      rintro clock rec ⟨event, hmem, s, hs, hne⟩
      by_cases hsame : head.1.stateWritten.getD rec.state = rec.state
      · have htail : ∃ event ∈ trace, ∃ s ∈ event.1.stateWritten,
            s ≠ (rec.reported (clock 0) head.1).state := by
          rcases List.mem_cons.mp hmem with rfl | hmem
          · rw [Option.mem_def.mp hs] at hsame
            exact absurd hsame hne
          · exact ⟨event, hmem, s, hs, by rwa [reported_state, hsame]⟩
        obtain ⟨before, after, rfl, hcount⟩ := ih htail
        exact ⟨head :: before, after, rfl, hcount⟩
      · refine ⟨[head], trace, rfl, ?_⟩
        show (rec.reported (clock 0) head.1).retryCount = 0
        rw [reported_retryCount, if_neg hsame]

/-- A trace that writes one state leaves the record in it. -/
theorem recordAfter_state {state : SwapState} :
    ∀ {trace : List Event} {clock : ℕ → ℕ} {rec : SwapRecord},
      (∀ event ∈ trace, ∀ s ∈ event.1.stateWritten, s = state) →
      (∃ event ∈ trace, event.1.stateWritten ≠ none) →
        (rec.recordAfter clock trace).state = state := by
  intro trace
  induction trace with
  | nil => exact fun _ => nofun
  | cons head trace ih =>
      rintro clock rec hwrites ⟨event, hmem, hne⟩
      have htail : ∀ event ∈ trace, ∀ s ∈ event.1.stateWritten, s = state :=
        fun e he => hwrites e (List.mem_cons_of_mem _ he)
      cases hhead : head.1.stateWritten with
      | none =>
          refine ih htail ⟨event, ?_, hne⟩
          rcases List.mem_cons.mp hmem with rfl | hmem
          · exact absurd hhead hne
          · exact hmem
      | some s =>
          have hstate : (rec.reported (clock 0) head.1).state = state := by
            rw [reported_state, hhead]
            exact hwrites head List.mem_cons_self s hhead
          exact (recordAfter_kept hstate htail).1

/-- How the record of a failed run is entered again. -/
structure Reentered (random : ℕ) (rec rec' : SwapRecord) (delay : ℕ) : Prop where
  counted : rec'.retryCount = Word.saturatingAdd 32 rec.retryCount 1
  state : rec'.state = rec.state
  resume : rec'.resume = rec.resume
  requiredConfirmations : rec'.requiredConfirmations = rec.requiredConfirmations
  delayed : delay = backoff random rec'.retryCount
  owed : rec'.fundsAtRisk = true ∨ rec'.retryCount < maxDriverRetries

/-- A failed run that is tried again leaves a record to enter again: one more failure counted,
and what the driver resumes from as it was. -/
theorem reentered_of_finishDriverRun {rec rec' : SwapRecord} {unix random delay : ℕ}
    {e : DriverError} (h : rec.finishDriverRun unix random (.error e) = (rec', some delay)) :
    Reentered random rec rec' delay := by
  unfold finishDriverRun at h
  dsimp only at h
  split at h
  · rename_i rec₁ delay₁ hfailure
    obtain ⟨rfl, hdelay⟩ := Prod.mk.inj h
    cases hdelay
    simp only [recordFailure, afterFailure, updated] at hfailure
    obtain ⟨rfl, hretry⟩ := Prod.mk.inj hfailure
    refine ⟨rfl, rfl, rfl, rfl, ?_, ?_⟩
    · split at hretry
      · exact (Recovery.retry.inj hretry).symm
      · split at hretry
        · exact (Recovery.retry.inj hretry).symm
        · cases hretry
    · split at hretry
      · exact .inl ‹_›
      · split at hretry
        · rename_i hretries
          exact .inr hretries.2
        · cases hretry
  · cases (Prod.mk.inj h).2

end SwapRecord

/-! ## A driver that is entered again and again -/

section

variable [Crypto]

/-- The reverse driver, resumed with a record. -/
def reverseRun (swap : ReverseSwap) (poll : ℕ) (rec : SwapRecord) (fuel : ℕ) :
    Driver DriverError SwapState :=
  driveReverseSwap swap rec.requiredConfirmations poll rec.resume fuel

/-- The submarine driver, resumed with a record. -/
def submarineRun (swap : SubmarineSwap) (poll : ℕ) (rec : SwapRecord) (fuel : ℕ) :
    Driver DriverError SwapState :=
  driveSubmarineSwap swap rec.requiredConfirmations poll rec.resume
    rec.invoicePayStartedAtUnix.isSome fuel

end

/-- This call is in the trace. -/
def Calls (trace : List Event) (op : Op) : Prop := ∃ event ∈ trace, event.1 = op

/-- **A stuck swap**: its driver fails on every record that the failure before has left. -/
structure Reentry (drive : SwapRecord → ℕ → Driver DriverError SwapState) where
  records : ℕ → SwapRecord
  traces : ℕ → List Event
  errors : ℕ → DriverError
  delays : ℕ → ℕ
  clocks : ℕ → ℕ → ℕ
  runs : ∀ k, ∃ fuel, Run (drive (records k) fuel) (traces k) (.failed (errors k))
  reenters : ∀ k, ∃ unix random,
    ((records k).recordAfter (clocks k) (traces k)).finishDriverRun unix random
      (.error (errors k)) = (records (k + 1), some (delays k))

namespace Reentry

variable {drive : SwapRecord → ℕ → Driver DriverError SwapState} (r : Reentry drive) {k : ℕ}

/-- The next run's record comes from what the reports of this run have made of its own. -/
theorem reentered (k : ℕ) : ∃ random, SwapRecord.Reentered random
    ((r.records k).recordAfter (r.clocks k) (r.traces k)) (r.records (k + 1)) (r.delays k) := by
  obtain ⟨unix, random, h⟩ := r.reenters k
  exact ⟨random, SwapRecord.reentered_of_finishDriverRun h⟩

/-- A failure has been counted. -/
theorem retryCount_pos (k : ℕ) : 0 < (r.records (k + 1)).retryCount := by
  obtain ⟨random, h⟩ := r.reentered k
  rw [h.counted, Word.saturatingAdd, Word.maxValue]
  omega

/-- The count saturates at the largest 32-bit number. -/
theorem retryCount_le (k : ℕ) : (r.records (k + 1)).retryCount ≤ Word.maxValue 32 := by
  obtain ⟨random, h⟩ := r.reentered k
  rw [h.counted]
  exact Word.saturatingAdd_le_maxValue 32 _ 1

/-- The runs from some point on write no state but this one. -/
def WritesFrom (state : SwapState) (start : ℕ) : Prop :=
  ∀ k, start ≤ k → ∀ event ∈ r.traces k, ∀ s ∈ event.1.stateWritten, s = state

variable {r}

/-- A run on a record in a state, that writes no other. -/
theorem counted_of_writes {state : SwapState} (hstate : (r.records k).state = state)
    (hwrites : ∀ event ∈ r.traces k, ∀ s ∈ event.1.stateWritten, s = state) :
    (r.records (k + 1)).state = state ∧
      (r.records (k + 1)).retryCount = Word.saturatingAdd 32 (r.records k).retryCount 1 := by
  obtain ⟨random, h⟩ := r.reentered k
  have hkept : ((r.records k).recordAfter (r.clocks k) (r.traces k)).state = state ∧
      ((r.records k).recordAfter (r.clocks k) (r.traces k)).retryCount =
        (r.records k).retryCount := SwapRecord.recordAfter_kept hstate hwrites
  rw [h.state, h.counted, hkept.2]
  exact ⟨hkept.1, rfl⟩

/-- **One state is written**: from some run on every failure is counted. -/
theorem WritesFrom.eventually_counted {state : SwapState} {start : ℕ}
    (h : r.WritesFrom state start) : ∃ settled, ∀ k, settled ≤ k →
      (r.records (k + 1)).retryCount = Word.saturatingAdd 32 (r.records k).retryCount 1 := by
  by_cases hreached : ∃ k, start ≤ k ∧ (r.records k).state = state
  · obtain ⟨k₀, hk₀, hstate₀⟩ := hreached
    have hstays : ∀ k, k₀ ≤ k → (r.records k).state = state := by
      intro k hk
      induction k, hk using Nat.le_induction with
      | base => exact hstate₀
      | succ k hk ih => exact (counted_of_writes ih (h k (hk₀.trans hk))).1
    exact ⟨k₀, fun k hk => (counted_of_writes (hstays k hk) (h k (hk₀.trans hk))).2⟩
  · refine ⟨start, fun k hk => ?_⟩
    -- A report that writes the state would leave the record in it.
    have hnone : ∀ event ∈ r.traces k, event.1.stateWritten = none := by
      intro event hmem
      by_contra hwritten
      obtain ⟨random, hre⟩ := r.reentered k
      refine hreached ⟨k + 1, hk.trans (Nat.le_succ k), hre.state.trans ?_⟩
      exact SwapRecord.recordAfter_state (h k hk) ⟨event, hmem, hwritten⟩
    refine (counted_of_writes rfl fun event hmem s hs => ?_).2
    rw [hnone event hmem] at hs
    cases hs

/-- **A swap whose runs write one state needs an operator** after finitely many of them. -/
theorem WritesFrom.needsRecovery {state : SwapState} {start : ℕ}
    (h : r.WritesFrom state start) : ∃ n, PubkySwap.needsRecovery (r.records n) = true := by
  obtain ⟨settled, hcounted⟩ := h.eventually_counted
  have hclimbs : ∀ n, n ≤ maxDriverRetries → n ≤ (r.records (settled + n)).retryCount := by
    intro n
    induction n with
    | zero => exact fun _ => Nat.zero_le _
    | succ n ih =>
        intro hle
        have hn := ih (Nat.le_of_succ_le hle)
        rw [← Nat.add_assoc, hcounted _ (Nat.le_add_right _ _), Word.saturatingAdd, Word.maxValue]
        unfold maxDriverRetries at hle
        omega
  have hmany : maxDriverRetries ≤ (r.records (settled + 9 + 1)).retryCount := hclimbs 10 le_rfl
  obtain ⟨random, hre⟩ := r.reentered (settled + 9)
  refine ⟨settled + 9 + 1, ?_⟩
  rw [PubkySwap.needsRecovery, Bool.and_eq_true]
  exact ⟨hre.owed.resolve_right (Nat.not_lt.mpr hmany), decide_eq_true hmany⟩

/-! ### What stays on record -/

/-- The asked depth is the same in every run. -/
theorem requiredConfirmations_succ (r : Reentry drive) (k : ℕ) :
    (r.records (k + 1)).requiredConfirmations = (r.records k).requiredConfirmations := by
  obtain ⟨random, h⟩ := r.reentered k
  refine h.requiredConfirmations.trans ?_
  exact SwapRecord.recordAfter_keeps
    (P := fun rec => rec.requiredConfirmations = (r.records k).requiredConfirmations)
    (fun rec unix event _ hrec => (rec.reported_requiredConfirmations unix event.1).trans hrec) rfl

/-- The height at which a reorganisation was seen is the same in every run. -/
theorem reorgSeenAtHeight_succ (r : Reentry drive) (k : ℕ) :
    (r.records (k + 1)).resume.reorgSeenAtHeight = (r.records k).resume.reorgSeenAtHeight := by
  obtain ⟨random, h⟩ := r.reentered k
  rw [h.resume]
  exact SwapRecord.recordAfter_keeps
    (P := fun rec => rec.reorgSeenAtHeight = (r.records k).reorgSeenAtHeight)
    (fun rec unix event _ hrec => (rec.reported_reorgSeenAtHeight unix event.1).trans hrec) rfl

/-- The funding outpoint is one that is reported, or the one before. -/
theorem funding_succ (hnone : ∀ outpoint, ¬Calls (r.traces k) (.funded outpoint)) :
    (r.records (k + 1)).resume.funding = (r.records k).resume.funding := by
  obtain ⟨random, h⟩ := r.reentered k
  rw [h.resume]
  refine SwapRecord.recordAfter_keeps
    (P := fun rec => rec.fundingOutpoint = (r.records k).fundingOutpoint) ?_ rfl
  intro rec unix event hmem hrec
  rw [rec.reported_fundingOutpoint unix fun outpoint hop => hnone outpoint ⟨event, hmem, hop⟩, hrec]

/-- A recorded funding outpoint is not forgotten. -/
theorem isSome_reported {rec : SwapRecord} (unix : ℕ) (op : Op)
    (h : rec.fundingOutpoint.isSome = true) :
    (rec.reported unix op).fundingOutpoint.isSome = true := by
  by_cases hop : ∃ outpoint, op = .funded outpoint
  · obtain ⟨outpoint, rfl⟩ := hop
    rw [SwapRecord.reported_funded]
    rfl
  · rw [rec.reported_fundingOutpoint unix fun outpoint h => hop ⟨outpoint, h⟩]
    exact h

/-- A recorded funding is on record in the next run too. -/
theorem isSome_of_funding (h : (r.records k).resume.funding.isSome = true) :
    (r.records (k + 1)).resume.funding.isSome = true := by
  obtain ⟨random, hre⟩ := r.reentered k
  rw [hre.resume]
  exact SwapRecord.recordAfter_keeps (P := fun rec => rec.fundingOutpoint.isSome = true)
    (fun rec unix event _ hrec => isSome_reported unix event.1 hrec) h

/-- A funding reported in one run is on record in the next. -/
theorem isSome_of_funded {outpoint : OutPoint} (h : Calls (r.traces k) (.funded outpoint)) :
    (r.records (k + 1)).resume.funding.isSome = true := by
  obtain ⟨event, hmem, hop⟩ := h
  obtain ⟨random, hre⟩ := r.reentered k
  rw [hre.resume]
  refine SwapRecord.recordAfter_reaches (P := fun rec => rec.fundingOutpoint.isSome = true)
    (fun rec unix op hrec => isSome_reported unix op hrec) (fun rec unix => ?_) hmem
  rw [hop, SwapRecord.reported_funded]
  rfl

/-- Once recorded, from there on. -/
theorem funding_isSome_of_le {j k : ℕ} (h : (r.records j).resume.funding.isSome = true)
    (hle : j ≤ k) : (r.records k).resume.funding.isSome = true := by
  induction k, hle using Nat.le_induction with
  | base => exact h
  | succ k _ ih => exact isSome_of_funding ih

/-- A record that says a funding may exist says so after every report. -/
theorem marked_reported {rec : SwapRecord} (unix : ℕ) (op : Op) (h : rec.resume.marked = true) :
    (rec.reported unix op).resume.marked = true := by
  simp only [Resume.marked, SwapRecord.resume, Bool.or_eq_true] at h ⊢
  by_cases hfunded : ∃ outpoint, op = .funded outpoint
  · obtain ⟨outpoint, rfl⟩ := hfunded
    rw [SwapRecord.reported_funded]
    exact .inl rfl
  · refine h.imp (fun h => isSome_reported unix op h) fun h => ?_
    by_cases hintent : ∃ tip, op = .fundingIntent tip
    · obtain ⟨tip, rfl⟩ := hintent
      rw [SwapRecord.reported_fundingIntent]
      rfl
    · rw [rec.reported_fundingIntentAtHeight unix (fun tip h => hintent ⟨tip, h⟩)
        fun outpoint h => hfunded ⟨outpoint, h⟩]
      exact h

/-- A record that intends a funding stays marked. -/
theorem marked_of_fundingIntent {tip j : ℕ} (h : Calls (r.traces j) (.fundingIntent tip))
    (hlt : j < k) : (r.records k).resume.marked = true := by
  induction k, hlt using Nat.le_induction with
  | base =>
      obtain ⟨event, hmem, hop⟩ := h
      obtain ⟨random, hre⟩ := r.reentered j
      rw [hre.resume]
      refine SwapRecord.recordAfter_reaches (P := fun rec => rec.resume.marked = true)
        (fun rec unix op hrec => marked_reported unix op hrec) (fun rec unix => ?_) hmem
      rw [hop, Resume.marked, Bool.or_eq_true]
      exact .inr (by rw [SwapRecord.resume, SwapRecord.reported_fundingIntent]; rfl)
  | succ k _ ih =>
      obtain ⟨random, hre⟩ := r.reentered k
      rw [hre.resume]
      exact SwapRecord.recordAfter_keeps (P := fun rec => rec.resume.marked = true)
        (fun rec unix event _ hrec => marked_reported unix event.1 hrec) ih

/-- A payment recorded as started stays so through every report. -/
theorem started_reported {rec : SwapRecord} (unix : ℕ) (op : Op)
    (h : rec.invoicePayStartedAtUnix.isSome = true) :
    (rec.reported unix op).invoicePayStartedAtUnix.isSome = true := by
  by_cases hop : op = .invoicePayStarted
  · subst hop
    rw [SwapRecord.reported_invoicePayStarted]
    rfl
  · rw [rec.reported_invoicePayStartedAtUnix unix hop]
    exact h

/-- A record that has started a payment stays so. -/
theorem started_of_invoicePayStarted {j : ℕ} (h : Calls (r.traces j) .invoicePayStarted)
    (hlt : j < k) : (r.records k).resume.invoicePayStartedAtUnix.isSome = true := by
  induction k, hlt using Nat.le_induction with
  | base =>
      obtain ⟨event, hmem, hop⟩ := h
      obtain ⟨random, hre⟩ := r.reentered j
      rw [hre.resume]
      refine SwapRecord.recordAfter_reaches
        (P := fun rec => rec.invoicePayStartedAtUnix.isSome = true)
        (fun rec unix op hrec => started_reported unix op hrec) (fun rec unix => ?_) hmem
      rw [hop, SwapRecord.reported_invoicePayStarted]
      rfl
  | succ k _ ih =>
      obtain ⟨random, hre⟩ := r.reentered k
      rw [hre.resume]
      exact SwapRecord.recordAfter_keeps (P := fun rec => rec.invoicePayStartedAtUnix.isSome = true)
        (fun rec unix event _ hrec => started_reported unix event.1 hrec) ih

end Reentry

/-! ## What the reverse driver reports -/

/-- The calls of a reverse driver resumed with a record: its first two kinds of report are
made only on a record without their marks, unless it carries a reorg. -/
def Resume.FundsOnce (resume : Resume) : Op → Prop
  | .fundingIntent _ => resume.marked = false
  | .funded _ => resume.funding = none ∨ resume.reorgSeenAtHeight.isSome = true
  | .invoicePayStarted | .invoicePaid => False
  | _ => True

section

variable [Crypto] {swap : ReverseSwap} {resume : Resume} {outpoint : OutPoint}
  {requiredConfirmations poll fuel : ℕ} {trace : List Event} {e : DriverError}

/-- **What the reverse driver reports.** -/
theorem fundsOnce_driveReverseSwap :
    OnlyCalls resume.FundsOnce
      (driveReverseSwap swap requiredConfirmations poll resume fuel) := by
  refine OnlyCalls.bind (fun ended => ?_)
    (calls_awaitAcceptance.mono fun op hop => by cases op <;> trivial)
  cases ended with
  | some state => trivial
  | none =>
      refine OnlyCalls.bind (fun outcome => ?_)
        (calls_establishFunding.mono fun op hop => by cases op <;> trivial)
      cases outcome with
      | refused state => trivial
      | funded outpoint => exact calls_watchFunded.mono fun op hop => by cases op <;> trivial

/-- The output is among these at depth. -/
def AtDepth (requiredConfirmations : ℕ) (outpoint : OutPoint) (outputs : List FundingUtxo) :
    Prop :=
  ∃ u ∈ outputs, u.outpoint = outpoint ∧ requiredConfirmations ≤ u.confirmations

/-- The exchange after the look at the outputs: a search for the funding, and nothing that
reports one. -/
def SoughtIn (swap : ReverseSwap) (poll : ℕ) (sought rest : List Event) : Prop :=
  (∃ fuel ending, ending ≠ .unfinished ∧ Run (awaitRecordedFunding swap poll fuel) sought ending) ∧
    ∃ after, rest = sought ++ after ∧ ∀ event ∈ after, ∀ outpoint, event.1 ≠ .funded outpoint

/-- **A run on a record that carries a reorg** looks for the recorded output first, and for
the funding if that is not at depth. -/
theorem run_of_reorg (hfunding : resume.funding = some outpoint)
    (hreorg : resume.reorgSeenAtHeight.isSome = true)
    (hrun : Run (driveReverseSwap swap requiredConfirmations poll resume fuel) trace (.failed e)) :
    ∃ answer rest, trace = ⟨.findOutputs swap.htlcSpk, answer⟩ :: rest ∧
      ((∀ event ∈ rest, ∀ outpoint, event.1 ≠ .funded outpoint) ∧
          (∀ outputs, answer = .ok outputs → AtDepth requiredConfirmations outpoint outputs) ∨
        (∃ outputs, answer = .ok outputs ∧ ¬AtDepth requiredConfirmations outpoint outputs) ∧
          ∃ sought, SoughtIn swap poll sought rest) := by
  have hwatches (found : OutPoint) {rest : List Event}
      (hrest : Run (watchFunded swap resume found requiredConfirmations poll fuel) rest
        (.failed e)) : ∀ event ∈ rest, ∀ outpoint, event.1 ≠ .funded outpoint := by
    intro event hmem outpoint hop
    have hcall := hrest.calls calls_watchFunded event hmem
    rw [hop] at hcall
    cases hcall
  obtain ⟨height, hheight⟩ := Option.isSome_iff_exists.mp hreorg
  unfold driveReverseSwap driveReverseSwapOver awaitAcceptance establishFunding at hrun
  rw [hfunding, hheight, if_pos (.inl rfl)] at hrun
  cases hrun with
  | call op answer hrun =>
      refine ⟨answer, _, rfl, ?_⟩
      cases answer with
      | error err =>
          cases hrun with
          | throw => exact .inl ⟨nofun, nofun⟩
      | ok outputs =>
          have hany : (outputs.any fun u =>
              u.outpoint = outpoint ∧ requiredConfirmations ≤ u.confirmations) = true ↔
                AtDepth requiredConfirmations outpoint outputs := by
            simp only [List.any_eq_true, decide_eq_true_eq, AtDepth]
          change Run (Program.bind (if _ then _ else _) _) _ _ at hrun
          by_cases hdepth : AtDepth requiredConfirmations outpoint outputs
          · rw [if_pos (hany.mpr hdepth)] at hrun
            exact .inl ⟨hwatches outpoint hrun, fun _ h => Except.ok.inj h ▸ hdepth⟩
          · rw [if_neg fun h => hdepth (hany.mp h)] at hrun
            refine .inr ⟨⟨outputs, rfl, hdepth⟩, ?_⟩
            have hended : (.failed e : Ending DriverError SwapState) ≠ .unfinished := nofun
            rcases Run.of_bind hended hrun with
              ⟨sought, after, found, rfl, hsought, hafter⟩ | ⟨e', -, hsought⟩
            · cases found with
              | refused state => cases hafter
              | funded found =>
                  exact ⟨sought, ⟨fuel, .returned _, nofun, hsought⟩, after, rfl,
                    hwatches found hafter⟩
            · exact ⟨_, ⟨fuel, .failed e', nofun, hsought⟩, [], (List.append_nil _).symm, nofun⟩

end

/-! ## What the submarine driver reports -/

/-- The calls of a submarine driver resumed with a record. -/
def Resume.PaysOnce (resume : Resume) (alreadyAttempted : Bool) : Op → Prop
  | .funded _ => resume.funding = none
  | .invoicePayStarted => ¬(resume.funding.isSome ∧ alreadyAttempted)
  | .fundingIntent _ | .claimObserved _ => False
  | _ => True

section

variable [Crypto] {swap : SubmarineSwap} {resume : Resume} {requiredConfirmations poll fuel : ℕ}
  {alreadyAttempted : Bool} {trace : List Event} {e : DriverError}

/-- **What the submarine driver reports.** -/
theorem paysOnce_driveSubmarineSwap :
    OnlyCalls (resume.PaysOnce alreadyAttempted)
      (driveSubmarineSwap swap requiredConfirmations poll resume alreadyAttempted fuel) := by
  refine OnlyCalls.bind (fun located => ?_)
    (calls_locateFunding.mono fun op hop => by cases op <;> trivial)
  cases located with
  | inl state => trivial
  | inr outpoint =>
      refine OnlyCalls.bind (fun measured => ?_)
        (calls_measureFunding.mono fun op hop => by cases op <;> trivial)
      cases measured with
      | inl state => trivial
      | inr fundingValueSat =>
          refine OnlyCalls.bind (fun paid => ?_)
            (calls_obtainPayment.mono fun op hop => by cases op <;> trivial)
          cases paid with
          | inl state => trivial
          | inr payment =>
              dsimp only
              split
              · trivial
              · exact calls_claimFunded.mono fun op hop => by cases op <;> trivial

/-- A payment is started only for a funding that is on record or has been reported. -/
theorem pinned_of_invoicePayStarted
    (hrun : Run (driveSubmarineSwap swap requiredConfirmations poll resume alreadyAttempted fuel)
      trace (.failed e)) {event : Event} (hmem : event ∈ trace)
    (hstarted : event.1 = .invoicePayStarted) : ∃ outpoint, Pinned resume trace outpoint := by
  have hlocate {first : List Event} {ending : Ending DriverError (SwapState ⊕ OutPoint)}
      (hfirst : Run (locateFunding swap resume requiredConfirmations poll fuel) first ending) :
      event ∉ first := by
    intro hfirst'
    have hcall := hfirst.calls calls_locateFunding event hfirst'
    rw [hstarted] at hcall
    exact hcall
  have hended : (.failed e : Ending DriverError SwapState) ≠ .unfinished := nofun
  rcases Run.of_bind hended hrun with ⟨first, rest, located, rfl, hfirst, hrest⟩ | ⟨e', -, hfirst⟩
  · cases located with
    | inl state =>
        cases hrest
    | inr outpoint =>
        obtain ⟨-, hpinned⟩ := (hfirst.sound (locateFunding_sound fuel)).2
        refine ⟨outpoint, hpinned.imp_right fun h => List.mem_append_left _ ?_⟩
        rwa [List.nil_append] at h
  · exact absurd hmem (hlocate hfirst)

end

end PubkySwap
