import PubkySwap.Environment
import PubkySwap.Lib.Word
import PubkySwap.Record

/-!
# What a run leaves on record

While a driver runs, `StoreProgress` writes its reports down in the swap's record
(`SwapRecord.reported`); a write that moves the state is progress, and clears what the
record says about failures.  Once the run is over, `finishDriverRun` writes its result and
decides whether the driver is entered again.  A run that failed counts against the swap:
one with nothing committed is given up on after `maxDriverRetries` failures, and one whose
funds are at risk is entered again for ever, after delays that grow up to `backoffMax`.

The clock is read once for each write.
-/

namespace PubkySwap

/-! ## The retry schedule -/

/-- `MAX_DRIVER_RETRIES`. -/
def maxDriverRetries : ℕ := 10

/-- `BACKOFF_BASE`. -/
def backoffBase : ℕ := durationFromSecs 2

/-- `BACKOFF_MAX`. -/
def backoffMax : ℕ := durationFromSecs 300

/-- `Duration::from_millis`, in nanoseconds. -/
def durationFromMillis (millis : ℕ) : ℕ := millis * 1000000

/-- `jitter`: a delay spread over a quarter of itself either way, by a random number. -/
def jitter (random delay : ℕ) : ℕ :=
  let millis := delay / 1000000
  let spread := millis / 4
  if spread = 0 then delay
  else durationFromMillis (millis - spread + random % (spread * 2 + 1))

/-- `backoff`: the delay before an attempt, of which the first re-entry is number one. -/
def backoff (random attempt : ℕ) : ℕ :=
  let doublings := min (attempt - 1) 16
  let base := min (backoffBase * 2 ^ doublings) backoffMax
  min (jitter random base) backoffMax

/-- `Recovery`: what a failed run earns. -/
inductive Recovery where
  | retry (delay : ℕ)
  | giveUp
  deriving DecidableEq, Repr

/-- `after_failure`, of a record that has counted the failure. -/
def afterFailure (random : ℕ) (rec : SwapRecord) (transient : Bool) : Recovery :=
  -- Committed funds outrank the classification of the error.
  if rec.fundsAtRisk then .retry (backoff random rec.retryCount)
  else if transient ∧ rec.retryCount < maxDriverRetries then
    .retry (backoff random rec.retryCount)
  else .giveUp

/-- `needs_recovery`. -/
def needsRecovery (rec : SwapRecord) : Bool :=
  rec.fundsAtRisk && maxDriverRetries ≤ rec.retryCount

/-- A longer run of failures waits longer, until the delay is near its maximum. -/
theorem backoff_lt_backoff_succ (random random' : ℕ) {attempt : ℕ} (hpos : 0 < attempt)
    (hlt : attempt < 8) : backoff random attempt < backoff random' (attempt + 1) := by
  unfold backoff jitter backoffBase backoffMax durationFromSecs durationFromMillis
  interval_cases attempt <;> norm_num <;> omega

/-! ## The writes -/

namespace SwapRecord

/-- `update`: a write, and progress if it moves the state. -/
def updated (rec : SwapRecord) (unix : ℕ) (f : SwapRecord → SwapRecord) : SwapRecord :=
  let written := f rec
  let kept := if written.state = rec.state then written else written.progressed
  { kept with updatedAtUnix := unix }

/-- What a report to the sink writes; no other call writes anything. -/
def reported (rec : SwapRecord) (unix : ℕ) : Op → SwapRecord
  | .fundingIntent tip => rec.updated unix fun rec =>
      { rec with
        fundingIntentAtHeight := some tip
        fundingAttempts := Word.saturatingAdd 32 rec.fundingAttempts 1
        state := .lockupPending }
  | .funded outpoint => rec.updated unix fun rec =>
      { rec with
        fundingTxid := some outpoint.txid
        fundingVout := some outpoint.vout
        fundingIntentAtHeight := none
        state := .lockupConfirmed }
  | .invoicePayStarted => rec.updated unix fun rec =>
      { rec with invoicePayStartedAtUnix := some unix, state := .invoicePending }
  | .invoicePaid => rec.updated unix fun rec => { rec with state := .invoicePaid }
  | .claimObserved txid => rec.updated unix fun rec =>
      { rec with claimObservedTxid := some txid, state := .invoicePaid }
  -- A claim and a refund alike, so the state stays.
  | .spendBroadcast txid => rec.updated unix fun rec => rec.noteOurSpend txid
  | .claimable _ => rec.updated unix fun rec => { rec with claimableAtUnix := some unix }
  | _ => rec

/-- The record after the reports of a trace, the clock being read by position. -/
def recordAfter (clock : ℕ → ℕ) (rec : SwapRecord) : List Event → SwapRecord
  | [] => rec
  | event :: trace =>
      recordAfter (fun i => clock (i + 1)) (rec.reported (clock 0) event.1) trace

/-- `set_terminal`. -/
def terminal (rec : SwapRecord) (unix : ℕ) (state : SwapState) : SwapRecord :=
  { { rec with state := state }.progressed with updatedAtUnix := unix }

/-- `record_failure`. -/
def recordFailure (rec : SwapRecord) (unix random : ℕ) (e : DriverError) (transient : Bool) :
    SwapRecord × Recovery :=
  let counted := { rec with
    lastError := some e.display
    retryCount := Word.saturatingAdd 32 rec.retryCount 1 }
  let recovery := afterFailure random counted transient
  let next := match recovery with
    | .retry delay => some (Word.saturatingAdd 64 unix (delay / 1000000000))
    | .giveUp => none
  (rec.updated unix fun _ => { counted with nextRetryAtUnix := next }, recovery)

/-- `finish_driver_run`: the record, and the delay of the re-entry if there is one. -/
def finishDriverRun (rec : SwapRecord) (unix random : ℕ) :
    Except DriverError SwapState → SwapRecord × Option ℕ
  | .ok state =>
      if state.isTerminal then (rec.terminal unix state, none)
      else (rec.updated unix fun rec => { rec with state := state }, some 0)
  | .error e =>
      match rec.recordFailure unix random e e.isTransient with
      | (rec, .retry delay) => (rec, some delay)
      | (rec, .giveUp) => (rec.terminal unix (.failed e.display), none)

/-- A swap whose funds are at risk is never given up on. -/
theorem finishDriverRun_of_fundsAtRisk {rec : SwapRecord} (h : rec.fundsAtRisk = true)
    (unix random : ℕ) (e : DriverError) :
    rec.finishDriverRun unix random (.error e) =
      ((rec.recordFailure unix random e e.isTransient).1,
        some (backoff random (Word.saturatingAdd 32 rec.retryCount 1))) := by
  have hcounted (error : Option String) (count : ℕ) :
      { rec with lastError := error, retryCount := count }.fundsAtRisk = true := h
  simp only [finishDriverRun, recordFailure, afterFailure, hcounted, if_true]

end SwapRecord

end PubkySwap
