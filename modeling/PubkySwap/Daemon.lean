import PubkySwap.Progress

/-!
# The runs of a swap's driver

The provider's daemon keeps one record of a swap on disk, and while the swap is driven a
second one in memory: `StoreProgress` writes each report of the driver down in its own copy
and puts the whole copy on disk.  A run is started on the record from the disk, or, when the
run before it has handed back, on the copy (`finish_driver_run`).  The reorg monitor writes
its mark on the disk alone, at any moment.

A put that returns is durable.  One that fails may have reached the disk all the same; the
two reports before something irreversible hand the failure to the driver.  The process may
die anywhere, also in the middle of a call.
-/

namespace PubkySwap

/-! ## Writes to the store -/

/-- How a put ends. -/
inductive Put where
  | landed
  /-- With an error, the record having reached the disk or not. -/
  | failed (e : String) (reached : Bool)

def Put.reaches : Put → Bool
  | .landed => true
  | .failed _ reached => reached

/-- What `try_update` returns. -/
def Put.result (what : String) : Put → Except String Unit
  | .landed => .ok ()
  | .failed e _ => .error ("could not persist " ++ what ++ ": " ++ e)

/-- What a put leaves on disk. -/
def SwapRecord.putOver (rec disk : SwapRecord) (unix : ℕ) (put : Put) : SwapRecord :=
  if put.reaches then rec.stamped (some disk) unix else disk

/-- The mark that `react_to_reorg` leaves. -/
def SwapRecord.markReorg (rec : SwapRecord) (fork unix : ℕ) : SwapRecord :=
  { rec with
    reorgSeenAtHeight := some (match rec.reorgSeenAtHeight with
      | some seen => min seen fork
      | none => fork)
    updatedAtUnix := unix }

/-- The calls that write the record. -/
def Op.writes : Op → Bool
  | .fundingIntent _ | .funded _ | .invoicePayStarted | .invoicePaid | .claimObserved _
  | .spendBroadcast _ | .claimable _ => true
  | _ => false

/-- The answer to a call; the sink answers the two reports that may fail. -/
def Put.reply (put : Put) : (op : Op) → Ans op → Ans op
  | .fundingIntent _, _ => put.result "funding intent"
  | .invoicePayStarted, _ => put.result "invoice payment intent"
  | _, answer => answer

/-! ## Runs -/

/-- A run of a swap's driver: the record it was started on, the copy of `StoreProgress`, what
has been exchanged, and what is left to do. -/
structure DriverTask where
  start : SwapRecord
  copy : SwapRecord
  trace : List Event
  left : Driver DriverError SwapState
  /-- The next call has been made and is not answered yet. -/
  asked : Bool

/-- A call that a run has made: the record the run was started on, and what had been
exchanged. -/
structure Asked where
  start : SwapRecord
  before : List Event
  op : Op

/-- The daemon, as far as one swap goes. -/
structure Daemon where
  disk : SwapRecord
  task : Option DriverTask := none
  /-- The records that runs were started on, in order. -/
  starts : List SwapRecord := []
  /-- The calls that runs have made, in order. -/
  asks : List Asked := []

inductive DaemonEvent where
  /-- The swap is taken up from the disk. -/
  | begin (fuel : ℕ)
  /-- The driver makes its next call. -/
  | ask
  | answer (answers : (op : Op) → Ans op) (unix : ℕ) (put : Put)
  /-- `note_funding_fee`. -/
  | noteFee (unix : ℕ) (put : Put)
  /-- `finish_driver_run`, which writes twice when it gives up; `respawned` says whether the
  record could be made into a swap again. -/
  | finish (unix random fuel : ℕ) (put last : Put) (respawned : Bool)
  /-- `react_to_reorg`. -/
  | mark (fork unix : ℕ) (put : Put)
  | crash (unix : ℕ) (reached : Bool)

namespace Daemon

variable (drive : SwapRecord → ℕ → Driver DriverError SwapState)

/-- A run is started. -/
def spawn (rec : SwapRecord) (fuel : ℕ) (daemon : Daemon) : Daemon :=
  { daemon with
    task := some ⟨rec, rec, [], drive rec fuel, false⟩
    starts := daemon.starts ++ [rec] }

/-- Only a swap that is not over is taken up. -/
def begin (fuel : ℕ) (daemon : Daemon) : Daemon :=
  match daemon.task with
  | some _ => daemon
  | none => if daemon.disk.state.isTerminal then daemon else daemon.spawn drive daemon.disk fuel

def ask (daemon : Daemon) : Daemon :=
  match daemon.task with
  | none => daemon
  | some task =>
      match task.left, task.asked with
      | .call op _, false =>
          { daemon with
            task := some { task with asked := true }
            asks := daemon.asks ++ [⟨task.start, task.trace, op⟩] }
      | _, _ => daemon

/-- The disk after the copy has been written for a call. -/
def writtenFor (op : Op) (copy disk : SwapRecord) (unix : ℕ) (put : Put) : SwapRecord :=
  if op.writes then copy.putOver disk unix put else disk

def answer (answers : (op : Op) → Ans op) (unix : ℕ) (put : Put) (daemon : Daemon) : Daemon :=
  match daemon.task with
  | none => daemon
  | some task =>
      match task.left, task.asked with
      | .call op next, true =>
          let answer := put.reply op (answers op)
          let copy := task.copy.reported unix op
          { daemon with
            disk := writtenFor op copy daemon.disk unix put
            task := some
              { task with
                copy := copy
                trace := task.trace ++ [⟨op, answer⟩]
                left := next answer
                asked := false } }
      | _, _ => daemon

/-- What the driver has returned. -/
def ending : Driver DriverError SwapState → Option (Except DriverError SwapState)
  | .pure state => some (.ok state)
  | .throw e => some (.error e)
  | .halt | .call .. => none

/-- The fee itself is nothing that a run reads. -/
def noteFee (unix : ℕ) (put : Put) (daemon : Daemon) : Daemon :=
  match daemon.task with
  | none => daemon
  | some task =>
      match ending task.left with
      | some (.ok _) =>
          let copy := task.copy.updated unix id
          { daemon with
            disk := copy.putOver daemon.disk unix put
            task := some { task with copy := copy } }
      | _ => daemon

/-- The disk after `finish_driver_run`. -/
def finished (unix random : ℕ) (put last : Put) (copy disk : SwapRecord)
    (result : Except DriverError SwapState) : SwapRecord :=
  let (final, next) := copy.finishDriverRun unix random result
  match result, next with
  | .ok _, _ => final.putOver disk unix put
  | .error _, some _ => final.putOver disk unix put
  | .error e, none =>
      let failed := (copy.recordFailure unix random e e.isTransient).1
      final.putOver (failed.putOver disk unix put) unix last

def finish (unix random fuel : ℕ) (put last : Put) (respawned : Bool) (daemon : Daemon) :
    Daemon :=
  match daemon.task with
  | none => daemon
  | some task =>
      match ending task.left with
      | none => daemon
      | some result =>
          let daemon :=
            { daemon with
              disk := finished unix random put last task.copy daemon.disk result
              task := none }
          match task.copy.finishDriverRun unix random result with
          | (rec, some _) => if respawned then daemon.spawn drive rec fuel else daemon
          | (_, none) => daemon

def mark (fork unix : ℕ) (put : Put) (daemon : Daemon) : Daemon :=
  if daemon.disk.state.isTerminal then daemon
  else { daemon with disk := (daemon.disk.markReorg fork unix).putOver daemon.disk unix put }

/-- The process dies; the call it is in may have written the record. -/
def crash (unix : ℕ) (reached : Bool) (daemon : Daemon) : Daemon :=
  match daemon.task with
  | none => daemon
  | some task =>
      match task.left, task.asked with
      | .call op _, true =>
          { daemon with
            disk := writtenFor op (task.copy.reported unix op) daemon.disk unix
              (.failed "" reached)
            task := none }
      | _, _ => { daemon with task := none }

def step (daemon : Daemon) : DaemonEvent → Daemon
  | .begin fuel => daemon.begin drive fuel
  | .ask => daemon.ask
  | .answer answers unix put => daemon.answer answers unix put
  | .noteFee unix put => daemon.noteFee unix put
  | .finish unix random fuel put last respawned =>
      daemon.finish drive unix random fuel put last respawned
  | .mark fork unix put => daemon.mark fork unix put
  | .crash unix reached => daemon.crash unix reached

def run (events : List DaemonEvent) (daemon : Daemon) : Daemon :=
  events.foldl (step drive) daemon

end Daemon

end PubkySwap
