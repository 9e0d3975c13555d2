import PubkySwap.Daemon
import PubkySwap.StuckRun

/-!
# What survives a crash

The step of the daemon is read off once (`Daemon.step_steps`): what matters of a record is
what a run is resumed with, and a step either keeps that on disk or puts there what the copy
has.

Two rules follow.  A call that must not be made twice is not, if a driver makes it only once
something is on record that keeps the next run from making it (`Daemon.made_le_one`): a
report that has been confirmed is on disk before the call.  And what every run keeps of the
record it is started on, and knows when it makes a call, holds of all runs
(`Daemon.Keeps.run`).
-/

namespace PubkySwap

open Program (Sound OnlyCalls)

/-! ## What a run is resumed with -/

/-- A run on either record is resumed alike. -/
structure SwapRecord.Alike (rec old : SwapRecord) : Prop where
  resume : rec.resume = old.resume
  requiredConfirmations : rec.requiredConfirmations = old.requiredConfirmations

namespace SwapRecord

variable {rec old : SwapRecord}

theorem Alike.refl (rec : SwapRecord) : rec.Alike rec := ⟨rfl, rfl⟩

theorem Alike.trans {older : SwapRecord} (h : rec.Alike old) (h' : old.Alike older) :
    rec.Alike older :=
  ⟨h.resume.trans h'.resume, h.requiredConfirmations.trans h'.requiredConfirmations⟩

/-- A put leaves the record that was on disk, or the one that is put there. -/
theorem putOver_alike (rec disk : SwapRecord) (unix : ℕ) (put : Put) :
    (rec.putOver disk unix put).Alike disk ∨ (rec.putOver disk unix put).Alike rec := by
  unfold putOver
  split
  · exact .inr ⟨rfl, rfl⟩
  · exact .inl ⟨rfl, rfl⟩

theorem updated_alike (rec : SwapRecord) (unix : ℕ) : (rec.updated unix id).Alike rec := by
  unfold updated
  dsimp only [id]
  split <;> exact ⟨rfl, rfl⟩

theorem recordFailure_alike (rec : SwapRecord) (unix random : ℕ) (e : DriverError)
    (transient : Bool) : (rec.recordFailure unix random e transient).1.Alike rec := by
  unfold recordFailure updated
  dsimp only
  split <;> exact ⟨rfl, rfl⟩

theorem finishDriverRun_alike (rec : SwapRecord) (unix random : ℕ)
    (result : Except DriverError SwapState) :
    (rec.finishDriverRun unix random result).1.Alike rec := by
  cases result with
  | ok state =>
      unfold finishDriverRun
      dsimp only
      split
      · exact ⟨rfl, rfl⟩
      · unfold updated
        dsimp only
        split <;> exact ⟨rfl, rfl⟩
  | error e =>
      have hfailure := rec.recordFailure_alike unix random e e.isTransient
      unfold finishDriverRun
      dsimp only
      split
      all_goals
        rename_i heq
        rw [heq] at hfailure
        exact ⟨hfailure.resume, hfailure.requiredConfirmations⟩

end SwapRecord

/-! ## Steps -/

namespace Daemon

variable {drive : SwapRecord → ℕ → Driver DriverError SwapState} {daemon : Daemon}

/-- What a step does. -/
inductive Steps (drive : SwapRecord → ℕ → Driver DriverError SwapState) (daemon : Daemon)
    (event : DaemonEvent) : Daemon → Prop
  | same : Steps drive daemon event daemon
  | begin (htask : daemon.task = none) (fuel : ℕ) :
      Steps drive daemon event (daemon.spawn drive daemon.disk fuel)
  | ask {task : DriverTask} {op : Op} {next : Ans op → Driver DriverError SwapState}
      (htask : daemon.task = some task) (hleft : task.left = .call op next)
      (hasked : task.asked = false) :
      Steps drive daemon event { daemon with
        task := some { task with asked := true }
        asks := daemon.asks ++ [⟨task.start, task.trace, op⟩] }
  | answer {task : DriverTask} {op : Op} {next : Ans op → Driver DriverError SwapState}
      (htask : daemon.task = some task) (hleft : task.left = .call op next)
      (hasked : task.asked = true) (answers : (op : Op) → Ans op) (unix : ℕ) (put : Put)
      (hevent : event = .answer answers unix put) : Steps drive daemon event { daemon with
        disk := writtenFor op (task.copy.reported unix op) daemon.disk unix put
        task := some
          { task with
            copy := task.copy.reported unix op
            trace := task.trace ++ [⟨op, put.reply op (answers op)⟩]
            left := next (put.reply op (answers op))
            asked := false } }
  | note {task : DriverTask} {state : SwapState} {copy disk : SwapRecord}
      (htask : daemon.task = some task) (hleft : task.left = .pure state)
      (hcopy : copy.Alike task.copy) (hdisk : disk.Alike daemon.disk ∨ disk.Alike task.copy) :
      Steps drive daemon event { daemon with disk := disk, task := some { task with copy := copy } }
  | ended {task : DriverTask} {disk : SwapRecord} (htask : daemon.task = some task)
      (hdisk : disk.Alike daemon.disk ∨ disk.Alike task.copy) :
      Steps drive daemon event { daemon with disk := disk, task := none }
  | handBack {task : DriverTask} {rec disk : SwapRecord} (htask : daemon.task = some task)
      (hrec : rec.Alike task.copy) (hdisk : disk.Alike daemon.disk ∨ disk.Alike task.copy)
      (fuel : ℕ) :
      Steps drive daemon event (spawn drive rec fuel { daemon with disk := disk, task := none })
  | mark (fork unix : ℕ) (put : Put) (hevent : event = .mark fork unix put) :
      Steps drive daemon event { daemon with
        disk := (daemon.disk.markReorg fork unix).putOver daemon.disk unix put }
  | die {task : DriverTask} {op : Op} {next : Ans op → Driver DriverError SwapState}
      (htask : daemon.task = some task) (hleft : task.left = .call op next)
      (hasked : task.asked = true) (unix : ℕ) (put : Put) :
      Steps drive daemon event { daemon with
        disk := writtenFor op (task.copy.reported unix op) daemon.disk unix put
        task := none }

/-- What `finish_driver_run` leaves on disk. -/
theorem finished_alike (unix random : ℕ) (put last : Put) (copy disk : SwapRecord)
    (result : Except DriverError SwapState) :
    (finished unix random put last copy disk result).Alike disk ∨
      (finished unix random put last copy disk result).Alike copy := by
  have hput : ∀ rec : SwapRecord, rec.Alike copy → ∀ (old : SwapRecord) (put : Put),
      old.Alike disk ∨ old.Alike copy →
        (rec.putOver old unix put).Alike disk ∨ (rec.putOver old unix put).Alike copy := by
    intro rec hrec old put hold
    rcases rec.putOver_alike old unix put with h | h
    · exact hold.imp h.trans h.trans
    · exact .inr (h.trans hrec)
  have hfinal := copy.finishDriverRun_alike unix random result
  unfold finished
  dsimp only
  split
  · exact hput _ hfinal _ _ (.inl (.refl disk))
  · exact hput _ hfinal _ _ (.inl (.refl disk))
  · have hfailed := copy.recordFailure_alike unix random
    exact hput _ hfinal _ _ (hput _ (hfailed _ _) _ _ (.inl (.refl disk)))

/-- **The step of the daemon**, read off. -/
theorem step_steps (drive : SwapRecord → ℕ → Driver DriverError SwapState) (daemon : Daemon)
    (event : DaemonEvent) : Steps drive daemon event (daemon.step drive event) := by
  cases event with
  | begin fuel =>
      show Steps drive daemon _ (daemon.begin drive fuel)
      unfold Daemon.begin
      split
      · exact .same
      case h_2 htask =>
          split
          · exact .same
          · exact .begin htask fuel
  | ask =>
      show Steps drive daemon _ daemon.ask
      unfold Daemon.ask
      split
      · exact .same
      case h_2 task htask =>
          split
          case h_1 op next hleft hasked => exact .ask htask hleft hasked
          case h_2 => exact .same
  | answer answers unix put =>
      show Steps drive daemon _ (daemon.answer answers unix put)
      unfold Daemon.answer
      split
      · exact .same
      case h_2 task htask =>
          split
          case h_1 op next hleft hasked => exact .answer htask hleft hasked answers unix put rfl
          case h_2 => exact .same
  | noteFee unix put =>
      show Steps drive daemon _ (daemon.noteFee unix put)
      unfold Daemon.noteFee
      split
      · exact .same
      case h_2 task htask =>
          split
          case h_1 state hending =>
            -- only a driver that has returned a state is noted
            have hleft : task.left = .pure state := by
              cases hleft : task.left <;> rw [hleft] at hending <;> cases hending
              rfl
            have hcopy := task.copy.updated_alike unix
            refine .note htask hleft hcopy ?_
            exact ((task.copy.updated unix id).putOver_alike daemon.disk unix put).imp_right
              fun h => h.trans hcopy
          case h_2 => exact .same
  | finish unix random fuel put last respawned =>
      show Steps drive daemon _ (daemon.finish drive unix random fuel put last respawned)
      unfold Daemon.finish
      split
      · exact .same
      case h_2 task htask =>
          split
          · exact .same
          case h_2 result _ =>
              have hdisk := finished_alike unix random put last task.copy daemon.disk result
              have hrec := task.copy.finishDriverRun_alike unix random result
              dsimp only
              split
              case h_1 rec delay heq =>
                  rw [heq] at hrec
                  split
                  · exact .handBack htask hrec hdisk fuel
                  · exact .ended htask hdisk
              case h_2 => exact .ended htask hdisk
  | mark fork unix put =>
      show Steps drive daemon _ (daemon.mark fork unix put)
      unfold Daemon.mark
      split
      · exact .same
      · exact .mark fork unix put rfl
  | crash unix reached =>
      show Steps drive daemon _ (daemon.crash unix reached)
      unfold Daemon.crash
      split
      · exact .same
      case h_2 task htask =>
          split
          case h_1 op next hleft hasked => exact .die htask hleft hasked unix _
          case h_2 => exact .ended htask (.inl (.refl daemon.disk))

end Daemon

/-! ## Calls that must not be made twice -/

/-- The answer says that a report is on disk. -/
def Op.confirmed : (op : Op) → Ans op → Prop
  | .fundingIntent _, .ok _ => True
  | .invoicePayStarted, .ok _ => True
  | _, _ => False

theorem Op.writes_of_confirmed {op : Op} {answer : Ans op} (h : op.confirmed answer) :
    op.writes = true := by
  cases op <;> first
    | rfl
    | cases h

theorem Put.landed_of_confirmed {op : Op} {put : Put} {answer : Ans op}
    (h : op.confirmed (put.reply op answer)) : put = .landed := by
  cases op <;> cases put <;> first
    | rfl
    | cases h

/-- What the rule follows of a run: its copy of the record, whether what keeps the next run
from making the call is on disk and in the copy, and how often the call has been made. -/
structure Committing where
  copy : SwapRecord
  durable : Prop
  count : ℕ

namespace Committing

variable (committed : Resume → Prop) (irreversible : Op → Bool)

/-- What an answer makes of that. -/
structure Advances (s : Committing) (op : Op) (answer : Ans op) (s' : Committing) : Prop where
  copy : ∃ unix, s'.copy = s.copy.reported unix op
  kept : s.durable → s'.durable
  durable : op.confirmed answer → committed s'.copy.resume → s'.durable
  count : s'.count = s.count + if irreversible op then 1 else 0

structure Safe (s : Committing) : Prop where
  once : s.count ≤ 1
  durable : 0 < s.count → s.durable

/-- **A driver that makes the call at most once**, whatever earlier runs have done, and only
when what keeps the next run from it is on disk. -/
def Commits (drive : SwapRecord → ℕ → Driver DriverError SwapState) : Prop :=
  ∀ rec fuel (s : Committing), s.copy = rec → (s.durable → committed rec.resume) → s.Safe →
    Sound (Advances committed irreversible) Safe (fun _ _ => True) (drive rec fuel) s

variable {committed irreversible} {α : Type} {s : Committing}

/-- **Other calls** leave the count as it is. -/
theorem sound_quiet {p : Driver DriverError α}
    (hp : OnlyCalls (fun op => irreversible op = false) p) (hs : s.Safe) :
    Sound (Advances committed irreversible) Safe (fun _ _ => True) p s := by
  refine Sound.mono (fun _ h => h) (fun _ _ _ _ => trivial) (OnlyCalls.sound ?_ hp hs)
  intro s op answer s' hop hsafe hmoves
  have hcount : s'.count = s.count := by
    rw [hmoves.count, hop]
    rfl
  exact ⟨hcount ▸ hsafe.once, fun hpos => hmoves.kept (hsafe.durable (hcount ▸ hpos))⟩

/-- The call has not been made. -/
def Unmade (s : Committing) : Prop := s.count = 0

theorem Unmade.safe (h : s.Unmade) : s.Safe :=
  ⟨h.le.trans zero_le_one, fun hpos => absurd h hpos.ne'⟩

theorem Unmade.moves {op : Op} {answer : Ans op} {s' : Committing} (h : s.Unmade)
    (hop : irreversible op = false) (hmoves : Advances committed irreversible s op answer s') :
    s'.Unmade := by
  rw [Unmade, hmoves.count, hop]
  exact h

/-- Before the call has been made, other calls do not make it. -/
theorem sound_unmade {p : Driver DriverError α}
    (hp : OnlyCalls (fun op => irreversible op = false) p) (hs : s.Unmade) :
    Sound (Advances committed irreversible) Safe (fun s _ => s.Unmade) p s :=
  Sound.mono (fun _ h => h.safe) (fun _ _ _ h => h)
    (OnlyCalls.sound (fun _ _ _ _ hop h hmoves => h.moves hop hmoves) hp hs)

end Committing

namespace Daemon

variable {drive : SwapRecord → ℕ → Driver DriverError SwapState} {daemon : Daemon}
  {committed : Resume → Prop} {irreversible : Op → Bool}

open Committing

/-- How often the call has been made. -/
def made (irreversible : Op → Bool) (daemon : Daemon) : ℕ :=
  daemon.asks.countP fun asked => irreversible asked.op

/-- The call a run waits for, counted. -/
def waits (irreversible : Op → Bool) (task : DriverTask) : ℕ :=
  match task.left with
  | .call op _ => if task.asked = true ∧ irreversible op = true then 1 else 0
  | _ => 0

theorem waits_of_left {task : DriverTask} {op : Op} {next : Ans op → Driver DriverError SwapState}
    (h : task.left = .call op next) :
    waits irreversible task = if task.asked = true ∧ irreversible op = true then 1 else 0 := by
  rw [waits, h]

theorem waits_of_not_asked {task : DriverTask} (h : task.asked = false) :
    waits irreversible task = 0 := by
  unfold waits
  rw [h]
  split
  · exact if_neg (by simp)
  · rfl

/-- The invariant: once the call has been made, the disk and the copy say so. -/
structure Once (committed : Resume → Prop) (irreversible : Op → Bool) (daemon : Daemon) : Prop where
  once : daemon.made irreversible ≤ 1
  disk : 0 < daemon.made irreversible → committed daemon.disk.resume
  task : ∀ task, daemon.task = some task →
    (0 < daemon.made irreversible → committed task.copy.resume) ∧
      ∃ s : Committing, s.copy = task.copy ∧
        (s.durable → committed daemon.disk.resume ∧ committed task.copy.resume) ∧
        daemon.made irreversible = s.count + waits irreversible task ∧
        Sound (Advances committed irreversible) Safe (fun _ _ => True) task.left s

/-- A run is started on a record that says so, if the call has been made. -/
theorem Once.spawn (hdrive : Commits committed irreversible drive)
    (honce : daemon.made irreversible ≤ 1)
    (hdisk : 0 < daemon.made irreversible → committed daemon.disk.resume) {rec : SwapRecord}
    (hrec : 0 < daemon.made irreversible → committed rec.resume) (fuel : ℕ) :
    Once committed irreversible (daemon.spawn drive rec fuel) := by
  refine ⟨honce, hdisk, ?_⟩
  rintro _ ⟨⟩
  have hwaits : waits irreversible ⟨rec, rec, [], drive rec fuel, false⟩ = 0 :=
    waits_of_not_asked rfl
  refine ⟨hrec, ⟨rec, committed daemon.disk.resume ∧ committed rec.resume,
    daemon.made irreversible⟩, rfl, id, ?_, ?_⟩
  · rw [hwaits]
    rfl
  exact hdrive rec fuel _ rfl And.right ⟨honce, fun hpos => ⟨hdisk hpos, hrec hpos⟩⟩

/-- What is like a record that says so, or like a copy that does, says so. -/
theorem committed_of_alike {old new copy : SwapRecord} (h : new.Alike old ∨ new.Alike copy)
    (hold : committed old.resume) (hcopy : committed copy.resume) : committed new.resume := by
  rcases h with hlike | hlike
  · exact hlike.resume ▸ hold
  · exact hlike.resume ▸ hcopy

theorem committed_writtenFor (op : Op) {copy disk : SwapRecord} (unix : ℕ) (put : Put)
    (hdisk : committed disk.resume) (hcopy : committed copy.resume) :
    committed (writtenFor op copy disk unix put).resume := by
  unfold writtenFor
  split
  · exact committed_of_alike (copy.putOver_alike disk unix put) hdisk hcopy
  · exact hdisk

section

variable {task : DriverTask} {op : Op} {next : Ans op → Driver DriverError SwapState}
  (h : Once committed irreversible daemon) (htask : daemon.task = some task)

include h htask

/-- **A run asks for the call** only where the rule lets it, and then the disk and its copy
say so. -/
theorem Once.ask (hsilent : ∀ op, irreversible op = true → op.writes = false)
    (hleft : task.left = .call op next) (hasked : task.asked = false) :
    Once committed irreversible { daemon with
      task := some { task with asked := true }
      asks := daemon.asks ++ [⟨task.start, task.trace, op⟩] } := by
  obtain ⟨hcopy, s, hscopy, hdurable, hmade, hsound⟩ := h.task task htask
  rw [waits_of_not_asked hasked, Nat.add_zero] at hmade
  rw [hleft] at hsound
  have hafter : made irreversible { daemon with
      task := some { task with asked := true }
      asks := daemon.asks ++ [⟨task.start, task.trace, op⟩] } =
      s.count + if irreversible op then 1 else 0 := by
    rw [made, List.countP_append, List.countP_singleton, ← hmade]
    rfl
  -- whatever the answer, the count that it leaves is one the rule allows
  have hmoves : Advances committed irreversible s op (idle op)
      ⟨s.copy.reported 0 op, s.durable ∨ op.writes = true,
        s.count + if irreversible op then 1 else 0⟩ :=
    ⟨⟨0, rfl⟩, Or.inl, fun hconfirmed _ => Or.inr (Op.writes_of_confirmed hconfirmed), rfl⟩
  have hsafe := (hsound.step hmoves).invariant
  have hcommitted : 0 < s.count + (if irreversible op then 1 else 0) →
      committed daemon.disk.resume ∧ committed task.copy.resume := by
    intro hpos
    by_cases hirreversible : irreversible op = true
    · refine hdurable ((hsafe.durable hpos).resolve_right fun hwrites => ?_)
      rw [hsilent op hirreversible] at hwrites
      cases hwrites
    · rw [if_neg hirreversible, Nat.add_zero, ← hmade] at hpos
      exact ⟨h.disk hpos, hcopy hpos⟩
  refine ⟨?_, ?_, ?_⟩
  · rw [hafter]
    exact hsafe.once
  · rw [hafter]
    exact fun hpos => (hcommitted hpos).1
  · rintro _ ⟨⟩
    rw [hafter]
    refine ⟨fun hpos => (hcommitted hpos).2, s, hscopy, hdurable, ?_, ?_⟩
    · have hwaits : waits irreversible { task with asked := true } = _ := waits_of_left hleft
      rw [hwaits]
      simp only [true_and]
    · show Sound _ _ _ task.left s
      rw [hleft]
      exact hsound

/-- **A call is answered**: what was reported is in the copy, and on disk if the put landed. -/
theorem Once.answer (hreported : ∀ rec : SwapRecord, ∀ unix op, committed rec.resume →
      committed (rec.reported unix op).resume)
    (hleft : task.left = .call op next) (hasked : task.asked = true) (reply : Ans op) (unix : ℕ)
    (put : Put) : Once committed irreversible { daemon with
      disk := writtenFor op (task.copy.reported unix op) daemon.disk unix put
      task := some
        { task with
          copy := task.copy.reported unix op
          trace := task.trace ++ [⟨op, put.reply op reply⟩]
          left := next (put.reply op reply)
          asked := false } } := by
  obtain ⟨hcopy, s, hscopy, hdurable, hmade, hsound⟩ := h.task task htask
  rw [waits_of_left hleft] at hmade
  simp only [hasked, true_and] at hmade
  rw [hleft] at hsound
  have hmoves : Advances committed irreversible s op (put.reply op reply)
      ⟨task.copy.reported unix op,
        committed (writtenFor op (task.copy.reported unix op) daemon.disk unix put).resume ∧
          committed (task.copy.reported unix op).resume,
        s.count + if irreversible op then 1 else 0⟩ := by
    refine ⟨⟨unix, by rw [hscopy]⟩, fun hs => ?_, fun hconfirmed hcommitted => ?_, rfl⟩
    · have hreported' := hreported task.copy unix op (hdurable hs).2
      exact ⟨committed_writtenFor op unix put (hdurable hs).1 hreported', hreported'⟩
    · refine ⟨?_, hcommitted⟩
      rw [Put.landed_of_confirmed hconfirmed, writtenFor,
        if_pos (Op.writes_of_confirmed hconfirmed)]
      exact hcommitted
  refine ⟨h.once, fun hpos => ?_, ?_⟩
  · exact committed_writtenFor op unix put (h.disk hpos) (hreported task.copy unix op (hcopy hpos))
  · rintro _ ⟨⟩
    refine ⟨fun hpos => hreported task.copy unix op (hcopy hpos), _, rfl, id, ?_,
      hsound.step hmoves⟩
    rw [waits_of_not_asked rfl]
    exact hmade

/-- A run that has returned notes something in its copy. -/
theorem Once.note {state : SwapState} {copy disk : SwapRecord} (hleft : task.left = .pure state)
    (hlike : copy.Alike task.copy) (hdisk : disk.Alike daemon.disk ∨ disk.Alike task.copy) :
    Once committed irreversible
      { daemon with disk := disk, task := some { task with copy := copy } } := by
  obtain ⟨hcopy, s, hscopy, hdurable, hmade, hsound⟩ := h.task task htask
  refine ⟨h.once, fun hpos => committed_of_alike hdisk (h.disk hpos) (hcopy hpos), ?_⟩
  rintro _ ⟨⟩
  refine ⟨fun hpos => hlike.resume ▸ hcopy hpos, { s with copy := copy }, rfl,
    fun hs => ⟨committed_of_alike hdisk (hdurable hs).1 (hdurable hs).2, ?_⟩, hmade, ?_⟩
  · exact hlike.resume ▸ (hdurable hs).2
  · rw [hleft] at hsound
    show Sound _ _ _ task.left _
    rw [hleft]
    exact ⟨⟨hsound.1.once, hsound.1.durable⟩, trivial⟩

end

/-- **A run ends**, or dies: what counts is the disk it leaves. -/
theorem Once.ended (h : Once committed irreversible daemon) {disk : SwapRecord}
    (hdisk : 0 < daemon.made irreversible → committed disk.resume) :
    Once committed irreversible { daemon with disk := disk, task := none } :=
  ⟨h.once, hdisk, fun _ htask => (Option.some_ne_none _ htask.symm).elim⟩

/-- The reorg watch marks the record on disk; a run that goes on has its own copy. -/
theorem Once.mark (h : Once committed irreversible daemon)
    (hmark : ∀ rec : SwapRecord, ∀ fork unix, committed rec.resume →
      committed (rec.markReorg fork unix).resume) (fork unix : ℕ) (put : Put) :
    Once committed irreversible { daemon with
      disk := (daemon.disk.markReorg fork unix).putOver daemon.disk unix put } := by
  have hmarked : committed daemon.disk.resume →
      committed ((daemon.disk.markReorg fork unix).putOver daemon.disk unix put).resume :=
    fun hold =>
      committed_of_alike (SwapRecord.putOver_alike _ _ unix put) hold (hmark _ fork unix hold)
  refine ⟨h.once, fun hpos => hmarked (h.disk hpos), fun task htask => ?_⟩
  obtain ⟨hcopy, s, hscopy, hdurable, hrest⟩ := h.task task htask
  exact ⟨hcopy, s, hscopy, fun hs => ⟨hmarked (hdurable hs).1, (hdurable hs).2⟩, hrest⟩

/-- **Every step keeps the invariant.** -/
theorem Once.steps {after : Daemon} (hdrive : Commits committed irreversible drive)
    (hreported : ∀ rec : SwapRecord, ∀ unix op, committed rec.resume →
      committed (rec.reported unix op).resume)
    (hmark : ∀ rec : SwapRecord, ∀ fork unix, committed rec.resume →
      committed (rec.markReorg fork unix).resume)
    (hsilent : ∀ op, irreversible op = true → op.writes = false)
    {event : DaemonEvent}
    (h : Once committed irreversible daemon) (hsteps : Steps drive daemon event after) :
    Once committed irreversible after := by
  cases hsteps with
  | same => exact h
  | begin htask fuel => exact .spawn hdrive h.once h.disk h.disk fuel
  | ask htask hleft hasked => exact h.ask htask hsilent hleft hasked
  | answer htask hleft hasked answers unix put hevent =>
      exact h.answer htask hreported hleft hasked (answers _) unix put
  | note htask hleft hlike hdisk => exact h.note htask hleft hlike hdisk
  | ended htask hdisk =>
      exact h.ended fun hpos => committed_of_alike hdisk (h.disk hpos) ((h.task _ htask).1 hpos)
  | @handBack task rec disk htask hrec hdisk fuel =>
      have hcopy := (h.task task htask).1
      have hended : Once committed irreversible { daemon with disk := disk, task := none } :=
        h.ended fun hpos => committed_of_alike hdisk (h.disk hpos) (hcopy hpos)
      exact .spawn hdrive hended.once hended.disk (fun hpos => hrec.resume ▸ hcopy hpos) fuel
  | mark fork unix put hevent => exact h.mark hmark fork unix put
  | @die task op next htask hleft hasked unix put =>
      refine h.ended fun hpos => ?_
      have hcopy := hreported task.copy unix op ((h.task task htask).1 hpos)
      exact committed_writtenFor op unix put (h.disk hpos) hcopy

/-- **Never twice.**  From any record, through any runs, crashes and failed writes, the call is
made at most once. -/
theorem made_le_one (hdrive : Commits committed irreversible drive)
    (hreported : ∀ rec : SwapRecord, ∀ unix op, committed rec.resume →
      committed (rec.reported unix op).resume)
    (hmark : ∀ rec : SwapRecord, ∀ fork unix, committed rec.resume →
      committed (rec.markReorg fork unix).resume)
    (hsilent : ∀ op, irreversible op = true → op.writes = false) (rec : SwapRecord)
    (events : List DaemonEvent) :
    (run drive events ⟨rec, none, [], []⟩).made irreversible ≤ 1 := by
  have hrun : ∀ {daemon : Daemon}, Once committed irreversible daemon →
      Once committed irreversible (run drive events daemon) := by
    induction events with
    | nil => exact fun h => h
    | cons event events ih =>
        intro daemon h
        exact ih (h.steps hdrive hreported hmark hsilent (step_steps drive daemon event))
  refine (hrun ⟨Nat.zero_le _, fun hpos => absurd hpos (lt_irrefl 0), fun _ htask => ?_⟩).once
  exact (Option.some_ne_none _ htask.symm).elim

end Daemon

/-! ## What every run keeps -/

/-- What a run has done to its copy of the record, and exchanged. -/
structure Progressing where
  copy : SwapRecord
  trace : List Event

namespace Progressing

/-- What an answer that is allowed makes of that. -/
structure Advances (allowed : (op : Op) → Ans op → Prop) (s : Progressing) (op : Op)
    (answer : Ans op)
    (s' : Progressing) : Prop where
  allowed : allowed op answer
  copy : ∃ unix, s'.copy = s.copy.reported unix op
  trace : s'.trace = s.trace ++ [⟨op, answer⟩]

end Progressing

/-- The answers of a step are allowed, and its mark. -/
def DaemonEvent.Within (allowed : (op : Op) → Ans op → Prop) (marks : ℕ → Prop) :
    DaemonEvent → Prop
  | .answer answers _ put => ∀ op, allowed op (put.reply op (answers op))
  | .mark fork _ _ => marks fork
  | .begin _ | .ask | .noteFee .. | .finish .. | .crash .. => True

/-- What a record has to satisfy, and a run on it: the rule's premises. -/
structure Upkeep (drive : SwapRecord → ℕ → Driver DriverError SwapState)
    (allowed : (op : Op) → Ans op → Prop) (marks : ℕ → Prop) (holds : SwapRecord → Prop)
    (knows : SwapRecord → Progressing → Prop) : Prop where
  alike : ∀ rec old : SwapRecord, rec.Alike old → holds old → holds rec
  mark : ∀ (rec : SwapRecord) fork unix, marks fork → holds rec →
    holds (rec.markReorg fork unix)
  copy : ∀ start s, knows start s → holds s.copy
  carried : ∀ start s copy, copy.Alike s.copy → knows start s → knows start ⟨copy, s.trace⟩
  idles : ∀ op, allowed op (idle op)
  drives : ∀ rec fuel, holds rec →
    Sound (Progressing.Advances allowed) (knows rec) (fun _ _ => True) (drive rec fuel) ⟨rec, []⟩

/-- What no write takes from a record. -/
structure SwapRecord.Kept (marks : ℕ → Prop) (P : SwapRecord → Prop) : Prop where
  alike : ∀ rec old : SwapRecord, rec.Alike old → P old → P rec
  mark : ∀ (rec : SwapRecord) fork unix, marks fork → P rec → P (rec.markReorg fork unix)
  reported : ∀ (rec : SwapRecord) unix op, P rec → P (rec.reported unix op)

/-- What no write takes from a record, every run keeps as well. -/
theorem Upkeep.keeping {drive : SwapRecord → ℕ → Driver DriverError SwapState}
    {allowed : (op : Op) → Ans op → Prop} {marks : ℕ → Prop} {holds P : SwapRecord → Prop}
    {knows : SwapRecord → Progressing → Prop} (hup : Upkeep drive allowed marks holds knows)
    (hkept : SwapRecord.Kept marks P) :
    Upkeep drive allowed marks (fun rec => holds rec ∧ P rec)
      (fun start s => knows start s ∧ P start ∧ P s.copy) where
  alike rec old hlike h := ⟨hup.alike rec old hlike h.1, hkept.alike rec old hlike h.2⟩
  mark rec fork unix hfork h :=
    ⟨hup.mark rec fork unix hfork h.1, hkept.mark rec fork unix hfork h.2⟩
  copy start s h := ⟨hup.copy start s h.1, h.2.2⟩
  carried start s copy hlike h :=
    ⟨hup.carried start s copy hlike h.1, h.2.1, hkept.alike copy s.copy hlike h.2.2⟩
  idles := hup.idles
  drives rec fuel h := by
    have hcopies : Sound (Progressing.Advances allowed) (fun s => P rec ∧ P s.copy)
        (fun s _ => P rec ∧ P s.copy) (drive rec fuel) ⟨rec, []⟩ := by
      refine OnlyCalls.sound ?_ (Program.onlyCalls_any _) ⟨h.2, h.2⟩
      rintro s op answer s' - ⟨hstart, hcopy⟩ hmoves
      obtain ⟨unix, hreport⟩ := hmoves.copy
      exact ⟨hstart, hreport ▸ hkept.reported s.copy unix op hcopy⟩
    exact Sound.mono (fun _ h => h) (fun _ _ _ _ => trivial)
      ((hup.drives rec fuel h.1).and hcopies)

namespace Daemon

variable {drive : SwapRecord → ℕ → Driver DriverError SwapState}
  {allowed : (op : Op) → Ans op → Prop} {marks : ℕ → Prop} {holds : SwapRecord → Prop}
  {knows : SwapRecord → Progressing → Prop} {daemon : Daemon}

/-- The disk, the run and every call that has been made are as the rule says. -/
structure Keeps (allowed : (op : Op) → Ans op → Prop) (holds : SwapRecord → Prop)
    (knows : SwapRecord → Progressing → Prop) (daemon : Daemon) : Prop where
  disk : holds daemon.disk
  task : ∀ task, daemon.task = some task →
    Sound (Progressing.Advances allowed) (knows task.start) (fun _ _ => True) task.left
      ⟨task.copy, task.trace⟩
  asks : ∀ asked ∈ daemon.asks, ∃ copy,
    knows asked.start ⟨copy, asked.before ++ [⟨asked.op, idle asked.op⟩]⟩

theorem Keeps.spawn (hup : Upkeep drive allowed marks holds knows)
    (h : Keeps allowed holds knows daemon) {rec : SwapRecord} (hrec : holds rec) (fuel : ℕ) :
    Keeps allowed holds knows (daemon.spawn drive rec fuel) := by
  refine ⟨h.disk, ?_, h.asks⟩
  rintro _ ⟨⟩
  exact hup.drives rec fuel hrec

/-- A run that is over leaves what it has on its copy. -/
theorem Keeps.over (h : Keeps allowed holds knows daemon) {disk : SwapRecord}
    (hdisk : holds disk) : Keeps allowed holds knows { daemon with disk := disk, task := none } :=
  ⟨hdisk, fun _ htask => (Option.some_ne_none _ htask.symm).elim, h.asks⟩

theorem Keeps.step (hup : Upkeep drive allowed marks holds knows)
    (h : Keeps allowed holds knows daemon) {event : DaemonEvent}
    (hwithin : event.Within allowed marks) :
    Keeps allowed holds knows (daemon.step drive event) := by
  -- a write leaves what is on disk, or puts the copy there
  have hleaves : ∀ {old new copy : SwapRecord}, new.Alike old ∨ new.Alike copy →
      holds old → holds copy → holds new := by
    rintro old new copy (hlike | hlike) hold hcopy
    · exact hup.alike _ _ hlike hold
    · exact hup.alike _ _ hlike hcopy
  have hwritten : ∀ op (copy disk : SwapRecord) unix put, holds disk → holds copy →
      holds (writtenFor op copy disk unix put) := by
    intro op copy disk unix put hdisk hcopy
    unfold writtenFor
    split
    · exact hleaves (copy.putOver_alike disk unix put) hdisk hcopy
    · exact hdisk
  have hsteps := step_steps drive daemon event
  generalize daemon.step drive event = after at hsteps
  cases hsteps with
  | same => exact h
  | begin htask fuel => exact h.spawn hup h.disk fuel
  | @ask task op next htask hleft hasked =>
      have hsound := h.task task htask
      refine ⟨h.disk, ?_, fun asked hmem => ?_⟩
      · rintro _ ⟨⟩
        exact hsound
      -- the calls made so far, and the one that the driver has come to
      · rcases List.mem_append.mp hmem with hmem | hmem
        · exact h.asks asked hmem
        · obtain rfl := List.mem_singleton.mp hmem
          rw [hleft] at hsound
          have hmoves : Progressing.Advances allowed ⟨task.copy, task.trace⟩ op (idle op)
              ⟨task.copy.reported 0 op, task.trace ++ [⟨op, idle op⟩]⟩ :=
            ⟨hup.idles op, ⟨0, rfl⟩, rfl⟩
          exact ⟨_, (hsound.step hmoves).invariant⟩
  | @answer task op next htask hleft hasked answers unix put hevent =>
      have hsound := h.task task htask
      rw [hleft] at hsound
      subst hevent
      have hmoves : Progressing.Advances allowed ⟨task.copy, task.trace⟩ op
          (put.reply op (answers op)) ⟨task.copy.reported unix op,
            task.trace ++ [⟨op, put.reply op (answers op)⟩]⟩ :=
        ⟨hwithin op, ⟨unix, rfl⟩, rfl⟩
      have hnext := hsound.step hmoves
      refine ⟨hwritten op _ _ unix put h.disk (hup.copy _ _ hnext.invariant), ?_, h.asks⟩
      rintro _ ⟨⟩
      exact hnext
  | @note task state copy disk htask hleft hlike hdisk =>
      have hsound := h.task task htask
      refine ⟨hleaves hdisk h.disk (hup.copy _ _ hsound.invariant), ?_, h.asks⟩
      rintro _ ⟨⟩
      rw [hleft] at hsound
      show Sound _ _ _ task.left _
      rw [hleft]
      exact ⟨hup.carried _ _ copy hlike hsound.1, trivial⟩
  | @ended task disk htask hdisk =>
      have hcopy := hup.copy _ _ (h.task task htask).invariant
      exact h.over (hleaves hdisk h.disk hcopy)
  | @handBack task rec disk htask hrec hdisk fuel =>
      have hcopy := hup.copy _ _ (h.task task htask).invariant
      exact (h.over (hleaves hdisk h.disk hcopy)).spawn hup (hup.alike _ _ hrec hcopy) fuel
  | mark fork unix put hevent =>
      subst hevent
      refine ⟨?_, h.task, h.asks⟩
      exact hleaves (SwapRecord.putOver_alike _ _ unix put) h.disk
        (hup.mark _ fork unix hwithin h.disk)
  | @die task op next htask hleft hasked unix put =>
      have hsound := h.task task htask
      rw [hleft] at hsound
      have hmoves : Progressing.Advances allowed ⟨task.copy, task.trace⟩ op (idle op)
          ⟨task.copy.reported unix op, task.trace ++ [⟨op, idle op⟩]⟩ :=
        ⟨hup.idles op, ⟨unix, rfl⟩, rfl⟩
      -- the process dies before the answer: the report counts as made on the copy, with any
      -- answer
      have hcopy := hup.copy _ _ (hsound.step hmoves).invariant
      exact h.over (hwritten op _ _ unix put h.disk hcopy)

/-- **Upkeep**: what every run keeps and knows holds of all runs together. -/
theorem Keeps.run (hup : Upkeep drive allowed marks holds knows)
    (h : Keeps allowed holds knows daemon) {events : List DaemonEvent}
    (hwithin : ∀ event ∈ events, event.Within allowed marks) :
    Keeps allowed holds knows (run drive events daemon) := by
  induction events generalizing daemon with
  | nil => exact h
  | cons event events ih =>
      exact ih (h.step hup (hwithin event List.mem_cons_self))
        fun later hlater => hwithin later (List.mem_cons_of_mem _ hlater)

theorem keeps_new {rec : SwapRecord} (hrec : holds rec) :
    Keeps allowed holds knows ⟨rec, none, [], []⟩ :=
  ⟨hrec, fun _ htask => (Option.some_ne_none _ htask.symm).elim,
    fun _ hmem => (List.not_mem_nil hmem).elim⟩

/-! ## What no write takes away -/

variable {P : SwapRecord → Prop}

/-- The record on disk has it, and the copy of a run. -/
structure Everywhere (P : SwapRecord → Prop) (daemon : Daemon) : Prop where
  disk : P daemon.disk
  copy : ∀ task, daemon.task = some task → P task.copy

theorem Everywhere.step (hkept : SwapRecord.Kept marks P) (h : Everywhere P daemon)
    {event : DaemonEvent} (hwithin : event.Within (fun _ _ => True) marks) :
    Everywhere P (daemon.step drive event) ∧
      ∃ later, (daemon.step drive event).starts = daemon.starts ++ later ∧
        ∀ rec ∈ later, P rec := by
  have hleaves : ∀ {old new copy : SwapRecord}, new.Alike old ∨ new.Alike copy →
      P old → P copy → P new := by
    rintro old new copy (hlike | hlike) hold hcopy
    · exact hkept.alike _ _ hlike hold
    · exact hkept.alike _ _ hlike hcopy
  have hwritten : ∀ op (copy disk : SwapRecord) unix put, P disk → P copy →
      P (writtenFor op copy disk unix put) := by
    intro op copy disk unix put hdisk hcopy
    unfold writtenFor
    split
    · exact hleaves (copy.putOver_alike disk unix put) hdisk hcopy
    · exact hdisk
  -- most steps start no run, and two start one
  have hnone : ∃ later, daemon.starts = daemon.starts ++ later ∧ ∀ rec ∈ later, P rec :=
    ⟨[], (List.append_nil _).symm, fun _ hmem => (List.not_mem_nil hmem).elim⟩
  have hone : ∀ rec, P rec → ∃ later, daemon.starts ++ [rec] = daemon.starts ++ later ∧
      ∀ rec ∈ later, P rec :=
    fun rec hrec => ⟨[rec], rfl, fun _ hmem => List.mem_singleton.mp hmem ▸ hrec⟩
  have hsteps := step_steps drive daemon event
  generalize daemon.step drive event = after at hsteps
  cases hsteps with
  | same => exact ⟨h, hnone⟩
  | begin htask fuel =>
      refine ⟨⟨h.disk, ?_⟩, hone _ h.disk⟩
      rintro _ ⟨⟩
      exact h.disk
  | @ask task op next htask hleft hasked =>
      refine ⟨⟨h.disk, ?_⟩, hnone⟩
      rintro _ ⟨⟩
      exact h.copy task htask
  | @answer task op next htask hleft hasked answers unix put hevent =>
      have hcopy := hkept.reported task.copy unix op (h.copy task htask)
      refine ⟨⟨hwritten op _ _ unix put h.disk hcopy, ?_⟩, hnone⟩
      rintro _ ⟨⟩
      exact hcopy
  | @note task state copy disk htask hleft hlike hdisk =>
      have hcopy := h.copy task htask
      refine ⟨⟨hleaves hdisk h.disk hcopy, ?_⟩, hnone⟩
      rintro _ ⟨⟩
      exact hkept.alike _ _ hlike hcopy
  | @ended task disk htask hdisk =>
      refine ⟨⟨hleaves hdisk h.disk (h.copy task htask), fun _ htask => ?_⟩, hnone⟩
      exact (Option.some_ne_none _ htask.symm).elim
  | @handBack task rec disk htask hrec hdisk fuel =>
      have hcopy := hkept.alike _ _ hrec (h.copy task htask)
      refine ⟨⟨hleaves hdisk h.disk (h.copy task htask), ?_⟩, hone _ hcopy⟩
      rintro _ ⟨⟩
      exact hcopy
  | mark fork unix put hevent =>
      subst hevent
      refine ⟨⟨?_, h.copy⟩, hnone⟩
      exact hleaves (SwapRecord.putOver_alike _ _ unix put) h.disk
        (hkept.mark _ fork unix hwithin h.disk)
  | @die task op next htask hleft hasked unix put =>
      have hcopy := hkept.reported task.copy unix op (h.copy task htask)
      refine ⟨⟨hwritten op _ _ unix put h.disk hcopy, fun _ htask => ?_⟩, hnone⟩
      exact (Option.some_ne_none _ htask.symm).elim

/-- **What no write takes away**, every later run is started with. -/
theorem Everywhere.run (hkept : SwapRecord.Kept marks P) (h : Everywhere P daemon)
    {events : List DaemonEvent}
    (hwithin : ∀ event ∈ events, event.Within (fun _ _ => True) marks) :
    Everywhere P (run drive events daemon) ∧
      ∃ later, (run drive events daemon).starts = daemon.starts ++ later ∧
        ∀ rec ∈ later, P rec := by
  induction events generalizing daemon with
  | nil => exact ⟨h, [], (List.append_nil _).symm, fun _ hmem => (List.not_mem_nil hmem).elim⟩
  | cons event events ih =>
      obtain ⟨hstep, first, hfirst, hfirsts⟩ :=
        h.step hkept (hwithin event List.mem_cons_self)
      obtain ⟨hrun, rest, hrest, hrests⟩ :=
        ih hstep fun later hlater => hwithin later (List.mem_cons_of_mem _ hlater)
      refine ⟨hrun, first ++ rest, ?_, fun rec hmem => ?_⟩
      · rw [← List.append_assoc, ← hfirst]
        exact hrest
      · exact (List.mem_append.mp hmem).elim (hfirsts rec) (hrests rec)

end Daemon

end PubkySwap
