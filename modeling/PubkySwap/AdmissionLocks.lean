import PubkySwap.Swap
import Mathlib.Data.List.Basic
import Mathlib.Logic.Function.Basic

/-!
# The locks of the admissions

Whoever turns a persisted admission into a running driver does so under the lock of its
swap.  The locks are made as they are asked for: a map leads from a swap to a counted
handle of its mutex, a call clones the handle under the lock of the map and waits for the
mutex with the clone, and the guard that it gets lets go of the mutex, drops the clone and
then, under the lock of the map again, removes the entry if the map's is the last handle.

The model has one step for each of these, since between any two of them other calls may
take theirs.  The mutex itself is a parameter, of which one thing is relied on: it gives
out one guard at a time.

## Main results

* `System.excludes` — at most one guard of a swap is live.
* `excludes_and_cleansUp_iff` — the map is rid of the swaps nobody is busy with exactly if
  no cancelled call was the last one to be busy with its swap.
-/

namespace PubkySwap

/-! ## The mutex -/

/-- `tokio::sync::Mutex<()>`.  The calls that wait for it are told apart by their number. -/
class TokioMutex where
  State : Type
  /-- `Mutex::default`. -/
  unlocked : State
  /-- A poll of the future of `lock_owned`: whether it is ready, and the mutex after. -/
  poll : ℕ → State → Bool × State
  /-- That future is dropped before it was ready. -/
  abandon : ℕ → State → State
  /-- The guard is dropped. -/
  unlock : State → State
  /-- A guard is out. -/
  locked : State → Bool
  locked_unlocked : locked unlocked = false
  poll_of_locked : ∀ i mutex, locked mutex = true → (poll i mutex).1 = false
  locked_poll : ∀ i mutex, locked (poll i mutex).2 = (locked mutex || (poll i mutex).1)
  locked_abandon : ∀ i mutex, locked (abandon i mutex) = locked mutex
  locked_unlock : ∀ mutex, locked (unlock mutex) = false

namespace AdmissionLocks

/-! ## The calls -/

/-- How far a call of `lock` has come, its guard included. -/
inductive Phase where
  /-- It has cloned the handle and not yet asked for the mutex. -/
  | cloned
  /-- It waits for the mutex. -/
  | waiting
  /-- It was cancelled as it waited: the future is gone, the handle is not. -/
  | abandoned
  /-- Its guard is live. -/
  | holding
  /-- The guard is being dropped: it has let go of the mutex. -/
  | unlocked
  /-- The guard is being dropped: it has dropped its handle. -/
  | released
  | ended
deriving DecidableEq

/-- The call has a handle of its mutex. -/
def Phase.hasHandle : Phase → Bool
  | .released | .ended => false
  | _ => true

structure Call where
  swapId : Uuid
  /-- The address of the mutex of the cloned handle. -/
  mutex : ℕ
  phase : Phase

/-- The call has a handle of the mutex at this address. -/
def Call.handles (address : ℕ) (call : Call) : Bool :=
  call.mutex == address && call.phase.hasHandle

/-- The call has a live guard of the mutex at this address. -/
def Call.guards (address : ℕ) (call : Call) : Bool :=
  call.mutex == address && call.phase == .holding

end AdmissionLocks

/-! ## The map and the handles -/

open AdmissionLocks

section

variable [TokioMutex]

/-- What a counted handle leads to. -/
structure SharedMutex where
  strongCount : ℕ
  mutex : TokioMutex.State

/-- The map from swaps to mutexes, and the mutexes by their addresses. -/
structure AdmissionLocks where
  locks : Uuid → Option ℕ
  mutexes : ℕ → SharedMutex
  /-- The addresses below are taken. -/
  allocated : ℕ

namespace AdmissionLocks

/-- `AdmissionLocks::default`. -/
def empty : AdmissionLocks :=
  { locks := fun _ => none, mutexes := fun _ => ⟨0, TokioMutex.unlocked⟩, allocated := 0 }

/-- The map and the other mutexes stay as they are. -/
def setMutex (address : ℕ) (shared : SharedMutex) (admissions : AdmissionLocks) :
    AdmissionLocks :=
  { admissions with mutexes := Function.update admissions.mutexes address shared }

/-- The address of the mutex of the swap.  If the map has no entry, one is made. -/
def orDefault (swapId : Uuid) (admissions : AdmissionLocks) : ℕ × AdmissionLocks :=
  match admissions.locks swapId with
  | some address => (address, admissions)
  | none =>
      (admissions.allocated,
        { locks := Function.update admissions.locks swapId (some admissions.allocated)
          mutexes := Function.update admissions.mutexes admissions.allocated
            ⟨1, TokioMutex.unlocked⟩
          allocated := admissions.allocated + 1 })

/-- One handle more of the mutex. -/
def cloneHandle (address : ℕ) (admissions : AdmissionLocks) : AdmissionLocks :=
  let shared := admissions.mutexes address
  admissions.setMutex address { shared with strongCount := shared.strongCount + 1 }

/-- The part of `lock` under the lock of the map: the handle of the swap's mutex is
cloned. -/
def lock (swapId : Uuid) (admissions : AdmissionLocks) : ℕ × AdmissionLocks :=
  let (address, admissions) := admissions.orDefault swapId
  (address, admissions.cloneHandle address)

/-- One handle of the mutex is dropped. -/
def dropHandle (address : ℕ) (admissions : AdmissionLocks) : AdmissionLocks :=
  let shared := admissions.mutexes address
  admissions.setMutex address { shared with strongCount := shared.strongCount - 1 }

/-- The part of the guard's `drop` under the lock of the map: the entry goes if its handle
is the only one left. -/
def removeUnused (swapId : Uuid) (admissions : AdmissionLocks) : AdmissionLocks :=
  match admissions.locks swapId with
  | some address =>
      if (admissions.mutexes address).strongCount = 1 then
        { admissions with locks := Function.update admissions.locks swapId none }
      else admissions
  | none => admissions

/-! ## Runs -/

/-- The locks with all the calls there have been. -/
structure System where
  admissions : AdmissionLocks
  calls : List Call

inductive Event where
  /-- A further call is made. -/
  | lock (swapId : Uuid)
  /-- A call takes its next step.  One that waits is polled, one that holds the lock drops
  its guard. -/
  | advance (i : ℕ)
  /-- The future of a call that waits is dropped. -/
  | cancel (i : ℕ)

namespace System

def initial : System := ⟨empty, []⟩

/-- Call `i` comes to a phase. -/
def proceed (i : ℕ) (call : Call) (phase : Phase) (admissions : AdmissionLocks)
    (system : System) : System :=
  ⟨admissions, system.calls.set i { call with phase := phase }⟩

/-- A poll of a call that has no lock yet. -/
def poll (i : ℕ) (call : Call) (system : System) : System :=
  let shared := system.admissions.mutexes call.mutex
  let polled := TokioMutex.poll i shared.mutex
  system.proceed i call (if polled.1 then .holding else .waiting)
    (system.admissions.setMutex call.mutex { shared with mutex := polled.2 })

/-- The future of a call that waits is dropped, its handle is not yet. -/
def abandon (i : ℕ) (call : Call) (system : System) : System :=
  let shared := system.admissions.mutexes call.mutex
  system.proceed i call .abandoned (system.admissions.setMutex call.mutex
    { shared with mutex := TokioMutex.abandon i shared.mutex })

/-- The guard lets go of the mutex. -/
def unlock (i : ℕ) (call : Call) (system : System) : System :=
  let shared := system.admissions.mutexes call.mutex
  system.proceed i call .unlocked (system.admissions.setMutex call.mutex
    { shared with mutex := TokioMutex.unlock shared.mutex })

/-- The next step of a call. -/
def advance (i : ℕ) (call : Call) (system : System) : System :=
  match call.phase with
  | .cloned | .waiting => system.poll i call
  | .holding => system.unlock i call
  | .unlocked => system.proceed i call .released (system.admissions.dropHandle call.mutex)
  | .released => system.proceed i call .ended (system.admissions.removeUnused call.swapId)
  | .abandoned => system.proceed i call .ended (system.admissions.dropHandle call.mutex)
  | .ended => system

def step (system : System) : Event → System
  | .lock swapId =>
      let (address, admissions) := system.admissions.lock swapId
      ⟨admissions, system.calls ++ [⟨swapId, address, .cloned⟩]⟩
  | .advance i =>
      match system.calls[i]? with
      | some call => system.advance i call
      | none => system
  | .cancel i =>
      match system.calls[i]? with
      | some call => if call.phase = .waiting then system.abandon i call else system
      | none => system

def run (events : List Event) (system : System) : System :=
  events.foldl step system

/-! ## What is to hold -/

/-- A call for the swap has not ended: it waits for the lock, it holds it, or it is on its
way out. -/
def Busy (system : System) (swapId : Uuid) : Prop :=
  ∃ call ∈ system.calls, call.swapId = swapId ∧ call.phase ≠ .ended

/-- At most one guard of a swap is live. -/
def Excludes (system : System) : Prop :=
  ∀ i j : ℕ, ∀ call ∈ system.calls[i]?, ∀ other ∈ system.calls[j]?, call.phase = .holding →
    other.phase = .holding → call.swapId = other.swapId → i = j

/-- The map has entries only for swaps that some call is busy with. -/
def CleansUp (system : System) : Prop :=
  ∀ swapId, ¬ system.Busy swapId → system.admissions.locks swapId = none

/-- Call `i` was cancelled and drops its handle next, and it is the last call that is busy
with its swap. -/
def LeavesNobody (system : System) (i : ℕ) : Prop :=
  ∃ call ∈ system.calls[i]?, call.phase = .abandoned ∧
    ∀ j : ℕ, ∀ other ∈ system.calls[j]?, other.swapId = call.swapId → other.phase ≠ .ended →
      j = i

/-! ## The invariant -/

/-- What holds of the locks throughout: every handle leads to the mutex of its swap, the
counter of a mutex in the map counts its handles, and a mutex is locked exactly if one
guard of it is live. -/
structure Sound (system : System) : Prop where
  entry_allocated : ∀ swapId, ∀ address ∈ system.admissions.locks swapId,
    address < system.admissions.allocated
  call_allocated : ∀ call ∈ system.calls, call.mutex < system.admissions.allocated
  injective : ∀ swapId swapId', ∀ address ∈ system.admissions.locks swapId,
    address ∈ system.admissions.locks swapId' → swapId = swapId'
  mapped : ∀ call ∈ system.calls, call.phase.hasHandle = true →
    system.admissions.locks call.swapId = some call.mutex
  counted : ∀ swapId, ∀ address ∈ system.admissions.locks swapId,
    (system.admissions.mutexes address).strongCount =
      system.calls.countP (Call.handles address) + 1
  guarded : ∀ address, system.calls.countP (Call.guards address) =
    (TokioMutex.locked (system.admissions.mutexes address).mutex).toNat

variable {system : System} {i : ℕ} {call : Call} {phase : Phase}

omit [TokioMutex] in
/-- How a count changes with one call. -/
theorem countP_set (p : Call → Bool) {calls : List Call} (hcall : calls[i]? = some call)
    (call' : Call) :
    (calls.set i call').countP p + (p call).toNat = calls.countP p + (p call').toNat := by
  obtain ⟨hi, rfl⟩ := List.getElem?_eq_some_iff.mp hcall
  have hle := List.boole_getElem_le_countP (p := p) hi
  rw [List.countP_set hi]
  cases hp : p calls[i] <;> cases hp' : p call' <;>
    simp only [hp, Bool.toNat_true, Bool.toNat_false, if_true, if_false,
      Bool.false_eq_true] at hle ⊢ <;> omega

omit [TokioMutex] in
/-- A change that a count does not see. -/
theorem countP_set_eq {p : Call → Bool} {calls : List Call} (hcall : calls[i]? = some call)
    {call' : Call} (heq : p call' = p call) : (calls.set i call').countP p = calls.countP p := by
  have hset := countP_set p hcall call'
  rw [heq] at hset
  exact Nat.add_right_cancel hset

/-- The counter of a mutex counts the handle of a call that has one. -/
theorem Sound.strongCount_pos (h : system.Sound) (hcall : system.calls[i]? = some call)
    (hhas : call.phase.hasHandle = true) :
    0 < (system.admissions.mutexes call.mutex).strongCount := by
  have hmapped := h.mapped call (List.mem_of_getElem? hcall) hhas
  rw [h.counted call.swapId call.mutex hmapped]
  exact Nat.succ_pos _

/-- The mutex of a live guard is locked. -/
theorem Sound.locked (h : system.Sound) (hcall : system.calls[i]? = some call)
    (hholding : call.phase = .holding) :
    TokioMutex.locked (system.admissions.mutexes call.mutex).mutex = true := by
  have hpos : 0 < system.calls.countP (Call.guards call.mutex) :=
    List.countP_pos_iff.mpr ⟨call, List.mem_of_getElem? hcall, by simp [Call.guards, hholding]⟩
  rw [h.guarded] at hpos
  cases hlocked : TokioMutex.locked (system.admissions.mutexes call.mutex).mutex with
  | true => rfl
  | false =>
      rw [hlocked] at hpos
      cases hpos

/-- **One step of a call that has a handle**: it drops the handle or keeps it, and it lets go
of the mutex, gets it or leaves it as it is. -/
theorem Sound.proceed (h : system.Sound) (hcall : system.calls[i]? = some call)
    (hhas : call.phase.hasHandle = true) {shared : SharedMutex}
    (hcount : shared.strongCount + 1 =
      (system.admissions.mutexes call.mutex).strongCount + phase.hasHandle.toNat)
    (hguard : (TokioMutex.locked shared.mutex).toNat + (call.phase == .holding).toNat =
      (TokioMutex.locked (system.admissions.mutexes call.mutex).mutex).toNat +
        (phase == .holding).toNat) :
    (system.proceed i call phase (system.admissions.setMutex call.mutex shared)).Sound := by
  have hmem := List.mem_of_getElem? hcall
  have hcalls : ∀ other ∈ system.calls.set i { call with phase := phase },
      other ∈ system.calls ∨ other = { call with phase := phase } :=
    fun other hother => List.mem_or_eq_of_mem_set hother
  refine ⟨h.entry_allocated, ?_, h.injective, ?_, ?_, ?_⟩
  · intro other hother
    rcases hcalls other hother with hother | rfl
    · exact h.call_allocated other hother
    · exact h.call_allocated call hmem
  · intro other hother hhas'
    rcases hcalls other hother with hother | rfl
    · exact h.mapped other hother hhas'
    · exact h.mapped call hmem hhas
  · intro swapId address haddress
    have hset := countP_set (Call.handles address) hcall { call with phase := phase }
    have hcounted := h.counted swapId address haddress
    show (Function.update system.admissions.mutexes call.mutex shared address).strongCount =
      (system.calls.set i { call with phase := phase }).countP (Call.handles address) + 1
    by_cases heq : call.mutex = address
    · subst heq
      simp only [Call.handles, beq_self_eq_true, Bool.true_and, hhas, Bool.toNat_true] at hset
      rw [Function.update_self]
      omega
    · rw [Function.update_of_ne (Ne.symm heq), hcounted]
      simp only [Call.handles, beq_eq_false_iff_ne.mpr heq, Bool.false_and] at hset ⊢
      omega
  · intro address
    have hset := countP_set (Call.guards address) hcall { call with phase := phase }
    have hguarded := h.guarded address
    show (system.calls.set i { call with phase := phase }).countP (Call.guards address) =
      (TokioMutex.locked (Function.update system.admissions.mutexes call.mutex shared
        address).mutex).toNat
    by_cases heq : call.mutex = address
    · subst heq
      simp only [Call.guards, beq_self_eq_true, Bool.true_and] at hset
      rw [Function.update_self]
      omega
    · rw [Function.update_of_ne (Ne.symm heq), ← hguarded]
      simp only [Call.guards, beq_eq_false_iff_ne.mpr heq, Bool.false_and] at hset ⊢
      omega

theorem Sound.poll (h : system.Sound) (hcall : system.calls[i]? = some call)
    (hphase : call.phase = .cloned ∨ call.phase = .waiting) : (system.poll i call).Sound := by
  have hhas : call.phase.hasHandle = true := by rcases hphase with h | h <;> rw [h] <;> rfl
  have hnot : (call.phase == .holding) = false := by rcases hphase with h | h <;> rw [h] <;> rfl
  have hlocked := TokioMutex.locked_poll i (system.admissions.mutexes call.mutex).mutex
  unfold System.poll
  cases hready : (TokioMutex.poll i (system.admissions.mutexes call.mutex).mutex).1 with
  | true =>
      have hfree :
          TokioMutex.locked (system.admissions.mutexes call.mutex).mutex = false := by
        by_contra hbusy
        rw [TokioMutex.poll_of_locked i _ (Bool.not_eq_false _ ▸ hbusy)] at hready
        cases hready
      simp only [hready, if_true]
      refine h.proceed hcall hhas rfl ?_
      rw [hlocked, hnot, hready, hfree]
      rfl
  | false =>
      simp only [hready, Bool.false_eq_true, if_false]
      refine h.proceed hcall hhas rfl ?_
      rw [hlocked, hnot, hready, Bool.or_false]
      rfl

theorem Sound.abandon (h : system.Sound) (hcall : system.calls[i]? = some call)
    (hphase : call.phase = .waiting) : (system.abandon i call).Sound := by
  refine h.proceed hcall (by rw [hphase]; rfl) rfl ?_
  rw [TokioMutex.locked_abandon, hphase]
  rfl

theorem Sound.unlock (h : system.Sound) (hcall : system.calls[i]? = some call)
    (hphase : call.phase = .holding) : (system.unlock i call).Sound := by
  refine h.proceed hcall (by rw [hphase]; rfl) rfl ?_
  rw [TokioMutex.locked_unlock, h.locked hcall hphase, hphase]
  rfl

/-- A call drops its handle. -/
theorem Sound.dropHandle (h : system.Sound) (hcall : system.calls[i]? = some call)
    (hhas : call.phase.hasHandle = true) (hphase : call.phase ≠ .holding)
    (hdropped : phase = .released ∨ phase = .ended) :
    (system.proceed i call phase (system.admissions.dropHandle call.mutex)).Sound := by
  have hpos := h.strongCount_pos hcall hhas
  refine h.proceed hcall hhas ?_ ?_
  · rcases hdropped with rfl | rfl <;> exact Nat.sub_add_cancel hpos
  · rw [beq_eq_false_iff_ne.mpr hphase]
    rcases hdropped with rfl | rfl <;> rfl

/-- A call that has no handle any more ends, and the map may lose an entry that no handle
is left of. -/
theorem Sound.ended (h : system.Sound) (hcall : system.calls[i]? = some call)
    (hphase : call.phase = .released) {locks : Uuid → Option ℕ}
    (hlocks : ∀ swapId, locks swapId = system.admissions.locks swapId ∨
      locks swapId = none ∧ ∀ other ∈ system.calls, other.phase.hasHandle = true →
        other.swapId ≠ swapId) :
    (system.proceed i call .ended { system.admissions with locks := locks }).Sound := by
  have hmem := List.mem_of_getElem? hcall
  have hcalls : ∀ other ∈ system.calls.set i { call with phase := .ended },
      other ∈ system.calls ∨ other = { call with phase := .ended } :=
    fun other hother => List.mem_or_eq_of_mem_set hother
  have hsub : ∀ swapId, ∀ address ∈ locks swapId, address ∈ system.admissions.locks swapId := by
    intro swapId address haddress
    rcases hlocks swapId with heq | ⟨hnone, -⟩
    · exact heq ▸ haddress
    · rw [hnone] at haddress
      cases haddress
  refine ⟨fun swapId address haddress => h.entry_allocated swapId address (hsub _ _ haddress),
    ?_, fun swapId swapId' address haddress haddress' =>
      h.injective swapId swapId' address (hsub _ _ haddress) (hsub _ _ haddress'), ?_, ?_, ?_⟩
  · intro other hother
    rcases hcalls other hother with hother | rfl
    · exact h.call_allocated other hother
    · exact h.call_allocated call hmem
  · intro other hother hhas
    rcases hcalls other hother with hother | rfl
    · rcases hlocks other.swapId with heq | ⟨-, hnobody⟩
      · exact heq.trans (h.mapped other hother hhas)
      · exact absurd rfl (hnobody other hother hhas)
    · cases hhas
  · intro swapId address haddress
    have hset : (system.calls.set i { call with phase := .ended }).countP
        (Call.handles address) = system.calls.countP (Call.handles address) :=
      countP_set_eq hcall (by simp [Call.handles, hphase, Phase.hasHandle])
    exact (h.counted swapId address (hsub _ _ haddress)).trans (congrArg (· + 1) hset.symm)
  · intro address
    have hset : (system.calls.set i { call with phase := .ended }).countP
        (Call.guards address) = system.calls.countP (Call.guards address) :=
      countP_set_eq hcall (by rw [Call.guards, Call.guards, hphase]; rfl)
    exact hset.trans (h.guarded address)

/-- A mutex in the map whose handle there is the only one has no call with a handle. -/
theorem Sound.hasHandle_eq_false (h : system.Sound) {swapId : Uuid} {address : ℕ}
    (haddress : system.admissions.locks swapId = some address)
    (hone : (system.admissions.mutexes address).strongCount = 1) :
    ∀ other ∈ system.calls, other.phase.hasHandle = true → other.swapId ≠ swapId := by
  intro other hother hhas hswap
  have hmapped := h.mapped other hother hhas
  rw [hswap, haddress] at hmapped
  obtain rfl := Option.some.inj hmapped
  have hzero : system.calls.countP (Call.handles other.mutex) = 0 :=
    Nat.succ.inj ((h.counted swapId other.mutex haddress).symm.trans hone)
  have hnone := List.countP_eq_zero.mp hzero other hother
  simp [Call.handles, hhas] at hnone

theorem Sound.removeUnused (h : system.Sound) (hcall : system.calls[i]? = some call)
    (hphase : call.phase = .released) (swapId : Uuid) :
    (system.proceed i call .ended (system.admissions.removeUnused swapId)).Sound := by
  have hkept : (system.proceed i call .ended system.admissions).Sound :=
    h.ended hcall hphase fun swapId => .inl rfl
  unfold AdmissionLocks.removeUnused
  cases haddress : system.admissions.locks swapId with
  | none => exact hkept
  | some address =>
      dsimp only
      split
      case isFalse => exact hkept
      case isTrue hone =>
          refine h.ended hcall hphase fun swapId' => ?_
          by_cases heq : swapId' = swapId
          · subst heq
            exact .inr ⟨Function.update_self .., h.hasHandle_eq_false haddress hone⟩
          · exact .inl (Function.update_of_ne heq ..)

theorem orDefault_locks (swapId : Uuid) (admissions : AdmissionLocks) :
    (admissions.orDefault swapId).2.locks swapId = some (admissions.orDefault swapId).1 := by
  unfold orDefault
  cases hentry : admissions.locks swapId with
  | some address => exact hentry
  | none => exact Function.update_self ..

/-- A new entry has a mutex that no call has a handle of. -/
theorem Sound.orDefault (h : system.Sound) (swapId : Uuid) :
    Sound ⟨(system.admissions.orDefault swapId).2, system.calls⟩ := by
  unfold AdmissionLocks.orDefault
  cases hentry : system.admissions.locks swapId with
  | some address => exact h
  | none =>
      have hold : ∀ other ∈ system.calls, other.mutex ≠ system.admissions.allocated :=
        fun other hother => (h.call_allocated other hother).ne
      have hentries : ∀ swapId', ∀ address ∈ Function.update system.admissions.locks swapId
          (some system.admissions.allocated) swapId',
          swapId' = swapId ∧ address = system.admissions.allocated ∨
            swapId' ≠ swapId ∧ address ∈ system.admissions.locks swapId' ∧
              address ≠ system.admissions.allocated := by
        intro swapId' address haddress
        by_cases heq : swapId' = swapId
        · subst heq
          rw [Function.update_self] at haddress
          exact .inl ⟨rfl, (Option.some.inj haddress).symm⟩
        · rw [Function.update_of_ne heq] at haddress
          exact .inr ⟨heq, haddress, (h.entry_allocated swapId' address haddress).ne⟩
      refine ⟨?_, ?_, ?_, ?_, ?_, ?_⟩
      · intro swapId' address haddress
        rcases hentries swapId' address haddress with ⟨-, rfl⟩ | ⟨-, haddress, -⟩
        · exact Nat.lt_succ_self _
        · exact Nat.lt_succ_of_lt (h.entry_allocated swapId' address haddress)
      · exact fun call hcall => Nat.lt_succ_of_lt (h.call_allocated call hcall)
      · intro swapId₁ swapId₂ address haddress₁ haddress₂
        rcases hentries swapId₁ address haddress₁ with ⟨h₁, hnew⟩ | ⟨h₁, haddress₁, hold₁⟩ <;>
          rcases hentries swapId₂ address haddress₂ with ⟨h₂, hnew₂⟩ | ⟨h₂, haddress₂, hold₂⟩
        · exact h₁.trans h₂.symm
        · exact absurd hnew hold₂
        · exact absurd hnew₂ hold₁
        · exact h.injective swapId₁ swapId₂ address haddress₁ haddress₂
      · intro call hcall hhas
        have hmapped := h.mapped call hcall hhas
        refine (Function.update_of_ne ?_ ..).trans hmapped
        intro heq
        rw [heq, hentry] at hmapped
        cases hmapped
      · intro swapId' address haddress
        rcases hentries swapId' address haddress with ⟨-, rfl⟩ | ⟨-, haddress, hne⟩
        · have hzero : system.calls.countP (Call.handles system.admissions.allocated) = 0 :=
            List.countP_eq_zero.mpr fun other hother => by simp [Call.handles, hold other hother]
          dsimp only
          rw [hzero, Function.update_self]
        · dsimp only
          rw [Function.update_of_ne hne]
          exact h.counted swapId' address haddress
      · intro address
        dsimp only
        by_cases heq : address = system.admissions.allocated
        · subst heq
          rw [Function.update_self, TokioMutex.locked_unlocked]
          exact List.countP_eq_zero.mpr fun other hother => by
            simp [Call.guards, hold other hother]
        · rw [Function.update_of_ne heq]
          exact h.guarded address

/-- A call gets a handle of the mutex of its swap. -/
theorem Sound.cloneHandle (h : system.Sound) {swapId : Uuid} {address : ℕ}
    (hentry : system.admissions.locks swapId = some address) :
    Sound ⟨system.admissions.cloneHandle address,
      system.calls ++ [⟨swapId, address, .cloned⟩]⟩ := by
  refine ⟨h.entry_allocated, ?_, h.injective, ?_, ?_, ?_⟩
  · intro call hcall
    rcases List.mem_append.mp hcall with hcall | hcall
    · exact h.call_allocated call hcall
    · obtain rfl := List.mem_singleton.mp hcall
      exact h.entry_allocated swapId address hentry
  · intro call hcall hhas
    rcases List.mem_append.mp hcall with hcall | hcall
    · exact h.mapped call hcall hhas
    · obtain rfl := List.mem_singleton.mp hcall
      exact hentry
  · intro swapId' address' haddress
    have hcounted := h.counted swapId' address' haddress
    simp only [AdmissionLocks.cloneHandle, setMutex]
    rw [List.countP_append, List.countP_singleton]
    by_cases heq : address' = address
    · subst heq
      rw [Function.update_self, hcounted]
      simp [Call.handles, Phase.hasHandle]
    · rw [Function.update_of_ne heq, hcounted]
      simp [Call.handles, Ne.symm heq]
  · intro address'
    simp only [AdmissionLocks.cloneHandle, setMutex]
    rw [List.countP_append, List.countP_singleton, h.guarded address']
    by_cases heq : address' = address
    · subst heq
      rw [Function.update_self]
      simp [Call.guards]
    · rw [Function.update_of_ne heq]
      simp [Call.guards]

theorem Sound.advance (h : system.Sound) (hcall : system.calls[i]? = some call) :
    (system.advance i call).Sound := by
  unfold System.advance
  cases hphase : call.phase with
  | cloned => exact h.poll hcall (.inl hphase)
  | waiting => exact h.poll hcall (.inr hphase)
  | abandoned =>
      exact h.dropHandle hcall (by rw [hphase]; rfl) (by rw [hphase]; nofun) (.inr rfl)
  | holding => exact h.unlock hcall hphase
  | unlocked =>
      exact h.dropHandle hcall (by rw [hphase]; rfl) (by rw [hphase]; nofun) (.inl rfl)
  | released => exact h.removeUnused hcall hphase call.swapId
  | ended => exact h

/-- **The invariant is kept** by every step. -/
theorem Sound.step (h : system.Sound) (event : Event) : (system.step event).Sound := by
  cases event with
  | lock swapId =>
      exact (h.orDefault swapId).cloneHandle (orDefault_locks swapId system.admissions)
  | advance i =>
      simp only [System.step]
      cases hcall : system.calls[i]? with
      | none => exact h
      | some call => exact h.advance hcall
  | cancel i =>
      simp only [System.step]
      cases hcall : system.calls[i]? with
      | none => exact h
      | some call =>
          dsimp only
          split
          case isTrue hphase => exact h.abandon hcall hphase
          case isFalse => exact h

theorem sound_initial : initial.Sound := by
  refine ⟨nofun, nofun, nofun, nofun, nofun, fun address => ?_⟩
  exact (congrArg Bool.toNat TokioMutex.locked_unlocked).symm

theorem Sound.run (h : system.Sound) (events : List Event) : (system.run events).Sound := by
  induction events generalizing system with
  | nil => exact h
  | cons event events ih => exact ih (h.step event)

/-! ## Exclusion -/

/-- The step of a call is no other call's. -/
theorem mem_proceed {j : ℕ} {other : Call} (hother : system.calls[j]? = some other) (hne : i ≠ j)
    (call : Call) (phase : Phase) (admissions : AdmissionLocks) :
    other ∈ (system.proceed i call phase admissions).calls :=
  List.mem_of_getElem? ((List.getElem?_set_ne hne).trans hother)

theorem self_mem_proceed (hcall : system.calls[i]? = some call) (phase : Phase)
    (admissions : AdmissionLocks) :
    { call with phase := phase } ∈ (system.proceed i call phase admissions).calls :=
  List.mem_set (List.getElem?_eq_some_iff.mp hcall).1 _

theorem Sound.excludes (h : system.Sound) : system.Excludes := by
  intro i j call hcall other hother hholding hholding' hswap
  by_contra hne
  have hmutex : other.mutex = call.mutex := by
    have hmapped := h.mapped call (List.mem_of_getElem? hcall) (by rw [hholding]; rfl)
    have hmapped' := h.mapped other (List.mem_of_getElem? hother) (by rw [hholding']; rfl)
    rw [← hswap, hmapped] at hmapped'
    exact (Option.some.inj hmapped').symm
  -- Both are guards of one mutex.  Without the first there is still one, so there are two.
  have hset := countP_set (Call.guards call.mutex) hcall { call with phase := .ended }
  have hguards : Call.guards call.mutex call = true := by simp [Call.guards, hholding]
  have hended : Call.guards call.mutex { call with phase := .ended } = false := Bool.and_false _
  have hpos : 0 < (system.calls.set i { call with phase := .ended }).countP
      (Call.guards call.mutex) :=
    List.countP_pos_iff.mpr ⟨other, mem_proceed hother hne call .ended system.admissions,
      by simp [Call.guards, hmutex, hholding']⟩
  have hle := Bool.toNat_le (TokioMutex.locked (system.admissions.mutexes call.mutex).mutex)
  rw [hguards, hended, Bool.toNat_true, Bool.toNat_false] at hset
  rw [← h.guarded] at hle
  omega

/-- **At most one guard of a swap is live**, whatever calls are made, cancelled and ended in
whatever order. -/
theorem excludes (events : List Event) : (initial.run events).Excludes :=
  (sound_initial.run events).excludes

/-! ## Cleaning up -/

/-- A swap is busy with each of its calls that has not ended. -/
theorem Busy.of_ne {j : ℕ} {other : Call} (hother : system.calls[j]? = some other)
    (hne : i ≠ j) (hphase : other.phase ≠ .ended) (call : Call) (phase : Phase)
    (admissions : AdmissionLocks) :
    (system.proceed i call phase admissions).Busy other.swapId :=
  ⟨other, mem_proceed hother hne call phase admissions, rfl, hphase⟩

/-- A call that does not end leaves no swap idle. -/
theorem Busy.proceed {swapId : Uuid} (h : system.Busy swapId)
    (hcall : system.calls[i]? = some call) (hphase : phase ≠ .ended)
    (admissions : AdmissionLocks) : (system.proceed i call phase admissions).Busy swapId := by
  obtain ⟨other, hother, rfl, hbusy⟩ := h
  obtain ⟨j, hj⟩ := List.getElem?_of_mem hother
  by_cases heq : i = j
  · subst heq
    obtain rfl := Option.some.inj (hcall.symm.trans hj)
    exact ⟨_, self_mem_proceed hcall phase admissions, rfl, hphase⟩
  · exact .of_ne hj heq hbusy call phase admissions

/-- A call that ends leaves no swap idle but its own. -/
theorem Busy.ended {swapId : Uuid} (h : system.Busy swapId)
    (hcall : system.calls[i]? = some call) (hne : swapId ≠ call.swapId)
    (admissions : AdmissionLocks) :
    (system.proceed i call .ended admissions).Busy swapId := by
  obtain ⟨other, hother, rfl, hbusy⟩ := h
  obtain ⟨j, hj⟩ := List.getElem?_of_mem hother
  refine .of_ne hj ?_ hbusy call .ended admissions
  rintro rfl
  obtain rfl := Option.some.inj (hcall.symm.trans hj)
  exact hne rfl

/-- A step that ends no call and adds no entry cleans up after itself. -/
theorem CleansUp.proceed (h : system.CleansUp) (hcall : system.calls[i]? = some call)
    (hphase : phase ≠ .ended) {admissions : AdmissionLocks}
    (hlocks : admissions.locks = system.admissions.locks) :
    (system.proceed i call phase admissions).CleansUp := by
  intro swapId hidle
  exact (congrFun hlocks swapId).trans (h swapId fun hbusy => hidle (hbusy.proceed hcall hphase _))

/-- **The last step of a guard cleans up**: either its swap's entry goes or another call has a
handle of the mutex, and is busy with the swap. -/
theorem CleansUp.removeUnused (h : system.CleansUp) (hsound : system.Sound)
    (hcall : system.calls[i]? = some call) (hphase : call.phase = .released) :
    (system.proceed i call .ended (system.admissions.removeUnused call.swapId)).CleansUp := by
  intro swapId hidle
  by_cases heq : swapId = call.swapId
  · subst heq
    show (system.admissions.removeUnused call.swapId).locks call.swapId = none
    unfold AdmissionLocks.removeUnused
    cases haddress : system.admissions.locks call.swapId with
    | none => exact haddress
    | some address =>
        dsimp only
        split
        case isTrue => exact Function.update_self ..
        case isFalse hone =>
          refine absurd ?_ hidle
          have hcounted := hsound.counted call.swapId address haddress
          obtain ⟨other, hother, hhandles⟩ : ∃ other ∈ system.calls,
              Call.handles address other = true := by
            refine List.countP_pos_iff.mp (Nat.pos_of_ne_zero fun hzero => hone ?_)
            rw [hcounted, hzero]
          simp only [Call.handles, Bool.and_eq_true, beq_iff_eq] at hhandles
          obtain ⟨rfl, hhas⟩ := hhandles
          have hswap := hsound.injective other.swapId call.swapId other.mutex
            (hsound.mapped other hother hhas) haddress
          obtain ⟨j, hj⟩ := List.getElem?_of_mem hother
          rw [← hswap]
          refine .of_ne hj ?_ (fun hended => ?_) call .ended _
          · rintro rfl
            obtain rfl := Option.some.inj (hcall.symm.trans hj)
            rw [hphase] at hhas
            cases hhas
          · rw [hended] at hhas
            cases hhas
  · have hnone := h swapId fun hbusy => hidle (hbusy.ended hcall heq _)
    show (system.admissions.removeUnused call.swapId).locks swapId = none
    unfold AdmissionLocks.removeUnused
    split
    · split
      · exact (Function.update_of_ne heq ..).trans hnone
      · exact hnone
    · exact hnone

/-- **A cancelled call cleans up** exactly if it leaves somebody: its drop removes nothing, so
only a call that is busy with the swap can do it. -/
theorem CleansUp.discard_iff (h : system.CleansUp) (hsound : system.Sound)
    (hcall : system.calls[i]? = some call) (hphase : call.phase = .abandoned) :
    (system.proceed i call .ended (system.admissions.dropHandle call.mutex)).CleansUp ↔
      ¬ system.LeavesNobody i := by
  constructor
  · rintro hclean ⟨call', hcall', -, hnobody⟩
    obtain rfl := Option.some.inj (hcall.symm.trans hcall')
    have hmapped := hsound.mapped call (List.mem_of_getElem? hcall) (by rw [hphase]; rfl)
    have hnone := hclean call.swapId ?_
    · exact absurd (hmapped.symm.trans hnone) (by simp)
    · rintro ⟨other, hother, hswap, hbusy⟩
      obtain ⟨j, hj⟩ := List.getElem?_of_mem hother
      by_cases heq : i = j
      · subst heq
        have hself := List.getElem?_set_self (a := { call with phase := Phase.ended })
          (List.getElem?_eq_some_iff.mp hcall).1
        obtain rfl := Option.some.inj (hself.symm.trans hj)
        exact hbusy rfl
      · have hkept := (List.getElem?_set_ne heq).symm.trans hj
        exact heq (hnobody j other hkept hswap hbusy).symm
  · intro hsomebody swapId hidle
    refine h swapId fun hbusy => ?_
    by_cases heq : swapId = call.swapId
    · subst heq
      refine hsomebody ⟨call, hcall, hphase, fun j other hother hswap hother' => ?_⟩
      by_contra hne
      exact hidle (hswap ▸ .of_ne hother (Ne.symm hne) hother' call .ended _)
    · exact hidle (hbusy.ended hcall heq _)

/-- A new call is busy with its swap, so the entry that it may make is accounted for. -/
theorem CleansUp.lock (h : system.CleansUp) (swapId : Uuid) :
    (system.step (.lock swapId)).CleansUp := by
  intro swapId' hidle
  have hne : swapId' ≠ swapId := by
    rintro rfl
    exact hidle ⟨_, List.mem_append_right _ (List.mem_singleton_self _), rfl, by simp⟩
  have hnone := h swapId' fun ⟨call, hcall, hswap, hbusy⟩ =>
    hidle ⟨call, List.mem_append_left _ hcall, hswap, hbusy⟩
  show (system.admissions.orDefault swapId).2.locks swapId' = none
  unfold AdmissionLocks.orDefault
  split
  · exact hnone
  · exact (Function.update_of_ne hne ..).trans hnone

/-- **What one step leaves behind.**  The step of a cancelled call that leaves nobody, and no
other, leaves an entry that nobody is busy with. -/
theorem CleansUp.step_iff (h : system.CleansUp) (hsound : system.Sound) (event : Event) :
    (system.step event).CleansUp ↔ ∀ i, event = .advance i → ¬ system.LeavesNobody i := by
  have hiff : ∀ {i call}, system.calls[i]? = some call → call.phase ≠ .abandoned →
      ∀ {after : System}, after.CleansUp → (after.CleansUp ↔ ¬ system.LeavesNobody i) := by
    intro i call hcall hphase after hafter
    refine iff_of_true hafter ?_
    rintro ⟨call', hcall', hphase', -⟩
    obtain rfl := Option.some.inj (hcall.symm.trans hcall')
    exact hphase hphase'
  cases event with
  | lock swapId => exact iff_of_true (h.lock swapId) nofun
  | cancel i =>
      refine iff_of_true ?_ nofun
      simp only [System.step]
      cases hcall : system.calls[i]? with
      | none => exact h
      | some call =>
          dsimp only
          split
          case isTrue => exact h.proceed hcall (by simp) rfl
          case isFalse => exact h
  | advance i =>
      rw [show (∀ j, Event.advance i = .advance j → ¬ system.LeavesNobody j) ↔
        ¬ system.LeavesNobody i from ⟨fun h => h i rfl, fun h j hj => Event.advance.inj hj ▸ h⟩]
      simp only [System.step]
      cases hcall : system.calls[i]? with
      | none =>
          refine iff_of_true h ?_
          rintro ⟨call, hcall', -⟩
          cases hcall.symm.trans hcall'
      | some call =>
          dsimp only
          unfold System.advance
          cases hphase : call.phase with
          | cloned =>
              refine hiff hcall (by simp [hphase]) (h.proceed hcall ?_ rfl)
              split <;> simp
          | waiting =>
              refine hiff hcall (by simp [hphase]) (h.proceed hcall ?_ rfl)
              split <;> simp
          | abandoned => exact h.discard_iff hsound hcall hphase
          | holding => exact hiff hcall (by simp [hphase]) (h.proceed hcall (by simp) rfl)
          | unlocked => exact hiff hcall (by simp [hphase]) (h.proceed hcall (by simp) rfl)
          | released =>
              exact hiff hcall (by simp [hphase]) (h.removeUnused hsound hcall hphase)
          | ended => exact hiff hcall (by simp [hphase]) h

theorem cleansUp_initial : initial.CleansUp := fun _ _ => rfl

theorem run_concat (events : List Event) (event : Event) :
    initial.run (events ++ [event]) = (initial.run events).step event :=
  List.foldl_concat ..

end System

/-- **Admission locks exclude, and clean up** unless a cancelled call is the last one: in every
run, whatever calls are made, polled, cancelled and ended in whatever order, there has at all
times been at most one live guard of each swap and no entry of a swap that no call was busy
with, exactly if no call that was cancelled as it waited has dropped its handle as the last
call that was busy with its swap. -/
theorem excludes_and_cleansUp_iff (events : List Event) :
    (∀ before, before <+: events →
      (System.initial.run before).Excludes ∧ (System.initial.run before).CleansUp) ↔
      ∀ before i, before ++ [.advance i] <+: events →
        ¬ (System.initial.run before).LeavesNobody i := by
  constructor
  · intro h before i hbefore
    have hclean := (h before ((List.prefix_append _ _).trans hbefore)).2
    have hafter := (h _ hbefore).2
    rw [System.run_concat, hclean.step_iff (System.sound_initial.run before)] at hafter
    exact hafter i rfl
  · intro h before hbefore
    refine ⟨System.excludes before, ?_⟩
    induction before using List.reverseRecOn with
    | nil => exact System.cleansUp_initial
    | append_singleton before event ih =>
        have hclean := ih ((List.prefix_append _ _).trans hbefore)
        rw [System.run_concat, hclean.step_iff (System.sound_initial.run before)]
        rintro i rfl
        exact h before i hbefore

end AdmissionLocks

end

/-! ## A cancelled wait -/

namespace CancelledWait

open AdmissionLocks (Event System)

/-- A mutex that serves the calls in their order: whether a guard is out, and the calls that
wait. -/
structure Queue where
  held : Bool
  waiting : List ℕ

/-- A free mutex is for the first call that waits, if there is one. -/
def Queue.poll (i : ℕ) (queue : Queue) : Bool × Queue :=
  if queue.held = false ∧ (queue.waiting = [] ∨ queue.waiting.head? = some i) then
    (true, ⟨true, queue.waiting.erase i⟩)
  else if i ∈ queue.waiting then (false, queue)
  else (false, { queue with waiting := queue.waiting ++ [i] })

@[reducible] def mutex : TokioMutex where
  State := Queue
  unlocked := ⟨false, []⟩
  poll := Queue.poll
  abandon i queue := { queue with waiting := queue.waiting.erase i }
  unlock queue := { queue with held := false }
  locked := Queue.held
  locked_unlocked := rfl
  poll_of_locked i queue hlocked := by
    unfold Queue.poll
    rw [if_neg fun h => Bool.false_ne_true (h.1.symm.trans hlocked)]
    split <;> rfl
  locked_poll i queue := by
    unfold Queue.poll
    split
    · exact (Bool.or_true _).symm
    · split <;> exact (Bool.or_false _).symm
  locked_abandon _ _ := rfl
  locked_unlock _ := rfl

local instance : TokioMutex := mutex

/-- Two requests of swap 7 at once.  The first has the lock and the second waits for it.  The
guard of the first is dropped, and before it is its turn so is the second request. -/
def events : List Event :=
  [.lock 7, .advance 0, .lock 7, .advance 1, .advance 0, .advance 0, .advance 0, .cancel 1,
    .advance 1]

/-- Both requests are gone, the entry of their swap is not. -/
theorem entry_stays :
    ¬ ((System.initial.run events).Excludes ∧ (System.initial.run events).CleansUp) := by
  rintro ⟨-, hclean⟩
  have hidle : ¬ (System.initial.run events).Busy 7 := by
    rintro ⟨call, hcall, -, hbusy⟩
    have hended : ∀ call ∈ (System.initial.run events).calls, call.phase = .ended := by decide
    exact hbusy (hended call hcall)
  have hnone := hclean 7 hidle
  have hentry : (System.initial.run events).admissions.locks 7 = some 0 := by decide
  exact absurd (hentry.symm.trans hnone) (by simp)

/-- Had the second request gone first, the guard would have removed the entry. -/
example :
    (System.initial.run [.lock 7, .advance 0, .lock 7, .advance 1, .cancel 1, .advance 1,
      .advance 0, .advance 0, .advance 0]).admissions.locks 7 = none := by
  decide

end CancelledWait

end PubkySwap
