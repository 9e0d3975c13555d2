import PubkySwap.Dispatch
import Mathlib.Algebra.BigOperators.Group.Finset.Piecewise
import Mathlib.Algebra.Order.BigOperators.Group.Finset

/-!
# What the dispatcher keeps to

One invariant carries every statement about the dispatcher.  Of each worker it says where
the messages are that it has accepted; of the map, that a worker outside of it has nothing
left to do and that the counter of one inside is what it has left to do; of a call of
`dispatch`, that what it has added up, with what it has yet to add, is no less than what is
left to do in all (`Sound`).  The tasks only ever make that less.

## Main result

* `Sound.run` — the invariant is kept, whatever calls are made and however the tasks run
  beside them.
-/

namespace PubkySwap

namespace Dispatch

/-! ## Sums over the workers -/

section

variable {α : Type} (g : α → ℕ) (all : ℕ → α) {id : ℕ} (a : α) {s : Finset ℕ}

/-- A sum over the workers, of which one is replaced: what the old one had is taken off, what
the new one has is added. -/
theorem sum_update (hid : id ∈ s) :
    ∑ i ∈ s, g (Function.update all id a i) + g (all id) = ∑ i ∈ s, g (all i) + g a := by
  rw [← Finset.add_sum_erase s _ hid, ← Finset.add_sum_erase s (fun i => g (all i)) hid,
    Function.update_self]
  have hrest : ∑ i ∈ s.erase id, g (Function.update all id a i) =
      ∑ i ∈ s.erase id, g (all i) :=
    Finset.sum_congr rfl fun i hi => by rw [Function.update_of_ne (Finset.ne_of_mem_erase hi)]
  omega

/-- A sum over workers of which none is replaced. -/
theorem sum_update_of_notMem (hid : id ∉ s) :
    ∑ i ∈ s, g (Function.update all id a i) = ∑ i ∈ s, g (all i) := by
  refine Finset.sum_congr rfl fun i hi => ?_
  rw [Function.update_of_ne]
  rintro rfl
  exact hid hi

end

/-! ## One worker -/

variable {M : Type} {admission : M → Bool} {perPeerCapacity : ℕ} {message : M}

/-- What holds of a worker throughout: each message that it has accepted is finished, in
hand, queued or dropped, in this order, and the handler has begun with those that are
finished and the one in hand. -/
structure Worker.Sound (admission : M → Bool) (perPeerCapacity : ℕ) (worker : Worker M) :
    Prop where
  bounded : worker.queue.length ≤ perPeerCapacity
  permit : ∀ message permit, worker.phase = .handling message permit →
    permit = !admission message
  accounted : worker.log.accepted =
    worker.log.finished ++ worker.phase.inHand ++ worker.queue ++ worker.log.dropped
  alive : worker.phase.isEnded = false →
    worker.log.dropped = [] ∧ worker.log.started = worker.log.finished ++ worker.phase.begun
  ended : worker.phase.isEnded = true → worker.queue = []
  finished_started : worker.log.finished <+: worker.log.started
  started_accepted : worker.log.started <+: worker.log.accepted

namespace Worker

variable {worker : Worker M}

/-- A task that is over has dropped what it had: neither its queue nor its hand has a message,
so that its counter has nothing to count. -/
theorem Sound.outstanding_of_ended (h : worker.Sound admission perPeerCapacity)
    (hended : worker.phase.isEnded = true) : worker.outstanding = 0 := by
  rw [outstanding, h.ended hended]
  cases hphase : worker.phase with
  | ended => rfl
  | _ => simp [hphase, Phase.isEnded] at hended

/-- The counter is no part of what holds of a worker by itself: what it counts is a matter of
the call that sends, and is said by `Counts`. -/
theorem Sound.fetchAdd (h : worker.Sound admission perPeerCapacity) :
    worker.fetchAdd.Sound admission perPeerCapacity :=
  ⟨h.bounded, h.permit, h.accounted, h.alive, h.ended, h.finished_started, h.started_accepted⟩

/-- Nor is what is taken off it. -/
theorem Sound.fetchSub (h : worker.Sound admission perPeerCapacity) :
    worker.fetchSub.Sound admission perPeerCapacity :=
  ⟨h.bounded, h.permit, h.accounted, h.alive, h.ended, h.finished_started, h.started_accepted⟩

/-- A new worker has accepted nothing, so that it has nothing to account for. -/
theorem Sound.spawned (admission : M → Bool) (perPeerCapacity : ℕ) (peer : String) :
    ({ peer := peer } : Worker M).Sound admission perPeerCapacity :=
  ⟨Nat.zero_le _, nofun, rfl, fun _ => ⟨rfl, rfl⟩, fun _ => rfl, List.prefix_rfl,
    List.prefix_rfl⟩

/-- The task takes the first message off its queue: what was queued is in hand, at the same
place in the order. -/
theorem Sound.receive (h : worker.Sound admission perPeerCapacity)
    (hphase : worker.phase = .idle) {rest : List M} (hqueue : worker.queue = message :: rest) :
    (worker.receive message rest).Sound admission perPeerCapacity := by
  have halive := h.alive (by rw [hphase]; rfl)
  have haccounted := h.accounted
  have hbounded := h.bounded
  rw [hphase] at halive haccounted
  rw [hqueue] at haccounted hbounded
  refine ⟨?_, nofun, ?_, fun _ => halive, nofun, h.finished_started, h.started_accepted⟩
  · exact (Nat.le_succ _).trans hbounded
  · show worker.log.accepted = worker.log.finished ++ [message] ++ rest ++ worker.log.dropped
    rw [haccounted]
    simp [Phase.inHand]

/-- The handler begins with the message in hand, which is the next after those that are
finished.  It holds a permit unless its message is one that needs none. -/
theorem Sound.start (h : worker.Sound admission perPeerCapacity)
    (hphase : worker.phase = .received message) {permit : Bool}
    (hpermit : permit = !admission message) :
    (worker.start message permit).Sound admission perPeerCapacity := by
  obtain ⟨hdropped, hstarted⟩ := h.alive (by rw [hphase]; rfl)
  have haccounted := h.accounted
  rw [hphase] at hstarted haccounted
  rw [Phase.begun, List.append_nil] at hstarted
  refine ⟨h.bounded, ?_, haccounted, fun _ => ⟨hdropped, ?_⟩, nofun, ?_, ?_⟩
  · rintro message' permit' hhandling
    cases hhandling
    exact hpermit
  · exact congrArg (· ++ [message]) hstarted
  · exact h.finished_started.trans (List.prefix_append _ _)
  · show worker.log.started ++ [message] <+: worker.log.accepted
    rw [hstarted, haccounted, Phase.inHand, List.append_assoc _ worker.queue]
    exact List.prefix_append _ _

/-- The handler is done with the message in hand, which it had begun with last. -/
theorem Sound.finish (h : worker.Sound admission perPeerCapacity) {permit : Bool}
    (hphase : worker.phase = .handling message permit) :
    (worker.finish message permit).Sound admission perPeerCapacity := by
  obtain ⟨hdropped, hstarted⟩ := h.alive (by rw [hphase]; rfl)
  have haccounted := h.accounted
  rw [hphase] at hstarted haccounted
  refine ⟨h.bounded, nofun, ?_, fun _ => ⟨hdropped, ?_⟩, nofun, ?_, h.started_accepted⟩
  · show worker.log.accepted =
      worker.log.finished ++ [message] ++ [] ++ worker.queue ++ worker.log.dropped
    rw [haccounted, List.append_nil]
    rfl
  · show worker.log.started = worker.log.finished ++ [message] ++ []
    rw [hstarted, List.append_nil]
    rfl
  · show worker.log.finished ++ [message] <+: worker.log.started
    rw [hstarted]
    exact List.prefix_rfl

/-- The task gives its permit back, or lets go of it as its handler panics. -/
theorem Sound.setPhase (h : worker.Sound admission perPeerCapacity) {phase : Phase M}
    (halive : worker.phase.isEnded = false) (hended : phase.isEnded = false)
    (hhandles : phase.handles = false) (hinHand : phase.inHand = worker.phase.inHand)
    (hbegun : phase.begun = worker.phase.begun) :
    ({ worker with phase := phase } : Worker M).Sound admission perPeerCapacity := by
  obtain ⟨hdropped, hstarted⟩ := h.alive halive
  refine ⟨h.bounded, ?_, ?_, fun _ => ⟨hdropped, ?_⟩, ?_, h.finished_started,
    h.started_accepted⟩
  · rintro message permit rfl
    cases hhandles
  · show worker.log.accepted =
      worker.log.finished ++ phase.inHand ++ worker.queue ++ worker.log.dropped
    rw [hinHand]
    exact h.accounted
  · show worker.log.started = worker.log.finished ++ phase.begun
    rw [hbegun]
    exact hstarted
  · intro hended'
    cases hended.symm.trans hended'

/-- **A task that ends drops what it has**: the message in hand, and then those queued, in
their order.  Nothing that it accepted is unaccounted for. -/
theorem Sound.stop (h : worker.Sound admission perPeerCapacity)
    (halive : worker.phase.isEnded = false) : worker.stop.Sound admission perPeerCapacity := by
  refine ⟨Nat.zero_le _, nofun, ?_, nofun, fun _ => rfl, h.finished_started,
    h.started_accepted⟩
  show worker.log.accepted =
    worker.log.finished ++ [] ++ [] ++ (worker.phase.inHand ++ worker.queue)
  rw [h.accounted, (h.alive halive).1]
  simp

/-- A message that is sent goes to the end of the queue, if there is room and somebody who
takes it off again. -/
theorem Sound.accept (h : worker.Sound admission perPeerCapacity)
    (halive : worker.phase.isEnded = false) (hroom : worker.queue.length < perPeerCapacity)
    (message : M) : (worker.accept message).Sound admission perPeerCapacity := by
  obtain ⟨hdropped, hstarted⟩ := h.alive halive
  refine ⟨?_, h.permit, ?_, h.alive, ?_, h.finished_started, ?_⟩
  · show (worker.queue ++ [message]).length ≤ perPeerCapacity
    rw [List.length_append]
    exact hroom
  · show worker.log.accepted ++ [message] = worker.log.finished ++ worker.phase.inHand ++
      (worker.queue ++ [message]) ++ worker.log.dropped
    rw [h.accounted, hdropped]
    simp
  · intro hended
    cases halive.symm.trans hended
  · exact h.started_accepted.trans (List.prefix_append _ _)

end Worker

/-! ## The invariant -/

/-- One message is on the worker's counter and not yet sent. -/
def Call.unsent : Call M → ℕ → ℕ
  | .sending worker _ _ _, id => if id = worker then 1 else 0
  | .retaining _ _ _, _ | .counting _ _ _ _, _ | .queueing _ _ _, _ => 0

end Dispatch

open Dispatch

namespace Dispatcher

variable {M : Type}

/-- The messages that are on a worker's counter and not yet sent to it: one if the call that
is going on has just counted it, and none otherwise. -/
def unsent (dispatcher : Dispatcher M) (id : ℕ) : ℕ :=
  match dispatcher.call with
  | some call => call.unsent id
  | none => 0

/-- The messages accepted and not yet finished. -/
def total (dispatcher : Dispatcher M) : ℕ :=
  ∑ id ∈ Finset.range dispatcher.spawned, (dispatcher.all id).outstanding

/-- What a call knows of the workers: those it has yet to look at are in the map, and what
it has added up, with what it has yet to add, is no less than what is left to do. -/
def Covers (dispatcher : Dispatcher M) : Call M → Prop
  | .retaining _ _ left => ∀ id ∈ left, dispatcher.Maps id
  | .counting _ _ left queued => (∀ id ∈ left, dispatcher.Maps id) ∧
      dispatcher.total ≤ queued + ∑ id ∈ left, (dispatcher.all id).pending
  | .queueing id _ queued => dispatcher.Maps id ∧ dispatcher.total ≤ queued
  | .sending id _ _ queued =>
      dispatcher.Maps id ∧ dispatcher.total ≤ queued ∧ queued < dispatcher.capacity

/-- The counter of a worker in the map: what it has left to do, and the message on its way
to it, if there is one.  Nobody takes anything off it once its task is over. -/
def Counts (dispatcher : Dispatcher M) (id : ℕ) : Prop :=
  (dispatcher.all id).outstanding + dispatcher.unsent id ≤ (dispatcher.all id).pending ∧
    ((dispatcher.all id).phase.isEnded = false →
      (dispatcher.all id).pending = (dispatcher.all id).outstanding + dispatcher.unsent id)

/-- **What holds of the dispatcher throughout**, `maxHandlers` being its permits. -/
structure Sound (maxHandlers perPeerCapacity capacity : ℕ) (dispatcher : Dispatcher M) : Prop where
  unspawned : ∀ id, dispatcher.spawned ≤ id → (dispatcher.all id).phase.isEnded = true
  worker : ∀ id, (dispatcher.all id).Sound dispatcher.admission dispatcher.perPeerCapacity
  spawned : ∀ peer id, dispatcher.workers peer = some id →
    id < dispatcher.spawned ∧ (dispatcher.all id).peer = peer
  retired : ∀ id, ¬ dispatcher.Maps id → (dispatcher.all id).outstanding = 0
  counts : ∀ id, dispatcher.Maps id → dispatcher.Counts id
  permits : dispatcher.permits +
    ∑ id ∈ Finset.range dispatcher.spawned, (dispatcher.all id).phase.permits = maxHandlers
  limit : dispatcher.total ≤ dispatcher.capacity
  covers : ∀ call ∈ dispatcher.call, dispatcher.Covers call
  perPeerCapacity_eq : dispatcher.perPeerCapacity = perPeerCapacity
  capacity_eq : dispatcher.capacity = capacity

variable {maxHandlers perPeerCapacity capacity : ℕ}
  {dispatcher : Dispatcher M} {id : ℕ} {worker : Worker M}
  {permits : ℕ} {call : Option (Call M)}

/-! ## Changes of one worker -/

/-- One worker, the permits and the call are as given, and everything else is as it was. -/
def change (id : ℕ) (worker : Worker M) (permits : ℕ) (call : Option (Call M))
    (dispatcher : Dispatcher M) : Dispatcher M :=
  { dispatcher.setWorker id worker with permits := permits, call := call }

/-- Whether a worker is in the map depends on its peer only, so that no step of a task changes
it. -/
theorem maps_setWorker (hpeer : worker.peer = (dispatcher.all id).peer) (other : ℕ) :
    (dispatcher.setWorker id worker).Maps other ↔ dispatcher.Maps other := by
  show dispatcher.workers (Function.update dispatcher.all id worker other).peer = some other ↔ _
  by_cases heq : other = id
  · subst heq
    rw [Function.update_self, hpeer]
    rfl
  · rw [Function.update_of_ne heq]
    rfl

/-- What is left to do in all changes by what is left to do for the worker that changes. -/
theorem total_change (hid : id < dispatcher.spawned) :
    (dispatcher.change id worker permits call).total + (dispatcher.all id).outstanding =
      dispatcher.total + worker.outstanding :=
  sum_update Worker.outstanding dispatcher.all worker (Finset.mem_range.mpr hid)

/-- **A change of one worker** keeps the invariant if the worker is sound again, the permits
are where they were or given back, its counter is right, and what the call knows still covers
what is left to do.  Every step of a task and every step of a call that touches a worker is
one of these. -/
theorem Sound.change (h : dispatcher.Sound maxHandlers perPeerCapacity capacity)
    (hid : id < dispatcher.spawned)
    (hpeer : worker.peer = (dispatcher.all id).peer)
    (hsound : worker.Sound dispatcher.admission dispatcher.perPeerCapacity)
    (hpermits : permits + worker.phase.permits =
      dispatcher.permits + (dispatcher.all id).phase.permits)
    (hunsent : ∀ other ≠ id, (dispatcher.change id worker permits call).unsent other =
      dispatcher.unsent other)
    (hretired : ¬ dispatcher.Maps id → worker.outstanding = 0)
    (hcounts : dispatcher.Maps id → (dispatcher.change id worker permits call).Counts id)
    (hlimit : (dispatcher.change id worker permits call).total ≤ dispatcher.capacity)
    (hcovers : ∀ call' ∈ call, (dispatcher.change id worker permits call).Covers call') :
    (dispatcher.change id worker permits call).Sound maxHandlers perPeerCapacity capacity := by
  -- the worker that changes, and those that do not
  have hself : (dispatcher.change id worker permits call).all id = worker :=
    Function.update_self ..
  have hother : ∀ other ≠ id,
      (dispatcher.change id worker permits call).all other = dispatcher.all other :=
    fun other hne => Function.update_of_ne hne ..
  refine ⟨?_, ?_, ?_, ?_, ?_, ?_, hlimit, hcovers, h.perPeerCapacity_eq, h.capacity_eq⟩
  · intro other hspawned
    rw [hother other (fun heq => absurd hid (not_lt.mpr (heq ▸ hspawned)))]
    exact h.unspawned other hspawned
  · intro other
    by_cases heq : other = id
    · subst heq
      rw [hself]
      exact hsound
    · rw [hother other heq]
      exact h.worker other
  · intro peer other hmaps
    obtain ⟨hlt, hpeer'⟩ := h.spawned peer other hmaps
    refine ⟨hlt, ?_⟩
    by_cases heq : other = id
    · subst heq
      rw [hself, hpeer]
      exact hpeer'
    · rw [hother other heq]
      exact hpeer'
  · intro other hmaps
    replace hmaps := mt (maps_setWorker hpeer other).mpr hmaps
    by_cases heq : other = id
    · subst heq
      rw [hself]
      exact hretired hmaps
    · rw [hother other heq]
      exact h.retired other hmaps
  · intro other hmaps
    replace hmaps := (maps_setWorker hpeer other).mp hmaps
    by_cases heq : other = id
    · subst heq
      exact hcounts hmaps
    · rw [Counts, hother other heq, hunsent other heq]
      exact h.counts other hmaps
  · have hsum := sum_update (fun worker : Worker M => worker.phase.permits) dispatcher.all worker
      (Finset.mem_range.mpr hid)
    have hold := h.permits
    show permits + ∑ i ∈ Finset.range dispatcher.spawned,
      (Function.update dispatcher.all id worker i).phase.permits = maxHandlers
    omega

/-! ## The tasks -/

/-- What a step of a task does to the work of its worker: nothing, or one message is finished
and taken off the counter, or the rest is dropped. -/
inductive Works (before after : Worker M) : Prop where
  | keeps (hout : after.outstanding = before.outstanding)
      (hpending : after.pending = before.pending)
  | finishes (hout : after.outstanding + 1 = before.outstanding)
      (hpending : after.pending = before.pending - 1)
  | ends (hended : after.phase.isEnded = true) (hout : after.outstanding = 0)
      (hpending : after.pending = before.pending)

/-- **A step of a task** keeps the invariant. -/
theorem Sound.work (h : dispatcher.Sound maxHandlers perPeerCapacity capacity)
    (halive : (dispatcher.all id).phase.isEnded = false)
    (hpeer : worker.peer = (dispatcher.all id).peer)
    (hsound : worker.Sound dispatcher.admission dispatcher.perPeerCapacity)
    (hpermits : permits + worker.phase.permits =
      dispatcher.permits + (dispatcher.all id).phase.permits)
    (hworks : Works (dispatcher.all id) worker) :
    (dispatcher.change id worker permits dispatcher.call).Sound
      maxHandlers perPeerCapacity capacity := by
  have hid : id < dispatcher.spawned := by
    by_contra hnot
    rw [h.unspawned id (not_lt.mp hnot)] at halive
    cases halive
  have htotal : (dispatcher.change id worker permits dispatcher.call).total +
      (dispatcher.all id).outstanding = dispatcher.total + worker.outstanding :=
    total_change hid
  -- the counter of a worker with something to do is not at zero, so that counting off takes one
  have hpos : 0 < (dispatcher.all id).outstanding → 0 < (dispatcher.all id).pending := by
    intro hout
    have hmaps : dispatcher.Maps id := by
      by_contra hnot
      rw [h.retired id hnot] at hout
      cases hout
    exact hout.trans_le ((Nat.le_add_right _ _).trans (h.counts id hmaps).1)
  have hless : (dispatcher.change id worker permits dispatcher.call).total ≤ dispatcher.total ∧
      (dispatcher.change id worker permits dispatcher.call).total + (dispatcher.all id).pending ≤
        dispatcher.total + worker.pending := by
    cases hworks <;> omega
  refine h.change hid hpeer hsound hpermits (fun _ _ => rfl) ?_ ?_ (hless.1.trans h.limit) ?_
  · intro hmaps
    have hzero := h.retired id hmaps
    cases hworks <;> omega
  · intro hmaps
    have hself : (dispatcher.change id worker permits dispatcher.call).all id = worker :=
      Function.update_self ..
    obtain ⟨hle, heq⟩ := h.counts id hmaps
    have hpending := heq halive
    rw [Counts, hself]
    show worker.outstanding + dispatcher.unsent id ≤ worker.pending ∧
      (worker.phase.isEnded = false → worker.pending = worker.outstanding + dispatcher.unsent id)
    cases hworks with
    | keeps hout hkeeps => exact ⟨by omega, fun _ => by omega⟩
    | finishes hout hfinishes => exact ⟨by omega, fun _ => by omega⟩
    | ends hended hout hkeeps =>
        exact ⟨by omega, fun hnot => absurd (hnot.symm.trans hended) (by simp)⟩
  · intro call hcall
    have hcovers := h.covers call hcall
    cases call with
    | retaining peer messages left =>
        exact fun other hother => (maps_setWorker hpeer other).mpr (hcovers other hother)
    | counting peer messages left queued =>
        refine ⟨fun other hother => (maps_setWorker hpeer other).mpr (hcovers.1 other hother), ?_⟩
        have hle := hcovers.2
        show _ ≤ queued + ∑ i ∈ left, (Function.update dispatcher.all id worker i).pending
        -- the call has yet to read this counter, or has read it when there was more to do
        by_cases hleft : id ∈ left
        · have hsum := sum_update Worker.pending dispatcher.all worker hleft
          omega
        · rw [sum_update_of_notMem Worker.pending dispatcher.all worker hleft]
          omega
    | queueing other messages queued =>
        exact ⟨(maps_setWorker hpeer other).mpr hcovers.1, hless.1.trans hcovers.2⟩
    | sending other message messages queued =>
        exact ⟨(maps_setWorker hpeer other).mpr hcovers.1, hless.1.trans hcovers.2.1, hcovers.2.2⟩

/-- A task that runs on goes through its loop: it takes a message, waits for a permit, handles
it, gives the permit back and counts it off; or it finds its channel closed and ends. -/
theorem Sound.advance (h : dispatcher.Sound maxHandlers perPeerCapacity capacity) (id : ℕ) :
    (dispatcher.advance id).Sound maxHandlers perPeerCapacity capacity := by
  have hworker := h.worker id
  unfold Dispatcher.advance
  dsimp only
  split
  case h_1 hphase =>
      have halive : (dispatcher.all id).phase.isEnded = false := by rw [hphase]; rfl
      split
      case h_1 message rest hqueue =>
          -- the queue has a message
          refine h.work halive rfl (hworker.receive hphase hqueue) ?_ (.keeps ?_ rfl)
          · rw [hphase]
            rfl
          · rw [Worker.outstanding, Worker.outstanding, hphase, hqueue]
            rfl
      case h_2 hqueue =>
          -- the queue is empty: the task waits, or its channel is closed
          split
          · exact h
          · refine h.work halive rfl (hworker.stop halive) ?_ (.ends rfl rfl rfl)
            rw [hphase]
            rfl
  case h_2 message hphase =>
      have halive : (dispatcher.all id).phase.isEnded = false := by rw [hphase]; rfl
      have hkeeps : ∀ permit,
          Works (dispatcher.all id) ((dispatcher.all id).start message permit) := by
        intro permit
        refine .keeps ?_ rfl
        rw [Worker.outstanding, Worker.outstanding, hphase]
        rfl
      split
      case isTrue hadmission =>
          -- a message that needs no permit is handled at once
          refine h.work halive rfl (hworker.start hphase ?_) ?_ (hkeeps false)
          · rw [hadmission]
            rfl
          · rw [hphase]
            rfl
      case isFalse hadmission =>
          split
          case isTrue hpermits =>
              -- the others take one, and wait while there is none
              refine h.work halive rfl (hworker.start hphase ?_) ?_ (hkeeps true)
              · rw [Bool.not_eq_true] at hadmission
                rw [hadmission]
                rfl
              · rw [hphase]
                exact Nat.sub_add_cancel hpermits
          case isFalse => exact h
  case h_3 message permit hphase =>
      -- the handler returns
      have halive : (dispatcher.all id).phase.isEnded = false := by rw [hphase]; rfl
      refine h.work halive rfl (hworker.finish hphase) ?_ (.finishes ?_ rfl)
      · rw [hphase]
        rfl
      · rw [Worker.outstanding, Worker.outstanding, hphase]
        rfl
  case h_4 permit hphase =>
      -- the permit is given back
      have halive : (dispatcher.all id).phase.isEnded = false := by rw [hphase]; rfl
      refine h.work halive rfl ?_ ?_ (.keeps ?_ rfl)
      · exact hworker.setPhase halive rfl rfl (by rw [hphase]; rfl) (by rw [hphase]; rfl)
      · rw [hphase]
        rfl
      · rw [Worker.outstanding, Worker.outstanding, hphase]
        rfl
  case h_5 message hphase =>
      -- the handler has panicked
      have halive : (dispatcher.all id).phase.isEnded = false := by rw [hphase]; rfl
      refine h.work halive rfl (hworker.stop halive) ?_ (.ends rfl rfl rfl)
      rw [hphase]
      rfl
  case h_6 => exact h

/-- A handler that panics loses its permit and its message, which is counted off like one that
is finished. -/
theorem Sound.panic (h : dispatcher.Sound maxHandlers perPeerCapacity capacity) (id : ℕ) :
    (dispatcher.panic id).Sound maxHandlers perPeerCapacity capacity := by
  unfold Dispatcher.panic
  dsimp only
  split
  case h_1 message permit hphase =>
      have halive : (dispatcher.all id).phase.isEnded = false := by rw [hphase]; rfl
      refine h.work halive rfl ?_ ?_ (.keeps ?_ rfl)
      · exact (h.worker id).setPhase halive rfl rfl (by rw [hphase]; rfl) (by rw [hphase]; rfl)
      · rw [hphase]
        rfl
      · rw [Worker.outstanding, Worker.outstanding, hphase]
        rfl
  case h_2 => exact h

/-- A task that is aborted ends wherever it is, and a permit that it has is given back. -/
theorem Sound.abort (h : dispatcher.Sound maxHandlers perPeerCapacity capacity) (id : ℕ) :
    (dispatcher.abort id).Sound maxHandlers perPeerCapacity capacity := by
  have hstop : (dispatcher.all id).phase.isEnded = false →
      (dispatcher.change id (dispatcher.all id).stop
        (dispatcher.permits + (dispatcher.all id).phase.permits) dispatcher.call).Sound
          maxHandlers perPeerCapacity capacity :=
    fun halive => h.work halive rfl ((h.worker id).stop halive) rfl (.ends rfl rfl rfl)
  unfold Dispatcher.abort
  dsimp only
  split
  case h_1 hphase =>
      split
      · exact h
      · exact hstop (by rw [hphase]; rfl)
  case h_2 hphase =>
      split
      · exact h
      · exact hstop (by rw [hphase]; rfl)
  case h_3 hphase =>
      split
      · exact h
      · exact hstop (by rw [hphase]; rfl)
  case h_4 => exact h

/-! ## The calls -/

/-- A call goes on without a change of a worker. -/
theorem Sound.withCall (h : dispatcher.Sound maxHandlers perPeerCapacity capacity)
    (hunsent : ∀ id, ({ dispatcher with call := call } : Dispatcher M).unsent id =
      dispatcher.unsent id)
    (hcovers : ∀ call' ∈ call, dispatcher.Covers call') :
    ({ dispatcher with call := call } : Dispatcher M).Sound maxHandlers perPeerCapacity
      capacity := by
  refine ⟨h.unspawned, h.worker, h.spawned, h.retired, fun id hmaps => ?_, h.permits, h.limit,
    hcovers, h.perPeerCapacity_eq, h.capacity_eq⟩
  rw [Counts, hunsent]
  exact h.counts id hmaps

/-- What the map has for a peer is in the map under its own peer. -/
theorem Sound.maps_of_mem (h : dispatcher.Sound maxHandlers perPeerCapacity capacity)
    {peer : String}
    (hpeer : dispatcher.workers peer = some id) : dispatcher.Maps id := by
  rw [Maps, (h.spawned peer id hpeer).2]
  exact hpeer

/-- The workers in the map, as a finite set: only what has been spawned is in it. -/
theorem mem_mapped (h : dispatcher.Sound maxHandlers perPeerCapacity capacity) :
    id ∈ dispatcher.mapped ↔ dispatcher.Maps id := by
  rw [mapped, Finset.mem_filter, Finset.mem_range]
  exact and_iff_right_of_imp fun hmaps => (h.spawned _ id hmaps).1

/-- What is left to do is what the counters of the workers in the map say, or less. -/
theorem Sound.total_le (h : dispatcher.Sound maxHandlers perPeerCapacity capacity) :
    dispatcher.total ≤ ∑ id ∈ dispatcher.mapped, (dispatcher.all id).pending := by
  have hmapped : ∑ id ∈ dispatcher.mapped, (dispatcher.all id).outstanding = dispatcher.total := by
    refine Finset.sum_subset (Finset.filter_subset _ _) fun id _ hnot => ?_
    exact h.retired id fun hmaps => hnot ((mem_mapped h).mpr hmaps)
  rw [← hmapped]
  refine Finset.sum_le_sum fun id hid => ?_
  exact (Nat.le_add_right _ _).trans (h.counts id ((mem_mapped h).mp hid)).1

/-- A call begins with the whole map to look at, unless another is going on: the lock of the
map is held throughout. -/
theorem Sound.dispatch (h : dispatcher.Sound maxHandlers perPeerCapacity capacity)
    (peer : String) (messages : List M) :
    (dispatcher.dispatch peer messages).Sound maxHandlers perPeerCapacity capacity := by
  unfold Dispatcher.dispatch
  cases hcall : dispatcher.call with
  | none =>
      refine h.withCall (fun id => ?_) fun call' hcall' => ?_
      · rw [unsent, unsent, hcall]
        rfl
      · cases hcall'
        exact fun id hid => (mem_mapped h).mp hid
  | some call => exact h

/-- A worker that `retain` takes from the map has nothing left to do. -/
theorem Sound.outstanding_eq_zero (h : dispatcher.Sound maxHandlers perPeerCapacity capacity)
    (hmaps : dispatcher.Maps id)
    (hidle : ¬ (0 < (dispatcher.all id).pending ∧ (dispatcher.all id).phase.isEnded = false)) :
    (dispatcher.all id).outstanding = 0 := by
  cases hended : (dispatcher.all id).phase.isEnded with
  | true => exact (h.worker id).outstanding_of_ended hended
  | false =>
      have hle := (h.counts id hmaps).1
      have hzero : ¬ 0 < (dispatcher.all id).pending := fun hpos => hidle ⟨hpos, hended⟩
      omega

/-- A worker with nothing left to do is taken from the map. -/
theorem Sound.retire (h : dispatcher.Sound maxHandlers perPeerCapacity capacity)
    (hmaps : dispatcher.Maps id)
    (hout : (dispatcher.all id).outstanding = 0) {peer : String} {messages : List M}
    {left : Finset ℕ} (hcall : dispatcher.call = some (.retaining peer messages left)) :
    ({ dispatcher with
      workers := Function.update dispatcher.workers (dispatcher.all id).peer none
      call := some (.retaining peer messages (left.erase id)) } : Dispatcher M).Sound
      maxHandlers perPeerCapacity capacity := by
  have hmaps_iff : ∀ other, Function.update dispatcher.workers (dispatcher.all id).peer none
      (dispatcher.all other).peer = some other ↔ other ≠ id ∧ dispatcher.Maps other := by
    intro other
    by_cases hpeer : (dispatcher.all other).peer = (dispatcher.all id).peer
    · rw [hpeer, Function.update_self]
      refine iff_of_false (by simp) ?_
      rintro ⟨hne, hother⟩
      rw [Maps, hpeer] at hother
      exact hne (Option.some.inj (hother.symm.trans hmaps))
    · rw [Function.update_of_ne hpeer]
      refine (and_iff_right_of_imp fun _ => ?_).symm
      rintro rfl
      exact hpeer rfl
  refine ⟨h.unspawned, h.worker, ?_, ?_, ?_, h.permits, h.limit, ?_, h.perPeerCapacity_eq,
    h.capacity_eq⟩
  · intro peer' other hother
    refine h.spawned peer' other ?_
    dsimp only at hother
    by_cases hpeer : peer' = (dispatcher.all id).peer
    · subst hpeer
      rw [Function.update_self] at hother
      cases hother
    · rwa [Function.update_of_ne hpeer] at hother
  · intro other hother
    by_cases heq : other = id
    · subst heq
      exact hout
    · exact h.retired other fun hmaps' => hother ((hmaps_iff other).mpr ⟨heq, hmaps'⟩)
  · intro other hother
    have hcounts := h.counts other ((hmaps_iff other).mp hother).2
    rw [Counts, unsent, hcall] at hcounts
    exact hcounts
  · intro call' hcall'
    cases hcall'
    intro other hother
    obtain ⟨hne, hleft⟩ := Finset.mem_erase.mp hother
    exact (hmaps_iff other).mpr ⟨hne, h.covers _ hcall other hleft⟩

/-- One worker of the map is looked at: retained or thrown out by the first pass, added up by
the second.  The first throws out only workers with nothing left to do. -/
theorem Sound.visit (h : dispatcher.Sound maxHandlers perPeerCapacity capacity) (id : ℕ) :
    (dispatcher.visit id).Sound maxHandlers perPeerCapacity capacity := by
  unfold Dispatcher.visit
  cases hcall : dispatcher.call with
  | none => exact h
  | some call =>
      cases call with
      | retaining peer messages left =>
          dsimp only
          split
          case isFalse => exact h
          case isTrue hleft =>
              have hcovers := h.covers _ hcall
              unfold Dispatcher.retain
              dsimp only
              split
              case isTrue =>
                  refine h.withCall (fun other => ?_) fun call' hcall' => ?_
                  · rw [unsent, unsent, hcall]
                    rfl
                  · cases hcall'
                    exact fun other hother => hcovers other (Finset.mem_of_mem_erase hother)
              case isFalse hidle =>
                  exact h.retire (hcovers id hleft)
                    (h.outstanding_eq_zero (hcovers id hleft) hidle) hcall
      | counting peer messages left queued =>
          dsimp only
          split
          case isFalse => exact h
          case isTrue hleft =>
              obtain ⟨hmaps, hle⟩ := h.covers _ hcall
              refine h.withCall (fun other => ?_) fun call' hcall' => ?_
              · rw [unsent, unsent, hcall]
                rfl
              · cases hcall'
                refine ⟨fun other hother => hmaps other (Finset.mem_of_mem_erase hother), ?_⟩
                rw [← Finset.add_sum_erase left _ hleft] at hle
                omega
      | queueing _ _ _ => exact h
      | sending _ _ _ _ => exact h

/-! ## A new worker -/

section

variable (dispatcher) (peer : String)

/-- A new worker is what a worker is at first. -/
theorem all_spawnWorker_self :
    (dispatcher.spawnWorker peer).all dispatcher.spawned = { peer := peer } :=
  Function.update_self ..

/-- The others are as they were. -/
theorem all_spawnWorker_of_ne (hne : id ≠ dispatcher.spawned) :
    (dispatcher.spawnWorker peer).all id = dispatcher.all id :=
  Function.update_of_ne hne ..

/-- The map has the new worker for the peer, and for the other peers what it had. -/
theorem workers_spawnWorker (peer' : String) : (dispatcher.spawnWorker peer).workers peer' =
    if peer' = peer then some dispatcher.spawned else dispatcher.workers peer' :=
  Function.update_apply ..

/-- The new worker is its peer's. -/
theorem maps_spawnWorker_self : (dispatcher.spawnWorker peer).Maps dispatcher.spawned := by
  rw [Maps, all_spawnWorker_self, workers_spawnWorker, if_pos rfl]

variable {peer}

/-- The others are whose they were: the peer had none. -/
theorem maps_spawnWorker_of_ne (hpeer : dispatcher.workers peer = none)
    (hne : id ≠ dispatcher.spawned) :
    (dispatcher.spawnWorker peer).Maps id ↔ dispatcher.Maps id := by
  rw [Maps, Maps, all_spawnWorker_of_ne dispatcher peer hne, workers_spawnWorker]
  split
  case isTrue heq =>
      rw [heq, hpeer]
      exact iff_of_false (fun hsome => hne (Option.some.inj hsome).symm) nofun
  case isFalse => exact Iff.rfl

variable (peer)

/-- What a new worker has none of adds up to what it was. -/
theorem sum_spawnWorker {g : Worker M → ℕ} (hzero : g { peer := peer } = 0) :
    ∑ id ∈ Finset.range (dispatcher.spawned + 1), g ((dispatcher.spawnWorker peer).all id) =
      ∑ id ∈ Finset.range dispatcher.spawned, g (dispatcher.all id) := by
  rw [Finset.sum_range_succ, all_spawnWorker_self, hzero, Nat.add_zero]
  exact sum_update_of_notMem g dispatcher.all _ (by simp)

end

/-- Each of the workers is sound by itself, also the new one. -/
theorem Sound.worker_spawnWorker (h : dispatcher.Sound maxHandlers perPeerCapacity capacity)
    (peer : String) (id : ℕ) : ((dispatcher.spawnWorker peer).all id).Sound dispatcher.admission
      dispatcher.perPeerCapacity := by
  by_cases heq : id = dispatcher.spawned
  · rw [heq, all_spawnWorker_self]
    exact .spawned _ _ peer
  · rw [all_spawnWorker_of_ne dispatcher peer heq]
    exact h.worker id

/-- A worker in the map is that of its peer, the new one included. -/
theorem Sound.spawned_spawnWorker (h : dispatcher.Sound maxHandlers perPeerCapacity capacity)
    (peer : String) {peer' : String}
    (hid : (dispatcher.spawnWorker peer).workers peer' = some id) :
    id < dispatcher.spawned + 1 ∧ ((dispatcher.spawnWorker peer).all id).peer = peer' := by
  rw [workers_spawnWorker] at hid
  split at hid
  case isTrue heq =>
      cases hid
      exact ⟨Nat.lt_succ_self _, by rw [all_spawnWorker_self, heq]⟩
  case isFalse =>
      obtain ⟨hlt, hpeer⟩ := h.spawned peer' id hid
      rw [all_spawnWorker_of_ne dispatcher peer hlt.ne]
      exact ⟨hlt.trans (Nat.lt_succ_self _), hpeer⟩

/-- The counters are right: a new worker has nothing to do, and its counter is zero. -/
theorem Sound.counts_spawnWorker (h : dispatcher.Sound maxHandlers perPeerCapacity capacity)
    {peer : String} (hpeer : dispatcher.workers peer = none)
    (hunsent : ∀ id, dispatcher.unsent id = 0)
    (hid : (dispatcher.spawnWorker peer).Maps id) : (dispatcher.spawnWorker peer).Counts id := by
  rw [Counts, show (dispatcher.spawnWorker peer).unsent id = 0 from hunsent id]
  by_cases heq : id = dispatcher.spawned
  · rw [heq, all_spawnWorker_self]
    exact ⟨Nat.le_refl 0, fun _ => rfl⟩
  · have hcounts := h.counts id ((maps_spawnWorker_of_ne dispatcher hpeer heq).mp hid)
    rw [Counts, hunsent] at hcounts
    rw [all_spawnWorker_of_ne dispatcher peer heq]
    exact hcounts

/-- **A peer without a worker gets one.** -/
theorem Sound.spawnWorker (h : dispatcher.Sound maxHandlers perPeerCapacity capacity)
    {peer : String} (hcall : dispatcher.call = none) (hpeer : dispatcher.workers peer = none) :
    (dispatcher.spawnWorker peer).Sound maxHandlers perPeerCapacity capacity where
  unspawned id hspawned := by
    have hlt : dispatcher.spawned < id := hspawned
    rw [all_spawnWorker_of_ne dispatcher peer hlt.ne']
    exact h.unspawned id hlt.le
  worker := h.worker_spawnWorker peer
  spawned _ _ hid := h.spawned_spawnWorker peer hid
  retired id hid := by
    by_cases heq : id = dispatcher.spawned
    · exact absurd (heq ▸ maps_spawnWorker_self dispatcher peer) hid
    · rw [all_spawnWorker_of_ne dispatcher peer heq]
      exact h.retired id fun hmaps => hid ((maps_spawnWorker_of_ne dispatcher hpeer heq).mpr hmaps)
  counts id := h.counts_spawnWorker hpeer fun id => by rw [unsent, hcall]
  permits := by
    rw [← h.permits]
    exact congrArg (dispatcher.permits + ·)
      (sum_spawnWorker dispatcher peer (g := fun worker => worker.phase.permits) rfl)
  limit := (sum_spawnWorker dispatcher peer (g := Worker.outstanding) rfl).trans_le h.limit
  covers call hmem := by
    rw [show (dispatcher.spawnWorker peer).call = none from hcall] at hmem
    cases hmem
  perPeerCapacity_eq := h.perPeerCapacity_eq
  capacity_eq := h.capacity_eq

/-- The call goes on to queue its messages with the new worker. -/
theorem Sound.spawn (h : dispatcher.Sound maxHandlers perPeerCapacity capacity)
    {peer : String} {messages : List M}
    {queued : ℕ} (hpeer : dispatcher.workers peer = none)
    (hunsent : ∀ id, dispatcher.unsent id = 0) (hle : dispatcher.total ≤ queued) :
    ({ dispatcher.spawnWorker peer with
      call := some (.queueing dispatcher.spawned messages queued) } : Dispatcher M).Sound
      maxHandlers perPeerCapacity capacity := by
  have hidle : ({ dispatcher with call := none } : Dispatcher M).Sound maxHandlers
      perPeerCapacity capacity := h.withCall (fun id => (hunsent id).symm) nofun
  have htotal := sum_spawnWorker dispatcher peer (g := Worker.outstanding) rfl
  refine (hidle.spawnWorker rfl hpeer).withCall (fun _ => rfl) fun call hcall => ?_
  cases hcall
  exact ⟨maps_spawnWorker_self dispatcher peer, htotal.trans_le hle⟩

/-- The peer's messages go to the worker it has, or to a new one. -/
theorem Sound.enter (h : dispatcher.Sound maxHandlers perPeerCapacity capacity)
    {peer : String} {messages : List M}
    {queued : ℕ} (hunsent : ∀ id, dispatcher.unsent id = 0) (hle : dispatcher.total ≤ queued) :
    (dispatcher.enter peer messages queued).Sound maxHandlers perPeerCapacity capacity := by
  unfold Dispatcher.enter
  cases hpeer : dispatcher.workers peer with
  | none => exact h.spawn hpeer hunsent hle
  | some id =>
      refine h.withCall (fun other => (hunsent other).symm) fun call' hcall' => ?_
      cases hcall'
      exact ⟨h.maps_of_mem hpeer, hle⟩

/-- The next message is queued if that does not go beyond what may be left to do in all, and
else the rest is refused.  It is counted before it is sent, so that the task cannot count it
off first. -/
theorem Sound.queue (h : dispatcher.Sound maxHandlers perPeerCapacity capacity)
    {message : M} {messages : List M}
    {queued : ℕ} (hcall : dispatcher.call = some (.queueing id (message :: messages) queued)) :
    (dispatcher.queue id message messages queued).Sound maxHandlers perPeerCapacity capacity := by
  obtain ⟨hmaps, hle⟩ := h.covers _ hcall
  have hunsent : ∀ other, dispatcher.unsent other = 0 := by
    intro other
    rw [unsent, hcall]
    rfl
  unfold Dispatcher.queue
  split
  case isTrue =>
      refine h.withCall (fun other => (hunsent other).symm) fun call' hcall' => ?_
      cases hcall'
      exact ⟨hmaps, hle⟩
  case isFalse hroom =>
      have hid := (h.spawned _ id hmaps).1
      show (dispatcher.change id (dispatcher.all id).fetchAdd dispatcher.permits
        (some (.sending id message messages queued))).Sound _ _ _
      have htotal : (dispatcher.change id (dispatcher.all id).fetchAdd dispatcher.permits
          (some (.sending id message messages queued))).total = dispatcher.total :=
        Nat.add_right_cancel (total_change hid)
      refine h.change hid rfl (h.worker id).fetchAdd rfl ?_ (absurd hmaps) ?_
        (htotal.le.trans h.limit) ?_
      · intro other hne
        rw [hunsent]
        exact if_neg hne
      · intro _
        obtain ⟨hge, heq⟩ := h.counts id hmaps
        rw [hunsent] at hge heq
        have hunsent' : (dispatcher.change id (dispatcher.all id).fetchAdd dispatcher.permits
            (some (.sending id message messages queued))).unsent id = 1 := if_pos rfl
        have hself : (dispatcher.change id (dispatcher.all id).fetchAdd dispatcher.permits
            (some (.sending id message messages queued))).all id = (dispatcher.all id).fetchAdd :=
          Function.update_self ..
        rw [Counts, hself, hunsent']
        exact ⟨Nat.succ_le_succ hge, fun halive => congrArg (· + 1) (heq halive)⟩
      · intro call' hcall'
        cases hcall'
        exact ⟨(maps_setWorker (by rfl) id).mpr hmaps, htotal.le.trans hle, not_le.mp hroom⟩

/-- The message is sent, or it is counted off again because the channel is full or closed. -/
theorem Sound.trySend (h : dispatcher.Sound maxHandlers perPeerCapacity capacity) {message : M}
    {messages : List M} {queued : ℕ}
    (hcall : dispatcher.call = some (.sending id message messages queued)) (taken : Bool) :
    (dispatcher.trySend taken id message messages queued).Sound maxHandlers perPeerCapacity
      capacity := by
  obtain ⟨hmaps, hle, hlt⟩ := h.covers _ hcall
  have hid := (h.spawned _ id hmaps).1
  have hself : dispatcher.unsent id = 1 := by
    rw [unsent, hcall]
    exact if_pos rfl
  have hother : ∀ other ≠ id, dispatcher.unsent other = 0 := by
    intro other hne
    rw [unsent, hcall]
    exact if_neg hne
  obtain ⟨hge, heq⟩ := h.counts id hmaps
  rw [hself] at hge heq
  unfold Dispatcher.trySend
  dsimp only
  split
  case isTrue haccepts =>
      -- it is sent: what was on its way is now left to do, and the counter stays
      obtain ⟨-, hroom, halive⟩ := haccepts
      show (dispatcher.change id ((dispatcher.all id).accept message) dispatcher.permits
        (some (.queueing id messages (queued + 1)))).Sound _ _ _
      have hout : ((dispatcher.all id).accept message).outstanding =
          (dispatcher.all id).outstanding + 1 := by
        simp only [Worker.outstanding, Worker.accept, List.length_append, List.length_singleton]
        omega
      have htotal : (dispatcher.change id ((dispatcher.all id).accept message) dispatcher.permits
          (some (.queueing id messages (queued + 1)))).total + (dispatcher.all id).outstanding =
            dispatcher.total + ((dispatcher.all id).accept message).outstanding :=
        total_change hid
      have hsum : (dispatcher.change id ((dispatcher.all id).accept message) dispatcher.permits
          (some (.queueing id messages (queued + 1)))).total ≤ queued + 1 := by omega
      refine h.change hid rfl ((h.worker id).accept halive hroom message) rfl
        (fun other hne => (hother other hne).symm) (absurd hmaps) ?_ (hsum.trans hlt) ?_
      · intro _
        have hself' : (dispatcher.change id ((dispatcher.all id).accept message)
            dispatcher.permits (some (.queueing id messages (queued + 1)))).all id =
              (dispatcher.all id).accept message := Function.update_self ..
        rw [Counts, hself', hout]
        exact ⟨hge, fun _ => heq halive⟩
      · intro call' hcall'
        cases hcall'
        exact ⟨(maps_setWorker (by rfl) id).mpr hmaps, hsum⟩
  case isFalse =>
      -- it is refused, and counted off again
      show (dispatcher.change id (dispatcher.all id).fetchSub dispatcher.permits
        (some (.queueing id messages queued))).Sound _ _ _
      have htotal : (dispatcher.change id (dispatcher.all id).fetchSub dispatcher.permits
          (some (.queueing id messages queued))).total = dispatcher.total :=
        Nat.add_right_cancel (total_change hid)
      refine h.change hid rfl (h.worker id).fetchSub rfl
        (fun other hne => (hother other hne).symm) (absurd hmaps) ?_
        (htotal.le.trans h.limit) ?_
      · intro _
        have hself' : (dispatcher.change id (dispatcher.all id).fetchSub dispatcher.permits
            (some (.queueing id messages queued))).all id = (dispatcher.all id).fetchSub :=
          Function.update_self ..
        rw [Counts, hself']
        refine ⟨Nat.le_sub_one_of_lt hge, fun halive => ?_⟩
        exact Nat.sub_eq_of_eq_add (heq halive)
      · intro call' hcall'
        cases hcall'
        exact ⟨(maps_setWorker (by rfl) id).mpr hmaps, htotal.le.trans hle⟩

/-- **A step of a call** keeps the invariant: the call ends a pass over the map, or queues or
sends its next message. -/
theorem Sound.proceed (h : dispatcher.Sound maxHandlers perPeerCapacity capacity) (taken : Bool) :
    (dispatcher.proceed taken).Sound maxHandlers perPeerCapacity capacity := by
  unfold Dispatcher.proceed
  cases hcall : dispatcher.call with
  | none => exact h
  | some call =>
      have hcovers := h.covers _ hcall
      have hdone : (∀ id, dispatcher.unsent id = 0) →
          ({ dispatcher with call := none } : Dispatcher M).Sound
            maxHandlers perPeerCapacity capacity :=
        fun hunsent => h.withCall (fun other => (hunsent other).symm) nofun
      cases call with
      | retaining peer messages left =>
          dsimp only
          split
          case isFalse => exact h
          case isTrue =>
              refine h.withCall (fun other => ?_) fun call' hcall' => ?_
              · rw [unsent, unsent, hcall]
                rfl
              · cases hcall'
                refine ⟨fun id hid => (mem_mapped h).mp hid, ?_⟩
                rw [Nat.zero_add]
                exact h.total_le
      | counting peer messages left queued =>
          have hunsent : ∀ id, dispatcher.unsent id = 0 := by
            intro id
            rw [unsent, hcall]
            rfl
          dsimp only
          split
          case isFalse => exact h
          case isTrue hleft =>
              split
              · exact hdone hunsent
              · subst hleft
                exact h.enter hunsent hcovers.2
      | queueing id messages queued =>
          cases messages with
          | nil =>
              refine hdone fun other => ?_
              rw [unsent, hcall]
              rfl
          | cons message messages => exact h.queue hcall
      | sending id message messages queued => exact h.trySend hcall taken

/-! ## Runs -/

/-- **The invariant is kept** by every step. -/
theorem Sound.step (h : dispatcher.Sound maxHandlers perPeerCapacity capacity) (event : Event M) :
    (dispatcher.step event).Sound maxHandlers perPeerCapacity capacity := by
  cases event with
  | dispatch peer messages => exact h.dispatch peer messages
  | visit id => exact h.visit id
  | proceed taken => exact h.proceed taken
  | advance id => exact h.advance id
  | panic id => exact h.panic id
  | abort id => exact h.abort id

/-- **The invariant is kept by every run**, by induction on the events. -/
theorem Sound.run (h : dispatcher.Sound maxHandlers perPeerCapacity capacity)
    (events : List (Event M)) :
    (dispatcher.run events).Sound maxHandlers perPeerCapacity capacity := by
  induction events generalizing dispatcher with
  | nil => exact h
  | cons event events ih => exact ih (h.step event)

/-- The invariant holds at first.  A limit of zero is taken as one, as the constructor
does. -/
theorem sound_new (maxHandlers perPeerCapacity capacity : ℕ) (admission : M → Bool) :
    (new maxHandlers perPeerCapacity capacity admission).Sound (max maxHandlers 1)
      (max perPeerCapacity 1) (max capacity 1) := by
  refine ⟨fun _ _ => rfl, fun _ => ?_, nofun, fun _ _ => rfl, nofun, ?_, Nat.zero_le _, nofun, rfl,
    rfl⟩
  · exact ⟨Nat.zero_le _, nofun, rfl, nofun, fun _ => rfl, List.prefix_rfl, List.prefix_rfl⟩
  · exact Nat.add_zero _

end Dispatcher

end PubkySwap
