import PubkySwap.DispatchRun

/-!
# What the dispatcher's messages can rely on

From the invariant it follows what the dispatcher is for: messages of one peer are handled
one at a time and in the order they were accepted in, each at most once; no more of them are
accepted and no more handlers run than the limits say; and a worker that is retired has
nothing left (`orderly`).  Limits of zero are taken as one.
-/

namespace PubkySwap

open Dispatch

namespace Dispatcher

variable {M : Type} {maxHandlers perPeerCapacity capacity : ℕ} {dispatcher : Dispatcher M}
  {id : ℕ} {worker : Worker M}

/-! ## Workers in the map -/

theorem maps_advance (i : ℕ) : (dispatcher.advance i).Maps id ↔ dispatcher.Maps id := by
  unfold Dispatcher.advance
  dsimp only
  split
  · split
    · exact maps_setWorker (by rfl) id
    · split
      · rfl
      · exact maps_setWorker (by rfl) id
  · split
    · exact maps_setWorker (by rfl) id
    · split
      · exact maps_setWorker (by rfl) id
      · rfl
  · exact maps_setWorker (by rfl) id
  · exact maps_setWorker (by rfl) id
  · exact maps_setWorker (by rfl) id
  · rfl

theorem maps_panic (i : ℕ) : (dispatcher.panic i).Maps id ↔ dispatcher.Maps id := by
  unfold Dispatcher.panic
  dsimp only
  split
  · exact maps_setWorker (by rfl) id
  · rfl

theorem maps_abort (i : ℕ) : (dispatcher.abort i).Maps id ↔ dispatcher.Maps id := by
  unfold Dispatcher.abort
  dsimp only
  split
  · split
    · rfl
    · exact maps_setWorker (by rfl) id
  · split
    · rfl
    · exact maps_setWorker (by rfl) id
  · split
    · rfl
    · exact maps_setWorker (by rfl) id
  · rfl

/-- A new worker takes nobody's place. -/
theorem Sound.maps_enter (h : dispatcher.Sound maxHandlers perPeerCapacity capacity)
    (hmaps : dispatcher.Maps id) (peer : String) (messages : List M) (queued : ℕ) :
    (dispatcher.enter peer messages queued).Maps id := by
  unfold Dispatcher.enter
  cases hpeer : dispatcher.workers peer with
  | some other => exact hmaps
  | none =>
      have hne : id ≠ dispatcher.spawned := (h.spawned _ id hmaps).1.ne
      show Function.update dispatcher.workers peer (some dispatcher.spawned)
        (Function.update dispatcher.all dispatcher.spawned { peer := peer } id).peer = some id
      rw [Function.update_of_ne hne, Function.update_of_ne]
      · exact hmaps
      · intro heq
        rw [Maps, heq, hpeer] at hmaps
        cases hmaps

theorem Sound.maps_proceed (h : dispatcher.Sound maxHandlers perPeerCapacity capacity)
    (hmaps : dispatcher.Maps id) (taken : Bool) : (dispatcher.proceed taken).Maps id := by
  unfold Dispatcher.proceed
  split
  · split <;> exact hmaps
  · split
    · split
      · exact hmaps
      · exact h.maps_enter hmaps _ _ _
    · exact hmaps
  · exact hmaps
  · unfold Dispatcher.queue
    split
    · exact hmaps
    · exact (maps_setWorker (by rfl) id).mpr hmaps
  · unfold Dispatcher.trySend
    dsimp only
    split <;> exact (maps_setWorker (by rfl) id).mpr hmaps
  · exact hmaps

theorem Sound.maps_visit (h : dispatcher.Sound maxHandlers perPeerCapacity capacity)
    (hmaps : dispatcher.Maps id) (i : ℕ) :
    (dispatcher.visit i).Maps id ∨ (dispatcher.all id).outstanding = 0 := by
  unfold Dispatcher.visit
  split
  case h_1 peer messages left hcall =>
      split
      case isFalse => exact .inl hmaps
      case isTrue hleft =>
          unfold Dispatcher.retain
          dsimp only
          split
          case isTrue => exact .inl hmaps
          case isFalse hidle =>
              have hvisited := h.covers _ hcall i hleft
              by_cases heq : (dispatcher.all id).peer = (dispatcher.all i).peer
              · have hid : id = i := by
                  rw [Maps, heq] at hmaps
                  exact Option.some.inj (hmaps.symm.trans hvisited)
                exact .inr (hid ▸ h.outstanding_eq_zero hvisited hidle)
              · exact .inl ((Function.update_of_ne heq ..).trans hmaps)
  case h_2 => split <;> exact .inl hmaps
  case h_3 => exact .inl hmaps

/-- **A step takes a worker from the map** only if it has nothing left to do. -/
theorem Sound.maps_step (h : dispatcher.Sound maxHandlers perPeerCapacity capacity)
    (hmaps : dispatcher.Maps id) (event : Event M) :
    (dispatcher.step event).Maps id ∨ (dispatcher.all id).outstanding = 0 := by
  cases event with
  | dispatch peer messages =>
      refine .inl ?_
      simp only [Dispatcher.step, Dispatcher.dispatch]
      split <;> exact hmaps
  | visit i => exact h.maps_visit hmaps i
  | proceed taken => exact .inl (h.maps_proceed hmaps taken)
  | advance i => exact .inl ((maps_advance i).mpr hmaps)
  | panic i => exact .inl ((maps_panic i).mpr hmaps)
  | abort i => exact .inl ((maps_abort i).mpr hmaps)

/-! ## The order -/

/-- The handlers that run on a message that is no admission. -/
def running (dispatcher : Dispatcher M) : ℕ :=
  ((Finset.range dispatcher.spawned).filter fun id =>
    (dispatcher.all id).phase.runs dispatcher.admission = true).card

/-- The messages of a peer that are accepted and not yet finished. -/
def peerTotal (dispatcher : Dispatcher M) (peer : String) : ℕ :=
  ∑ id ∈ (Finset.range dispatcher.spawned).filter fun id => (dispatcher.all id).peer = peer,
    (dispatcher.all id).outstanding

/-- **A dispatcher that hands messages over as it should**, within these limits. -/
structure Orderly (maxHandlers perPeerCapacity capacity : ℕ) (dispatcher : Dispatcher M) :
    Prop where
  /-- The messages of one peer are handled one at a time. -/
  oneAtATime : ∀ id other, (dispatcher.all id).peer = (dispatcher.all other).peer →
    (dispatcher.all id).phase.handles = true → (dispatcher.all other).phase.handles = true →
    id = other
  /-- A worker begins with the messages that it has accepted in their order, with each at
  most once, and finishes one before the next. -/
  inOrder : ∀ id, (dispatcher.all id).log.started <+: (dispatcher.all id).log.accepted ∧
    (dispatcher.all id).log.finished <+: (dispatcher.all id).log.started ∧
    ((dispatcher.all id).phase.isEnded = false → (dispatcher.all id).log.started =
      (dispatcher.all id).log.finished ++ (dispatcher.all id).phase.begun)
  /-- What it has accepted is finished, in hand, queued or dropped. -/
  accounted : ∀ id, (dispatcher.all id).log.accepted = (dispatcher.all id).log.finished ++
    (dispatcher.all id).phase.inHand ++ (dispatcher.all id).queue ++
      (dispatcher.all id).log.dropped
  /-- Messages are dropped only with their worker. -/
  undropped : ∀ id, (dispatcher.all id).phase.isEnded = false →
    (dispatcher.all id).log.dropped = []
  /-- Messages are in hand or queued only at a worker that lives. -/
  kept : ∀ id, (dispatcher.all id).phase.inHand ≠ [] ∨ (dispatcher.all id).queue ≠ [] →
    dispatcher.Maps id ∧ (dispatcher.all id).phase.isEnded = false
  total_le : dispatcher.total ≤ capacity
  peerTotal_le : ∀ peer, dispatcher.peerTotal peer ≤ perPeerCapacity + 1
  running_le : dispatcher.running ≤ maxHandlers
  /-- The counter of a worker that lives, but for a message on its way to it. -/
  counter : ∀ id, dispatcher.Maps id → (dispatcher.all id).phase.isEnded = false →
    (dispatcher.all id).pending = (dispatcher.all id).queue.length +
      (dispatcher.all id).phase.inHand.length + dispatcher.unsent id
  /-- A worker that is taken from the map has nothing queued or in hand. -/
  retires : ∀ event id, dispatcher.Maps id → ¬ (dispatcher.step event).Maps id →
    (dispatcher.all id).queue = [] ∧ (dispatcher.all id).phase.inHand = []

theorem outstanding_eq_zero_iff :
    worker.outstanding = 0 ↔ worker.queue = [] ∧ worker.phase.inHand = [] := by
  rw [Worker.outstanding, Nat.add_eq_zero_iff, List.length_eq_zero_iff, List.length_eq_zero_iff]

/-- A worker with something left to do is in the map and lives. -/
theorem Sound.lives (h : dispatcher.Sound maxHandlers perPeerCapacity capacity)
    (hout : (dispatcher.all id).outstanding ≠ 0) :
    dispatcher.Maps id ∧ (dispatcher.all id).phase.isEnded = false := by
  refine ⟨by_contra fun hnot => hout (h.retired id hnot), ?_⟩
  rw [← Bool.not_eq_true]
  exact fun hended => hout ((h.worker id).outstanding_of_ended hended)

/-- One worker of a peer at most has something left to do. -/
theorem Sound.eq_of_peer (h : dispatcher.Sound maxHandlers perPeerCapacity capacity)
    {other : ℕ} (hpeer : (dispatcher.all id).peer = (dispatcher.all other).peer)
    (hout : (dispatcher.all id).outstanding ≠ 0)
    (hother : (dispatcher.all other).outstanding ≠ 0) : id = other := by
  have hmaps := (h.lives hout).1
  have hmaps' := (h.lives hother).1
  rw [Maps, hpeer] at hmaps
  exact Option.some.inj (hmaps.symm.trans hmaps')

theorem outstanding_ne_zero_of_handles (hhandles : worker.phase.handles = true) :
    worker.outstanding ≠ 0 := by
  intro hout
  have hnone := (outstanding_eq_zero_iff.mp hout).2
  cases hphase : worker.phase <;> rw [hphase] at hnone hhandles <;> cases hhandles
  cases hnone

theorem Sound.outstanding_le (h : dispatcher.Sound maxHandlers perPeerCapacity capacity) (id : ℕ) :
    (dispatcher.all id).outstanding ≤ perPeerCapacity + 1 := by
  have hqueue := (h.worker id).bounded
  rw [h.perPeerCapacity_eq] at hqueue
  have hinHand : (dispatcher.all id).phase.inHand.length ≤ 1 := by
    cases (dispatcher.all id).phase <;> simp [Phase.inHand]
  exact Nat.add_le_add hqueue hinHand

theorem Sound.peerTotal_le (h : dispatcher.Sound maxHandlers perPeerCapacity capacity)
    (peer : String) : dispatcher.peerTotal peer ≤ perPeerCapacity + 1 := by
  by_cases hnone : ∀ id ∈ (Finset.range dispatcher.spawned).filter
      (fun id => (dispatcher.all id).peer = peer), (dispatcher.all id).outstanding = 0
  · rw [peerTotal, Finset.sum_eq_zero hnone]
    exact Nat.zero_le _
  · push Not at hnone
    obtain ⟨id, hid, hout⟩ := hnone
    rw [peerTotal, Finset.sum_eq_single_of_mem id hid fun other hother hne => ?_]
    · exact h.outstanding_le id
    · by_contra hout'
      have hpeer : (dispatcher.all other).peer = (dispatcher.all id).peer :=
        (Finset.mem_filter.mp hother).2.trans (Finset.mem_filter.mp hid).2.symm
      exact hne (h.eq_of_peer hpeer hout' hout)

theorem Sound.running_le (h : dispatcher.Sound maxHandlers perPeerCapacity capacity) :
    dispatcher.running ≤ maxHandlers := by
  rw [running, Finset.card_filter, ← h.permits]
  refine le_trans (Finset.sum_le_sum fun id _ => ?_) (Nat.le_add_left _ _)
  have hpermit := (h.worker id).permit
  cases hphase : (dispatcher.all id).phase with
  | handling message permit =>
      rw [hpermit message permit hphase]
      cases hadmission : dispatcher.admission message <;>
        simp [Phase.runs, Phase.permits, hadmission]
  | _ => simp [Phase.runs]

/-- **Messages are handled once, in order and within the bounds**, whatever calls of
`dispatch` are made and however the workers' tasks run beside them, panic and are aborted. -/
theorem orderly (maxHandlers perPeerCapacity capacity : ℕ) (admission : M → Bool)
    (events : List (Event M)) :
    ((new maxHandlers perPeerCapacity capacity admission).run events).Orderly
      (max maxHandlers 1) (max perPeerCapacity 1) (max capacity 1) := by
  have h := (sound_new maxHandlers perPeerCapacity capacity admission).run events
  generalize (new maxHandlers perPeerCapacity capacity admission).run events = dispatcher at h
  exact
    { oneAtATime := fun id other hpeer hhandles hhandles' =>
        h.eq_of_peer hpeer (outstanding_ne_zero_of_handles hhandles)
          (outstanding_ne_zero_of_handles hhandles')
      inOrder := fun id => ⟨(h.worker id).started_accepted, (h.worker id).finished_started,
        fun halive => ((h.worker id).alive halive).2⟩
      accounted := fun id => (h.worker id).accounted
      undropped := fun id halive => ((h.worker id).alive halive).1
      kept := fun id hkept => h.lives fun hout => by
        obtain ⟨hqueue, hinHand⟩ := outstanding_eq_zero_iff.mp hout
        rcases hkept with hne | hne
        · exact hne hinHand
        · exact hne hqueue
      total_le := h.capacity_eq ▸ h.limit
      peerTotal_le := h.peerTotal_le
      running_le := h.running_le
      counter := fun id hmaps halive => (h.counts id hmaps).2 halive
      retires := fun event id hmaps hnot =>
        outstanding_eq_zero_iff.mp ((h.maps_step hmaps event).resolve_left hnot) }

end Dispatcher

/-! ## A limit of zero -/

namespace NoHandlers

/-- One message for a dispatcher that is made for no handlers. -/
def events : List (Event Unit) :=
  [.dispatch "peer" [()], .proceed true, .proceed true, .proceed true, .proceed true,
    .advance 0, .advance 0]

/-- A handler runs on it. -/
theorem handler_runs :
    ¬ ((Dispatcher.new 0 1 1 fun _ => false).run events).Orderly 0 1 1 := by
  intro h
  have hruns : ((Dispatcher.new 0 1 1 fun _ => false).run events).running = 1 := by decide
  exact absurd (hruns ▸ h.running_le) (by decide)

/-- Had the handler panicked, nothing of the message would be left. -/
example :
    (((Dispatcher.new 0 1 1 fun _ => false).run
      (events ++ [.panic 0, .advance 0])).all 0).log.dropped = [()] := by
  decide

end NoHandlers

end PubkySwap
