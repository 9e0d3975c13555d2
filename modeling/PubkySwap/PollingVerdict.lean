import PubkySwap.PollingRun

/-!
# What the poll scheduler promises

Two things hold in every run, whoever wakes which peer and wherever `recv` is dropped.  Only so
many polls run, and what has been counted of them is what runs (`System.Keeps`).  And a wake
is not lost: the peer stays with the waker, and `recv` is about to take it up, or it is in
the schedule and due there (`PeerInbox.Due`), until a poll of it is started.
-/

namespace PubkySwap

namespace Polling

variable {M : Type}

namespace PeerInbox

variable {inbox : PeerInbox} {peer other : String} {p : PeerPoll} {now : Instant}

/-! ## Peers that are due -/

/-- The peer has been woken since its last poll was started: it is due, or will be as soon as
the poll of it that runs has completed. -/
def Due (now : Instant) (peer : String) (inbox : PeerInbox) : Prop :=
  ∃ p, inbox.peers.lookup peer = some p ∧ p.woken = true ∧ (p.inFlight = false → p.due ≤ now)

/-- A due peer stays due while its entry does not change. -/
theorem Due.of_lookup {after : PeerInbox} (h : inbox.Due now peer)
    (hlookup : after.peers.lookup peer = inbox.peers.lookup peer) : after.Due now peer := by
  obtain ⟨p, hp, hdue⟩ := h
  exact ⟨p, hlookup.trans hp, hdue⟩

/-- A due peer stays due as the clock goes on. -/
theorem Due.mono {later : Instant} (h : inbox.Due now peer) (hle : now ≤ later) :
    inbox.Due later peer := by
  obtain ⟨p, hp, hwoken, hdue⟩ := h
  exact ⟨p, hp, hwoken, fun hidle => (hdue hidle).trans hle⟩

/-- A peer in the map is due when it is woken. -/
theorem due_markWoken (h : inbox.peers.lookup peer = some p) :
    (inbox.markWoken now peer).Due now peer := by
  unfold markWoken
  split
  case h_1 hnone => cases hnone.symm.trans h
  case h_2 q hq =>
      refine ⟨_, AList.lookup_insert _, rfl, fun hidle => (if_neg ?_).le⟩
      exact Bool.eq_false_iff.mp hidle

/-- Waking another peer, or the same one again, leaves a due peer due. -/
theorem Due.markWoken (h : inbox.Due now peer) (other : String) :
    (inbox.markWoken now other).Due now peer := by
  by_cases heq : peer = other
  · subst heq
    obtain ⟨p, hp, -⟩ := h
    exact due_markWoken hp
  · exact h.of_lookup (lookup_markWoken_of_ne heq)

/-- So does waking any list of peers. -/
theorem Due.foldl_markWoken (h : inbox.Due now peer) (woken : List String) :
    (woken.foldl (PeerInbox.markWoken now) inbox).Due now peer := by
  induction woken generalizing inbox with
  | nil => exact h
  | cons other woken ih => exact ih (h.markWoken other)

/-- Whoever is woken and in the schedule is due. -/
theorem due_foldl_markWoken {woken : List String} (hwoken : peer ∈ woken)
    (h : inbox.peers.lookup peer = some p) :
    (woken.foldl (markWoken now) inbox).Due now peer := by
  induction woken generalizing inbox with
  | nil => cases hwoken
  | cons other woken ih =>
      rw [List.foldl_cons]
      by_cases heq : peer = other
      · subst heq
        exact (due_markWoken h).foldl_markWoken woken
      · refine ih ((List.mem_cons.mp hwoken).resolve_left heq) ?_
        rw [lookup_markWoken_of_ne heq, h]

/-- A peer that is listed is in the schedule. -/
theorem exists_lookup_refresh (inbox : PeerInbox) (now : Instant) {listed : List String}
    (hlisted : peer ∈ listed) :
    ∃ p, (inbox.refresh now listed).peers.lookup peer = some p := by
  rw [lookup_refresh]
  split
  · exact ⟨_, if_pos (Or.inr hlisted)⟩
  · exact ⟨_, if_pos hlisted⟩

/-- A refresh that lists the peer leaves it due. -/
theorem Due.refresh {listed : List String} (h : inbox.Due now peer) (hlisted : peer ∈ listed) :
    (inbox.refresh now listed).Due now peer := by
  refine h.of_lookup ?_
  obtain ⟨p, hp, -⟩ := h
  rw [lookup_refresh, hp]
  exact if_pos (Or.inr hlisted)

/-- What a pass does before it launches leaves a listed peer due. -/
theorem Due.scheduled {listed : List String} (h : inbox.Due now peer) (hlisted : peer ∈ listed)
    (woken : List String) : (inbox.scheduled now listed woken).Due now peer := by
  refine Due.foldl_markWoken ?_ woken
  split
  · exact (h.refresh hlisted).of_lookup rfl
  · exact h

/-- A pass takes up those who were woken, if they are listed. -/
theorem due_scheduled {listed woken : List String} (hwoken : peer ∈ woken)
    (hlisted : peer ∈ listed) : (inbox.scheduled now listed woken).Due now peer := by
  obtain ⟨p, hp⟩ := exists_lookup_refresh inbox now hlisted
  unfold PeerInbox.scheduled
  rw [if_pos (Or.inr (Or.inl (List.ne_nil_of_mem hwoken)))]
  exact due_foldl_markWoken hwoken hp

/-- Whatever a poll has brought, a peer that was woken meanwhile is due when it completes. -/
theorem Due.complete (h : inbox.Due now peer) (latency : Duration) (outcome : Outcome M)
    (jitter : Duration → Duration) (hother : ∃ q, inbox.peers.lookup other = some q) :
    (inbox.complete now other latency outcome jitter).2.Due now peer := by
  obtain ⟨q, hq⟩ := hother
  by_cases heq : peer = other
  · subst heq
    obtain ⟨p, hp, hwoken, -⟩ := h
    have hwoken' := (outcomeOf_woken now inbox.config p outcome).trans hwoken
    have hlookup := congrArg (AList.lookup peer) (peers_complete hp now latency outcome jitter)
    exact ⟨_, hlookup.trans (AList.lookup_insert _), hwoken', fun _ => (if_pos hwoken').le⟩
  · refine h.of_lookup ?_
    rw [peers_complete hq, AList.lookup_insert_ne heq]

end PeerInbox

/-- The event is not a pass that finds the peer gone from the set of peers. -/
def Event.Lists (peer : String) : Event M → Prop
  | .pass listed => peer ∈ listed
  | .wake _ | .changed | .elapse _ | .recv | .complete .. | .timer | .notified | .cancel => True

namespace System

variable {system : System M} {config : PollConfig} {peer : String} {event : Event M}

/-! ## Steps -/

/-- A pass, read off the schedule from which it starts polls. -/
theorem pass_started (h : system.inbox.Sound) (listed : List String) :
    ∃ new, (system.pass listed).log.started = system.log.started ++ new ∧
      ∀ peer, peer ∉ new → (system.pass listed).inbox.peers.lookup peer =
        (system.inbox.scheduled system.clock listed system.waker.woken).peers.lookup peer := by
  obtain ⟨-, -, new, hpolls, hkept⟩ := h.pass system.clock listed system.waker.woken
  rw [(PeerInbox.scheduled_frame _ _ _ _).1] at hpolls
  refine ⟨new.map Poll.peer, ?_, hkept⟩
  show system.log.started ++ List.map Poll.peer (List.drop _ _) = _
  rw [hpolls, List.drop_left]

/-- A poll that has completed, read off the inbox it is taken from. -/
theorem inbox_complete (system : System M) (i : ℕ) (poll : Poll) (latency : Duration)
    (outcome : Outcome M) (jitter : Duration → Duration) :
    ∃ stats, (system.complete i poll latency outcome jitter).inbox =
      { ((system.inbox.taken i).complete system.clock poll.peer latency outcome jitter).2 with
        stats := stats } := by
  unfold System.complete
  dsimp only
  split
  case h_1 messages inbox heq =>
      have hinbox := congrArg Prod.snd heq
      dsimp only at hinbox
      exact ⟨_, by rw [PeerInbox.taken, hinbox]; rfl⟩
  case h_2 inbox heq =>
      have hinbox := congrArg Prod.snd heq
      dsimp only at hinbox
      exact ⟨_, by rw [PeerInbox.taken, hinbox]⟩

/-- What a step does that neither goes through the schedule nor completes a poll. -/
structure Quiet (before after : System M) : Prop where
  inbox : ∃ refreshNow, after.inbox = { before.inbox with refreshNow := refreshNow }
  clock : before.clock ≤ after.clock
  log : after.log = before.log
  woken : ∀ peer ∈ before.waker.woken, peer ∈ after.waker.woken
  notified : before.waker.notified = true ∨ before.control = .top →
    after.waker.notified = true ∨ after.control = .top

/-- A step that does nothing is quiet. -/
theorem Quiet.refl (system : System M) : Quiet system system :=
  ⟨⟨_, rfl⟩, le_refl _, rfl, fun _ h => h, fun h => h⟩

/-- A step changes where `recv` is, which is not before a pass. -/
theorem Quiet.of_control (hcontrol : system.control ≠ .top) (control : Control) :
    Quiet system { system with control := control } :=
  ⟨⟨_, rfl⟩, le_refl _, rfl, fun _ h => h, fun h => Or.inl (h.resolve_right hcontrol)⟩

/-- What a step can do: go through the schedule, complete a poll, or neither. -/
theorem step_cases (system : System M) (event : Event M) :
    (∃ listed, event = .pass listed ∧ system.control = .top ∧
        system.step event = system.pass listed) ∨
      (∃ i poll latency outcome jitter, system.inbox.inFlight[i]? = some poll ∧
        system.control = .waiting ∧
        system.step event = system.complete i poll latency outcome jitter) ∨
      Quiet system (system.step event) := by
  cases event with
  | wake peer =>
      exact .inr (.inr ⟨⟨_, rfl⟩, le_refl _, rfl, fun _ h => List.mem_insert_of_mem h,
        fun _ => Or.inl rfl⟩)
  | changed => exact .inr (.inr ⟨⟨_, rfl⟩, le_refl _, rfl, fun _ h => h, fun _ => Or.inl rfl⟩)
  | elapse duration =>
      exact .inr (.inr ⟨⟨_, rfl⟩, Nat.le_add_right _ _, rfl, fun _ h => h, fun h => h⟩)
  | recv =>
      refine .inr (.inr ?_)
      simp only [step]
      split
      case h_1 hcontrol => exact .of_control (by rw [hcontrol]; nofun) .top
      case h_2 | h_3 => exact .refl system
  | pass listed =>
      simp only [step]
      split
      case h_1 hcontrol => exact .inl ⟨listed, rfl, hcontrol, rfl⟩
      case h_2 | h_3 => exact .inr (.inr (.refl system))
  | complete i latency outcome jitter =>
      simp only [step]
      split
      case h_1 poll hcontrol hpoll =>
          exact .inr (.inl ⟨i, poll, latency, outcome, jitter, hpoll, hcontrol, rfl⟩)
      case h_2 => exact .inr (.inr (.refl system))
  | timer =>
      refine .inr (.inr ?_)
      simp only [step]
      split
      case h_1 hcontrol =>
          split
          · exact .of_control (by rw [hcontrol]; nofun) .top
          · exact .refl system
      case h_2 | h_3 => exact .refl system
  | notified =>
      refine .inr (.inr ?_)
      simp only [step]
      split
      case h_1 =>
          split
          · exact ⟨⟨true, rfl⟩, le_refl _, rfl, fun _ h => h, fun _ => Or.inr rfl⟩
          · exact .refl system
      case h_2 | h_3 => exact .refl system
  | cancel =>
      refine .inr (.inr ?_)
      simp only [step]
      split
      case h_1 hcontrol => exact .of_control (by rw [hcontrol]; nofun) .idle
      case h_2 | h_3 => exact .refl system

/-! ## Runs -/

/-- What holds in every state of a run. -/
structure Sound (config : PollConfig) (system : System M) : Prop where
  inbox : system.inbox.Sound
  config : system.inbox.config = config
  returned : system.log.returned = system.log.completed

/-- At the start no poll runs, and nothing has been returned. -/
theorem sound_initial (config : PollConfig) (now : Instant) :
    (initial config now : System M).Sound config := by
  refine ⟨⟨List.nodup_nil, nofun, fun peer streak h => ?_, Nat.zero_le _, Nat.zero_le _⟩, rfl, rfl⟩
  obtain ⟨p, hp, -⟩ := PeerInbox.slot_eq_some_iff.mp h
  cases hp

/-- What a poll has brought is returned by the call of `recv` that takes it. -/
theorem returned_complete (h : system.log.returned = system.log.completed) (i : ℕ) (poll : Poll)
    (latency : Duration) (outcome : Outcome M) (jitter : Duration → Duration) :
    (system.complete i poll latency outcome jitter).log.returned =
      (system.complete i poll latency outcome jitter).log.completed := by
  cases hlookup : system.inbox.peers.lookup poll.peer with
  | none =>
      rcases outcome with (_ | ⟨message, messages⟩) | _ | _ <;>
        simp [System.complete, PeerInbox.complete, hlookup, h]
  | some p =>
      rcases outcome with (_ | ⟨message, messages⟩) | _ | _ <;>
        simp [System.complete, PeerInbox.complete, hlookup, h]

/-- Every event keeps the bounds. -/
theorem Sound.step (h : system.Sound config) (event : Event M) :
    (system.step event).Sound config := by
  rcases system.step_cases event with ⟨listed, -, -, hstep⟩ |
    ⟨i, poll, latency, outcome, jitter, hpoll, -, hstep⟩ | hquiet
  · rw [hstep]
    obtain ⟨hsound, hconfig, -⟩ := h.inbox.pass system.clock listed system.waker.woken
    exact ⟨hsound, (hconfig.trans (PeerInbox.scheduled_frame _ _ _ _).2).trans h.config, h.returned⟩
  · rw [hstep]
    obtain ⟨stats, hinbox⟩ := system.inbox_complete i poll latency outcome jitter
    have hsound := h.inbox.complete hpoll system.clock latency outcome jitter
    refine ⟨?_, ?_, returned_complete h.returned i poll latency outcome jitter⟩
    · rw [hinbox]
      exact hsound.of_slot rfl rfl fun _ => rfl
    · rw [hinbox]
      exact (PeerInbox.complete_frame _ _ _ _ _ _).2.trans h.config
  · obtain ⟨refreshNow, hinbox⟩ := hquiet.inbox
    refine ⟨?_, ?_, ?_⟩
    · rw [hinbox]
      exact h.inbox.of_slot rfl rfl fun _ => rfl
    · rw [hinbox]
      exact h.config
    · rw [hquiet.log]
      exact h.returned

/-- Every list of events keeps the bounds. -/
theorem Sound.run (h : system.Sound config) (events : List (Event M)) :
    (system.run events).Sound config := by
  induction events generalizing system with
  | nil => exact h
  | cons event events ih => exact ih (h.step event)

/-! ## Wakes -/

/-- The wake of a peer is with the waker, and `recv` goes through the schedule when it can. -/
def Held (peer : String) (system : System M) : Prop :=
  peer ∈ system.waker.woken ∧ (system.waker.notified = true ∨ system.control = .top)

/-- No poll is forgotten by the log, and no pass. -/
theorem log_step (h : system.inbox.Sound) (event : Event M) (peer : String) :
    system.log.started.count peer ≤ (system.step event).log.started.count peer ∧
      system.log.passes ≤ (system.step event).log.passes := by
  rcases system.step_cases event with ⟨listed, -, -, hstep⟩ |
    ⟨i, poll, latency, outcome, jitter, -, -, hstep⟩ | hquiet
  · obtain ⟨new, hstarted, -⟩ := pass_started h listed
    rw [hstep, hstarted, List.count_append]
    exact ⟨Nat.le_add_right _ _, Nat.le_succ _⟩
  · rw [hstep]
    unfold System.complete
    dsimp only
    split <;> exact ⟨le_refl _, le_refl _⟩
  · rw [hquiet.log]
    exact ⟨le_refl _, le_refl _⟩

/-- A longer run has started at least as many polls and gone through as many passes. -/
theorem log_run (h : system.Sound config) (events : List (Event M)) (peer : String) :
    system.log.started.count peer ≤ (system.run events).log.started.count peer ∧
      system.log.passes ≤ (system.run events).log.passes := by
  induction events generalizing system with
  | nil => exact ⟨le_refl _, le_refl _⟩
  | cons event events ih =>
      obtain ⟨hstarted, hpasses⟩ := log_step h.inbox event peer
      obtain ⟨hstarted', hpasses'⟩ := ih (h.step event)
      exact ⟨hstarted.trans hstarted', hpasses.trans hpasses'⟩

/-- A pass finds no poll for a peer only if it leaves it as it was scheduled. -/
theorem due_pass (h : system.inbox.Sound) {listed : List String}
    (hdue : (system.inbox.scheduled system.clock listed system.waker.woken).Due system.clock peer)
    (hcount : (system.pass listed).log.started.count peer = system.log.started.count peer) :
    (system.pass listed).inbox.Due (system.pass listed).clock peer := by
  obtain ⟨new, hstarted, hkept⟩ := pass_started h listed
  refine hdue.of_lookup (hkept peer fun hnew => ?_)
  have hpos := List.count_pos_iff.mpr hnew
  rw [hstarted, List.count_append] at hcount
  omega

/-- **A peer that is due stays so** until a poll of it is started. -/
theorem due_step (h : system.inbox.Sound) (hlists : event.Lists peer)
    (hdue : system.inbox.Due system.clock peer)
    (hcount : (system.step event).log.started.count peer = system.log.started.count peer) :
    (system.step event).inbox.Due (system.step event).clock peer := by
  rcases system.step_cases event with ⟨listed, rfl, -, hstep⟩ |
    ⟨i, poll, latency, outcome, jitter, hpoll, -, hstep⟩ | hquiet
  · rw [hstep] at hcount ⊢
    exact due_pass h (hdue.scheduled hlists _) hcount
  · rw [hstep]
    obtain ⟨stats, hinbox⟩ := system.inbox_complete i poll latency outcome jitter
    have hclock : (system.complete i poll latency outcome jitter).clock = system.clock := by
      unfold System.complete
      dsimp only
      split <;> rfl
    rw [hinbox, hclock]
    obtain ⟨q, hq, -⟩ :=
      PeerInbox.slot_eq_some_iff.mp (h.held poll (List.mem_of_getElem? hpoll))
    have htaken : (system.inbox.taken i).Due system.clock peer := hdue.of_lookup rfl
    exact (htaken.complete latency outcome jitter ⟨q, hq⟩).of_lookup rfl
  · obtain ⟨refreshNow, hinbox⟩ := hquiet.inbox
    rw [hinbox]
    exact (hdue.of_lookup rfl).mono hquiet.clock

/-- **A wake stays with the waker** until `recv` takes it up. -/
theorem held_step (h : system.inbox.Sound) (hlists : event.Lists peer) (hheld : system.Held peer)
    (hcount : (system.step event).log.started.count peer = system.log.started.count peer) :
    ((system.step event).log.passes = system.log.passes ∧ (system.step event).Held peer) ∨
      (system.log.passes < (system.step event).log.passes ∧
        (system.step event).inbox.Due (system.step event).clock peer) := by
  rcases system.step_cases event with ⟨listed, rfl, -, hstep⟩ |
    ⟨i, poll, latency, outcome, jitter, hpoll, hcontrol, hstep⟩ | hquiet
  · rw [hstep] at hcount ⊢
    exact .inr ⟨Nat.lt_succ_self _, due_pass h (PeerInbox.due_scheduled hheld.1 hlists) hcount⟩
  · rw [hstep]
    have hnotified : system.waker.notified = true := by
      refine hheld.2.resolve_right ?_
      rw [hcontrol]
      nofun
    left
    unfold System.complete
    dsimp only
    split <;> exact ⟨rfl, hheld.1, Or.inl hnotified⟩
  · rw [hquiet.log]
    exact .inl ⟨rfl, hquiet.woken peer hheld.1, hquiet.notified hheld.2⟩

/-- A peer stays due as long as it is listed and no poll of it is started. -/
theorem due_run (h : system.Sound config) {events : List (Event M)}
    (hlists : ∀ event ∈ events, event.Lists peer) (hdue : system.inbox.Due system.clock peer)
    (hcount : (system.run events).log.started.count peer = system.log.started.count peer) :
    (system.run events).inbox.Due (system.run events).clock peer := by
  induction events generalizing system with
  | nil => exact hdue
  | cons event events ih =>
      have hstep := log_step h.inbox event peer
      have hrun := log_run (h.step event) events peer
      have hcount' : ((system.step event).run events).log.started.count peer =
          system.log.started.count peer := hcount
      have hfirst : (system.step event).log.started.count peer =
          system.log.started.count peer := by omega
      refine ih (h.step event) (fun later hlater => hlists later (List.mem_cons_of_mem _ hlater))
        (due_step h.inbox (hlists event List.mem_cons_self) hdue hfirst) (by omega)

/-- From a wake on, as long as no poll of the peer is started: the wake is with the waker until
a pass, and the peer is due from the pass on. -/
theorem held_run (h : system.Sound config) {events : List (Event M)}
    (hlists : ∀ event ∈ events, event.Lists peer) (hheld : system.Held peer)
    (hcount : (system.run events).log.started.count peer = system.log.started.count peer) :
    ((system.run events).log.passes = system.log.passes → (system.run events).Held peer) ∧
      (system.log.passes < (system.run events).log.passes →
        (system.run events).inbox.Due (system.run events).clock peer) := by
  induction events generalizing system with
  | nil => exact ⟨fun _ => hheld, fun hpasses => absurd hpasses (lt_irrefl _)⟩
  | cons event events ih =>
      have hstep := log_step h.inbox event peer
      have hrun := log_run (h.step event) events peer
      have hcount' : ((system.step event).run events).log.started.count peer =
          system.log.started.count peer := hcount
      have hfirst : (system.step event).log.started.count peer =
          system.log.started.count peer := by omega
      have hlater : ∀ later ∈ events, later.Lists peer :=
        fun later hmem => hlists later (List.mem_cons_of_mem _ hmem)
      rcases held_step h.inbox (hlists event List.mem_cons_self) hheld hfirst with
        ⟨hpasses, hheld'⟩ | ⟨hpasses, hdue⟩
      · rw [← hpasses]
        exact ih (h.step event) hlater hheld' (by omega)
      · refine ⟨fun heq => ?_, fun _ => due_run (h.step event) hlater hdue (by omega)⟩
        have heq' : ((system.step event).run events).log.passes = system.log.passes := heq
        omega

/-! ## The promise -/

/-- The bounds of the poll scheduler: how many polls run, of how many peers and on how many
stretched deadlines; that each, whether its peer is listed or not, is accounted for in its
peer's entry; and what has become of what the polls have brought. -/
structure Keeps (config : PollConfig) (system : System M) : Prop where
  running : system.inbox.inFlight.length ≤ max 1 config.maxInFlight
  onePerPeer : (system.inbox.inFlight.map Poll.peer).Nodup
  stretched : system.inbox.inFlight.countP (fun poll => decide (0 < poll.streak)) ≤
    max 1 (config.maxInFlight / 2)
  accounted : ∀ poll ∈ system.inbox.inFlight, ∃ p, system.inbox.peers.lookup poll.peer = some p ∧
    p.inFlight = true ∧ p.timeoutStreak = poll.streak
  free : system.inbox.stretchedSlotsFree = max 1 (config.maxInFlight / 2) -
    system.inbox.inFlight.countP (fun poll => decide (0 < poll.streak))
  returned : system.log.returned = system.log.completed

/-- The bounds as the configuration states them follow from the invariant. -/
theorem Sound.keeps (h : system.Sound config) : system.Keeps config := by
  have hmax : system.inbox.maxInFlight = max 1 config.maxInFlight := by
    rw [PeerInbox.maxInFlight, h.config, max_comm]
  have hslots : system.inbox.stretchedSlots = max 1 (config.maxInFlight / 2) := by
    rw [PeerInbox.stretchedSlots, hmax]
    omega
  refine ⟨hmax ▸ h.inbox.bounded, h.inbox.nodup, hslots ▸ h.inbox.stretched,
    fun poll hpoll => PeerInbox.slot_eq_some_iff.mp (h.inbox.held poll hpoll), ?_, h.returned⟩
  rw [PeerInbox.stretchedSlotsFree, h.inbox.countP_stretched, hslots]

/-- **The poll scheduler keeps its bounds and loses no wake**, in every run.  Of a wake of a peer
that is listed since: as long as no poll of the peer is started, the wake is with the waker
until `recv` goes through the schedule, and from that pass on the peer is due. -/
theorem bounded_and_due (config : PollConfig) (now : Instant) (events : List (Event M)) :
    ((initial config now).run events).Keeps config ∧
      ∀ before peer after, events = before ++ .wake peer :: after →
        (∀ event ∈ after, event.Lists peer) →
        ((initial config now).run events).log.started.count peer =
          ((initial config now).run before).log.started.count peer →
        (((initial config now).run events).log.passes =
            ((initial config now).run before).log.passes →
          ((initial config now).run events).Held peer) ∧
        (((initial config now).run before).log.passes <
            ((initial config now).run events).log.passes →
          ((initial config now).run events).inbox.Due
            ((initial config now).run events).clock peer) := by
  refine ⟨((sound_initial config now).run events).keeps, ?_⟩
  rintro before peer after rfl hlists hcount
  have hrun : (initial config now).run (before ++ .wake peer :: after) =
      (((initial config now).run before).step (.wake peer)).run after := by
    rw [run, run, List.foldl_append]
    rfl
  have hsound := ((sound_initial config now).run before).step (.wake peer)
  have hheld : (((initial config now).run before).step (.wake peer)).Held peer :=
    ⟨List.mem_insert_self, Or.inl rfl⟩
  rw [hrun] at hcount ⊢
  exact held_run hsound hlists hheld hcount

end System

/-! ## A wake while the peer is polled

The peer is polled at once, as it is new; it is woken while the poll runs, and the poll
fails. -/

namespace WokenMeanwhile

def config : PollConfig := { maxInFlight := 1 }

/-- The inbox of the first pass, before polls are started. -/
def listed : PeerInbox := (PeerInbox.new config 0).scheduled 0 ["peer"] []

def polled : PeerInbox := (listed.begin "peer" (.new 0 config.activeHold) false).publish 0

/-- The first pass starts the one poll that it can. -/
theorem launch_listed :
    listed.launch 0 = listed.begin "peer" (.new 0 config.activeHold) false := by
  have hwoken : listed.candidates 0 true = [] := by decide
  have hoverdue : listed.candidates 0 false = [(0, "peer")] := by decide
  have hslots : listed.stretchedSlotsFree = 1 := by decide
  have hfree : listed.maxInFlight - listed.inFlight.length = 1 := by decide
  have hlookup : listed.peers.lookup "peer" = some (.new 0 config.activeHold) := rfl
  simp [PeerInbox.launch, hwoken, hoverdue, hslots, hfree, earliest, PeerInbox.start,
    PeerInbox.pop, hlookup, PeerPoll.new]

/-- The first pass of a new inbox, computed. -/
theorem pass_new : (PeerInbox.new config 0).pass 0 ["peer"] [] = polled := by
  rw [PeerInbox.pass_eq]
  show (let launched := (listed.launch 0).publish 0
    if launched.nextStatsLog ≤ 0 then { launched with nextStatsLog := 0 + statsLogInterval }
    else launched) = polled
  rw [launch_listed]
  rfl

def before : List (Event ℕ) := [.recv, .pass ["peer"]]

def after : List (Event ℕ) := [.notified, .pass ["peer"], .complete 0 5 .failed id]

/-- The state after the first pass, computed. -/
theorem run_before : (System.initial config 0).run before =
    ⟨polled, {}, 0, .waiting, { passes := 1, started := ["peer"] }⟩ := by
  have hpass : (System.initial config 0).run before =
      System.pass ["peer"] ⟨.new config 0, {}, 0, .top, {}⟩ := rfl
  rw [hpass, System.pass]
  simp only [pass_new]
  rfl

/-- The run in two parts, at the wake. -/
theorem run_after : (System.initial config 0).run (before ++ .wake "peer" :: after) =
    (⟨polled, {}, 0, .waiting, { passes := 1, started := ["peer"] }⟩ : System ℕ).run
      (.wake "peer" :: after) := by
  rw [← run_before, System.run, List.foldl_append]
  rfl

/-- The wake that came while the poll ran has left the peer due. -/
theorem peer_due : ((System.initial config 0).run (before ++ .wake "peer" :: after)).inbox.Due
    ((System.initial config 0).run (before ++ .wake "peer" :: after)).clock "peer" := by
  refine ((System.bounded_and_due config 0 _).2 before "peer" after rfl ?_ ?_).2 ?_
  · intro event hevent
    simp only [after, List.mem_cons, List.not_mem_nil, or_false] at hevent
    rcases hevent with rfl | rfl | rfl
    · trivial
    · exact List.mem_singleton_self _
    · trivial
  · rw [run_after, run_before]
    decide
  · rw [run_after, run_before]
    decide

end WokenMeanwhile

end Polling

end PubkySwap
