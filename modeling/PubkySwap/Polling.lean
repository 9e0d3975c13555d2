import PubkySwap.Lib.KeyedMap
import PubkySwap.Lib.Word

/-!
# Polling the peers

Messages are pulled, one conversation per peer.  The inbox polls each peer on a clock of its
own: a peer that has just sent something again soon, a quiet or failing one less and less
often, and a peer that someone has woken at once.  So many polls run at once and no more,
and of those with a stretched deadline, which peers get whose polls keep timing out, no more
than half as many.

The inbox is driven by its caller.  `recv` goes through the schedule (`pass`), waits for a
poll to complete, for the clock or for a notification, and goes through the schedule again,
until a poll has brought something.  It may be dropped where it waits.  Whoever wakes a peer
does so from another thread; the inbox takes up all of them at the start of a pass.  What a
poll answers and how its interval is shortened at random is the environment's, and so is the
set of peers.
-/

namespace PubkySwap

namespace Polling

/-- In nanoseconds, as is `Instant`. -/
abbrev Duration := ℕ

abbrev Instant := ℕ

/-- `PEER_REFRESH`. -/
def peerRefresh : Duration := 1000000000

/-- `ACTIVE_WINDOW`. -/
def activeWindow : Duration := 60000000000

/-- `STATS_LOG_INTERVAL`. -/
def statsLogInterval : Duration := 60000000000

structure PollConfig where
  maxInFlight : ℕ := 16
  pollTimeout : Duration := 10000000000
  activeInterval : Duration := 200000000
  activeHold : Duration := 10000000000
  idleMaxInterval : Duration := 5000000000
  failureMaxInterval : Duration := 30000000000

/-- New messages from one peer. -/
structure PeerBatch (M : Type) where
  peer : String
  messages : List M

structure PollStats where
  peers : ℕ := 0
  activePeers : ℕ := 0
  inFlight : ℕ := 0
  polls : ℕ := 0
  emptyPolls : ℕ := 0
  failedPolls : ℕ := 0
  timedOutPolls : ℕ := 0
  lastLatency : Duration := 0
  totalLatency : Duration := 0

/-- `PollWaker`: the peers to poll right away, and the permit of its `Notify`. -/
structure PollWaker where
  woken : List String := []
  notified : Bool := false

/-- `wake`. -/
def PollWaker.wake (peer : String) (waker : PollWaker) : PollWaker :=
  { woken := waker.woken.insert peer, notified := true }

inductive Outcome (M : Type) where
  | messages (messages : List M)
  | failed
  | timedOut

structure PeerPoll where
  due : Instant
  idleStreak : ℕ := 0
  failureStreak : ℕ := 0
  timeoutStreak : ℕ := 0
  inFlight : Bool := false
  woken : Bool := false
  lastDelivery : Option Instant := none
  hotUntil : Instant

/-- `PeerPoll::new`. -/
def PeerPoll.new (now : Instant) (hold : Duration) : PeerPoll :=
  { due := now, hotUntil := now + hold }

/-- A poll that runs: its peer, its deadline, and how often the peer's polls had timed out
when it was started. -/
structure Poll where
  peer : String
  streak : ℕ
  deadline : Duration

/-- `backoff`: `base * 2^streak`, capped. -/
def backoff (base : Duration) (streak : ℕ) (cap : Duration) : Duration :=
  min (base * 2 ^ min streak 16) cap

/-- The order of `(Instant, &String)`. -/
def dueBefore (a b : Instant × String) : Bool :=
  decide (a.1 < b.1 ∨ a.1 = b.1 ∧ a.2 ≤ b.2)

/-- `earliest`: the `n` earliest-due peers, in the order in which they are popped. -/
def earliest (due : List (Instant × String)) (n : ℕ) : List String :=
  ((due.mergeSort dueBefore).take n).map Prod.snd

structure PeerInbox where
  config : PollConfig
  stats : PollStats
  peers : AList fun _ : String => PeerPoll
  inFlight : List Poll
  refreshNow : Bool
  nextRefresh : Instant
  nextStatsLog : Instant
  wokenTurn : Bool

namespace PeerInbox

variable {M : Type}

/-- `PeerInbox::new`. -/
def new (config : PollConfig) (now : Instant) : PeerInbox where
  config := config
  stats := {}
  peers := ∅
  inFlight := []
  refreshNow := true
  nextRefresh := now
  nextStatsLog := now + statsLogInterval
  wokenTurn := true

/-- `max_in_flight`. -/
def maxInFlight (inbox : PeerInbox) : ℕ := max inbox.config.maxInFlight 1

/-- How many polls may run on a stretched deadline. -/
def stretchedSlots (inbox : PeerInbox) : ℕ := max (inbox.maxInFlight / 2) 1

/-- `stretched_slots_free`. -/
def stretchedSlotsFree (inbox : PeerInbox) : ℕ :=
  let running := inbox.peers.entries.countP fun e => e.2.inFlight && decide (0 < e.2.timeoutStreak)
  inbox.stretchedSlots - running

/-- `refresh`, the peers being listed so. -/
def refresh (now : Instant) (listed : List String) (inbox : PeerInbox) : PeerInbox :=
  let kept := inbox.peers.retain fun peer p => p.inFlight || decide (peer ∈ listed)
  { inbox with
    peers := listed.foldl (fun peers peer =>
      if peer ∈ peers then peers
      else peers.insert peer (.new now inbox.config.activeHold)) kept }

/-- What `recv` does with one peer that was woken. -/
def markWoken (now : Instant) (inbox : PeerInbox) (peer : String) : PeerInbox :=
  match inbox.peers.lookup peer with
  | none => inbox
  | some p =>
      { inbox with
        peers := inbox.peers.insert peer
          { p with
            idleStreak := 0
            failureStreak := 0
            hotUntil := now + inbox.config.activeHold
            woken := true
            due := if p.inFlight then p.due else now } }

/-! ## Starting polls -/

/-- The peer for the next free slot, and whether it is a woken one.  Woken and overdue peers
take turns. -/
def pop (wokenTurn : Bool) (woken overdue : List String) :
    Option (String × Bool × List String × List String) :=
  if (wokenTurn = true ∧ woken ≠ []) ∨ overdue = [] then
    match woken with
    | [] => none
    | peer :: woken => some (peer, true, woken, overdue)
  else
    match overdue with
    | [] => none
    | peer :: overdue => some (peer, false, woken, overdue)

theorem length_pop {wokenTurn takeWoken : Bool} {woken overdue woken' overdue' : List String}
    {peer : String}
    (h : pop wokenTurn woken overdue = some (peer, takeWoken, woken', overdue')) :
    woken'.length + overdue'.length < woken.length + overdue.length := by
  unfold pop at h
  split at h
  · split at h
    · cases h
    · cases h
      simp only [List.length_cons]
      omega
  · split at h
    · cases h
    · cases h
      simp only [List.length_cons]
      omega

/-- A poll of the peer, with its deadline. -/
def pollOf (peer : String) (p : PeerPoll) (inbox : PeerInbox) : Poll :=
  let base := inbox.config.pollTimeout
  ⟨peer, p.timeoutStreak, backoff base p.timeoutStreak (base * 64)⟩

/-- A poll of the peer is started. -/
def begin (peer : String) (p : PeerPoll) (takeWoken : Bool) (inbox : PeerInbox) : PeerInbox :=
  { inbox with
    wokenTurn := !takeWoken
    peers := inbox.peers.insert peer { p with inFlight := true, woken := false }
    inFlight := inbox.inFlight ++ [inbox.pollOf peer p] }

/-- The loop of `launch`, with so many slots free, and so many for stretched deadlines. -/
def start (free stretchedFree : ℕ) (woken overdue : List String) (inbox : PeerInbox) :
    PeerInbox :=
  match free with
  | 0 => inbox
  | free + 1 =>
      match _ : pop inbox.wokenTurn woken overdue with
      | none => inbox
      | some (peer, takeWoken, woken', overdue') =>
          match inbox.peers.lookup peer with
          | none => inbox.start (free + 1) stretchedFree woken' overdue'
          | some p =>
              if 0 < p.timeoutStreak ∧ stretchedFree = 0 then
                inbox.start (free + 1) stretchedFree woken' overdue'
              else
                (inbox.begin peer p takeWoken).start free
                  (if 0 < p.timeoutStreak then stretchedFree - 1 else stretchedFree)
                  woken' overdue'
termination_by woken.length + overdue.length
decreasing_by
  all_goals exact length_pop ‹_›

/-- The peers that are due and may be polled, woken ones or others. -/
def candidates (now : Instant) (woken : Bool) (inbox : PeerInbox) : List (Instant × String) :=
  (inbox.peers.entries.filter fun e =>
    !e.2.inFlight && !(decide (inbox.stretchedSlotsFree = 0) && decide (0 < e.2.timeoutStreak)) &&
      decide (e.2.due ≤ now) && e.2.woken == woken).map fun e => (e.2.due, e.1)

/-- `launch`. -/
def launch (now : Instant) (inbox : PeerInbox) : PeerInbox :=
  let free := inbox.maxInFlight - inbox.inFlight.length
  if free = 0 then inbox
  else
    inbox.start free inbox.stretchedSlotsFree (earliest (inbox.candidates now true) free)
      (earliest (inbox.candidates now false) free)

/-! ## Completed polls -/

/-- What a completed poll leaves of its peer's streaks, and the interval to the next one. -/
def outcomeOf (now : Instant) (config : PollConfig) (p : PeerPoll) :
    Outcome M → PeerPoll × Duration
  | .messages (_ :: _) =>
      ({ p with
        idleStreak := 0
        failureStreak := 0
        timeoutStreak := 0
        lastDelivery := some now
        hotUntil := now + config.activeHold }, config.activeInterval)
  | .messages [] =>
      let p := { p with failureStreak := 0, timeoutStreak := 0 }
      if now < p.hotUntil then (p, config.activeInterval)
      else
        let idleStreak := Word.saturatingAdd 32 p.idleStreak 1
        ({ p with idleStreak := idleStreak },
          backoff config.activeInterval idleStreak config.idleMaxInterval)
  | .failed =>
      let failureStreak := Word.saturatingAdd 32 p.failureStreak 1
      ({ p with failureStreak := failureStreak },
        backoff config.activeInterval failureStreak config.failureMaxInterval)
  | .timedOut =>
      let failureStreak := Word.saturatingAdd 32 p.failureStreak 1
      ({ p with
        timeoutStreak := Word.saturatingAdd 32 p.timeoutStreak 1
        failureStreak := failureStreak },
        backoff config.activeInterval failureStreak config.failureMaxInterval)

/-- The counters after a completed poll. -/
def countOutcome (latency : Duration) (stats : PollStats) : Outcome M → PollStats
  | .messages (_ :: _) => counted
  | .messages [] => { counted with emptyPolls := stats.emptyPolls + 1 }
  | .failed => { counted with failedPolls := stats.failedPolls + 1 }
  | .timedOut => { counted with timedOutPolls := stats.timedOutPolls + 1 }
where
  counted := { stats with
    polls := stats.polls + 1
    lastLatency := latency
    totalLatency := stats.totalLatency + latency }

/-- `complete`: the schedule after a completed poll, and what it has brought.  `jitter` is what
`Jitter::apply` makes of an interval. -/
def complete (now : Instant) (peer : String) (latency : Duration) (outcome : Outcome M)
    (jitter : Duration → Duration) (inbox : PeerInbox) : Option (List M) × PeerInbox :=
  let delivery := match outcome with
    | .messages (message :: messages) => some (message :: messages)
    | _ => none
  let inbox := { inbox with stats := countOutcome latency inbox.stats outcome }
  match inbox.peers.lookup peer with
  | none => (delivery, inbox)
  | some p =>
      let (p, interval) := outcomeOf now inbox.config p outcome
      (delivery,
        { inbox with
          peers := inbox.peers.insert peer
            { p with
              inFlight := false
              due := if p.woken then now else now + jitter interval } })

/-- `publish`. -/
def publish (now : Instant) (inbox : PeerInbox) : PeerInbox :=
  { inbox with
    stats := { inbox.stats with
      peers := inbox.peers.entries.length
      inFlight := inbox.inFlight.length
      activePeers := inbox.peers.entries.countP fun e =>
        e.2.lastDelivery.any fun t => decide (now - t < activeWindow) } }

/-- When `recv` wakes up by itself. -/
def wakeAt (inbox : PeerInbox) : Instant :=
  let wakeAt := min inbox.nextRefresh inbox.nextStatsLog
  if inbox.inFlight.length < inbox.maxInFlight then
    let waiting := inbox.peers.entries.filter fun e =>
      !e.2.inFlight && (decide (inbox.stretchedSlotsFree ≠ 0) || e.2.timeoutStreak == 0)
    (waiting.map fun e => e.2.due).foldl min wakeAt
  else wakeAt

/-- One pass of the loop of `recv` up to where it waits. -/
def pass (now : Instant) (listed woken : List String) (inbox : PeerInbox) : PeerInbox :=
  let inbox :=
    if inbox.refreshNow = true ∨ woken ≠ [] ∨ inbox.nextRefresh ≤ now then
      { inbox.refresh now listed with nextRefresh := now + peerRefresh, refreshNow := false }
    else inbox
  let inbox := ((woken.foldl (markWoken now) inbox).launch now).publish now
  if inbox.nextStatsLog ≤ now then { inbox with nextStatsLog := now + statsLogInterval }
  else inbox

end PeerInbox

/-! ## Runs -/

/-- Where the caller of the inbox is: not in `recv`, before a pass, or where `recv` waits. -/
inductive Control where
  | idle
  | top
  | waiting

/-- What has happened, each list in order. -/
structure Log (M : Type) where
  passes : ℕ := 0
  started : List String := []
  completed : List (PeerBatch M) := []
  returned : List (PeerBatch M) := []

/-- The inbox with its waker, the clock and its caller. -/
structure System (M : Type) where
  inbox : PeerInbox
  waker : PollWaker
  clock : Instant
  control : Control
  log : Log M

inductive Event (M : Type) where
  /-- Someone wakes a peer. -/
  | wake (peer : String)
  /-- Someone says that the set of peers has changed. -/
  | changed
  | elapse (duration : Duration)
  /-- `recv` is called. -/
  | recv
  /-- `recv` goes through the schedule. -/
  | pass (listed : List String)
  /-- The poll at this place has completed. -/
  | complete (i : ℕ) (latency : Duration) (outcome : Outcome M) (jitter : Duration → Duration)
  | timer
  | notified
  /-- The future of `recv` is dropped. -/
  | cancel

namespace System

variable {M : Type}

def initial (config : PollConfig) (now : Instant) : System M :=
  ⟨.new config now, {}, now, .idle, {}⟩

/-- `recv` goes through the schedule. -/
def pass (listed : List String) (system : System M) : System M :=
  let inbox := system.inbox.pass system.clock listed system.waker.woken
  { system with
    inbox := inbox
    waker := { system.waker with woken := [] }
    control := .waiting
    log := { system.log with
      passes := system.log.passes + 1
      started := system.log.started ++
        (inbox.inFlight.drop system.inbox.inFlight.length).map Poll.peer } }

/-- A poll has completed.  If it has brought something, `recv` returns. -/
def complete (i : ℕ) (poll : Poll) (latency : Duration) (outcome : Outcome M)
    (jitter : Duration → Duration) (system : System M) : System M :=
  let taken := { system.inbox with inFlight := system.inbox.inFlight.eraseIdx i }
  let completed := match outcome with
    | .messages [] => []
    | .messages messages => [⟨poll.peer, messages⟩]
    | .failed | .timedOut => []
  let log := { system.log with completed := system.log.completed ++ completed }
  match taken.complete system.clock poll.peer latency outcome jitter with
  | (some messages, inbox) =>
      { system with
        inbox := inbox.publish system.clock
        control := .idle
        log := { log with returned := log.returned ++ [⟨poll.peer, messages⟩] } }
  | (none, inbox) => { system with inbox := inbox, control := .top, log := log }

def step (system : System M) : Event M → System M
  | .wake peer => { system with waker := system.waker.wake peer }
  | .changed => { system with waker := { system.waker with notified := true } }
  | .elapse duration => { system with clock := system.clock + duration }
  | .recv =>
      match system.control with
      | .idle => { system with control := .top }
      | .top | .waiting => system
  | .pass listed =>
      match system.control with
      | .top => system.pass listed
      | .idle | .waiting => system
  | .complete i latency outcome jitter =>
      match system.control, system.inbox.inFlight[i]? with
      | .waiting, some poll => system.complete i poll latency outcome jitter
      | _, _ => system
  | .timer =>
      match system.control with
      | .waiting =>
          if system.inbox.wakeAt ≤ system.clock then { system with control := .top } else system
      | .idle | .top => system
  | .notified =>
      match system.control with
      | .waiting =>
          if system.waker.notified then
            { system with
              inbox := { system.inbox with refreshNow := true }
              waker := { system.waker with notified := false }
              control := .top }
          else system
      | .idle | .top => system
  | .cancel =>
      match system.control with
      | .waiting => { system with control := .idle }
      | .idle | .top => system

def run (events : List (Event M)) (system : System M) : System M :=
  events.foldl step system

end System

end Polling

end PubkySwap
