import PubkySwap.Lib.Word
import PubkySwap.Lib.KeyedSum
import PubkySwap.Swap

/-!
# Bounds on what a provider has at risk at once

The accounting behind admission: two totals, a per-peer breakdown with the
recent starts of each peer, the live reservations, and the wallet funds promised
to reverse swaps that have not funded yet.  Every operation takes the manager's
lock for its whole body, so each one is a function on `Inner`.

A reservation is held by a guard and released when the guard drops.  `Manager`
pairs the accounting with the guards currently alive; `step` performs one
operation on it at a given instant and says what the caller was told.
-/

namespace PubkySwap.Risk

/-- The operator's limits. -/
structure RiskLimits where
  maxConcurrentSwaps : ℕ := 25
  maxConcurrentPerPeer : ℕ := 2
  maxTotalExposureSat : ℕ := 5000000
  maxExposurePerPeerSat : ℕ := 1000000
  minOnchainReserveSat : ℕ := 100000
  /-- New swaps one peer may start per hour. -/
  maxNewSwapsPerPeerPerHour : ℕ := 6
  /-- The hourly limit is a `u32`. -/
  maxNewSwaps_lt : maxNewSwapsPerPeerPerHour < 2 ^ 32 := by decide

/-- Why a swap was refused. -/
inductive RejectReason where
  | atCapacity (inFlight max : ℕ)
  | peerAtCapacity (inFlight max : ℕ)
  | exposureExceeded (committedSat maxSat : ℕ)
  | peerExposureExceeded (committedSat maxSat : ℕ)
  | rateLimited (started maxPerHour : ℕ)
  | alreadyReserved
  deriving DecidableEq, Repr

/-- What one counterparty currently holds. -/
structure PeerState where
  committedSat : ℕ := 0
  inFlight : ℕ := 0
  /-- When each recent swap was started, for the hourly rate limit. -/
  recentStarts : List Instant := []
  deriving DecidableEq, Repr

/-- The accounting under the lock. -/
structure Inner where
  totalCommittedSat : ℕ
  totalInFlight : ℕ
  peers : AList fun _ : String => PeerState
  /-- Which peer each reservation belongs to, and for how much. -/
  reservations : AList fun _ : Uuid => String × ℕ
  /-- Wallet funds promised to reverse swaps that have not funded yet. -/
  fundingClaims : AList fun _ : Uuid => ℕ

/-- Why a reverse swap's funding could not be promised. -/
structure FundingShortfall where
  availableSat : ℕ
  claimedSat : ℕ
  neededSat : ℕ
  deriving DecidableEq, Repr

inductive ReservationMode where
  | new
  | pending
  | funded
  deriving DecidableEq, Repr

/-- `RiskManager::new`: nothing committed. -/
def Inner.new : Inner where
  totalCommittedSat := 0
  totalInFlight := 0
  peers := ∅
  reservations := ∅
  fundingClaims := ∅

/-- The window the start limit counts over. -/
def hour : ℕ := durationFromSecs 3600

/-- What the peer map records for a peer, an absent entry reading as empty. -/
def peerOf (peers : AList fun _ : String => PeerState) (peer : String) : PeerState :=
  (peers.lookup peer).getD {}

/-- `recent_starts.retain(|t| now.duration_since(*t) < hour)`. -/
def PeerState.prune (now : Instant) (state : PeerState) : PeerState :=
  { state with recentStarts := state.recentStarts.filter fun t => now - t < hour }

/-- `peers.entry(peer).or_default()`, with the entry's old starts pruned. -/
def touchPeer (now : Instant) (peer : String) (inner : Inner) : Inner :=
  { inner with peers := inner.peers.insert peer ((peerOf inner.peers peer).prune now) }

/-- The per-peer checks of `reserve_inner`, in its order. -/
def peerRefusal (limits : RiskLimits) (mode : ReservationMode) (state : PeerState)
    (amountSat : ℕ) : Option RejectReason :=
  let started := Word.truncate 32 state.recentStarts.length
  let wouldCommit := Word.saturatingAdd 64 state.committedSat amountSat
  if mode = .new ∧ limits.maxNewSwapsPerPeerPerHour ≤ started then
    some (.rateLimited started limits.maxNewSwapsPerPeerPerHour)
  else if limits.maxConcurrentPerPeer ≤ state.inFlight then
    some (.peerAtCapacity state.inFlight limits.maxConcurrentPerPeer)
  else if limits.maxExposurePerPeerSat < wouldCommit then
    some (.peerExposureExceeded wouldCommit limits.maxExposurePerPeerSat)
  else none

/-- The checks of `reserve_inner` against the totals. -/
def totalRefusal (limits : RiskLimits) (inner : Inner) (amountSat : ℕ) :
    Option RejectReason :=
  let wouldCommit := Word.saturatingAdd 64 inner.totalCommittedSat amountSat
  if limits.maxConcurrentSwaps ≤ inner.totalInFlight then
    some (.atCapacity inner.totalInFlight limits.maxConcurrentSwaps)
  else if limits.maxTotalExposureSat < wouldCommit then
    some (.exposureExceeded wouldCommit limits.maxTotalExposureSat)
  else none

/-- The updates of a reservation that was not refused. -/
def commitReservation (now : Instant) (peer : String) (swapId : Uuid) (amountSat : ℕ)
    (mode : ReservationMode) (inner : Inner) : Inner :=
  let state := peerOf inner.peers peer
  { inner with
    totalCommittedSat := Word.saturatingAdd 64 inner.totalCommittedSat amountSat
    totalInFlight := inner.totalInFlight + 1
    reservations := inner.reservations.insert swapId (peer, amountSat)
    peers := inner.peers.insert peer
      { committedSat := Word.saturatingAdd 64 state.committedSat amountSat
        inFlight := state.inFlight + 1
        recentStarts :=
          if mode = .new then state.recentStarts ++ [now] else state.recentStarts } }

/-- `reserve_inner`.  A refusal past the first check still leaves the peer's
entry behind, with its old starts pruned. -/
def reserveInner (limits : RiskLimits) (now : Instant) (peer : String) (swapId : Uuid)
    (amountSat : ℕ) (mode : ReservationMode) (inner : Inner) :
    Except RejectReason Unit × Inner :=
  if swapId ∈ inner.reservations then (.error .alreadyReserved, inner)
  else
    let inner := touchPeer now peer inner
    let refusal :=
      if mode = .funded then none
      else (peerRefusal limits mode (peerOf inner.peers peer) amountSat).or
        (totalRefusal limits inner amountSat)
    match refusal with
    | some reason => (.error reason, inner)
    | none => (.ok (), commitReservation now peer swapId amountSat mode inner)

/-- What releasing a reservation of `amount` does to its peer's entry.  The
start history outlives the swap, so only an entry without any goes. -/
def releasePeer (peer : String) (amount : ℕ) (peers : AList fun _ : String => PeerState) :
    AList fun _ : String => PeerState :=
  match peers.lookup peer with
  | none => peers
  | some state =>
      let state := { state with
        committedSat := state.committedSat - amount
        inFlight := state.inFlight - 1 }
      if state.committedSat = 0 ∧ state.inFlight = 0 ∧ state.recentStarts = [] then
        peers.erase peer
      else peers.insert peer state

/-- `release`, which a dropped guard runs. -/
def release (swapId : Uuid) (inner : Inner) : Inner :=
  let inner := { inner with fundingClaims := inner.fundingClaims.erase swapId }
  match inner.reservations.lookup swapId with
  | none => inner
  | some (peer, amount) =>
      { inner with
        reservations := inner.reservations.erase swapId
        totalCommittedSat := inner.totalCommittedSat - amount
        totalInFlight := inner.totalInFlight - 1
        peers := releasePeer peer amount inner.peers }

/-- What every swap but `swapId` has claimed and not yet funded, as
`claim_funding` adds it up. -/
def claimedByOthers (swapId : Uuid) (inner : Inner) : ℕ :=
  Word.saturatingSum 64
    ((inner.fundingClaims.entries.filter fun e => e.1 ≠ swapId).map fun e => e.2)

/-- Only a reserved swap holds a claim, because its release clears it again. -/
def recordClaim (swapId : Uuid) (claimSat : ℕ) (inner : Inner) : Inner :=
  if swapId ∈ inner.reservations then
    { inner with fundingClaims := inner.fundingClaims.insert swapId claimSat }
  else inner

/-- `claim_funding`: promise `claimSat` of the wallet to a reverse swap, if the
wallet still covers it.  No reported balance means nothing is refused. -/
def claimFunding (swapId : Uuid) (claimSat : ℕ) (availableSat : Option ℕ) (reserveSat : ℕ)
    (inner : Inner) : Except FundingShortfall Unit × Inner :=
  let neededSat := Word.saturatingAdd 64 claimSat reserveSat
  match availableSat with
  | some available =>
      let claimedSat := claimedByOthers swapId inner
      if available - claimedSat < neededSat then
        (.error ⟨available, claimedSat, neededSat⟩, inner)
      else (.ok (), recordClaim swapId claimSat inner)
  | none => (.ok (), recordClaim swapId claimSat inner)

/-- `restore_funding_claim`: never refused. -/
def restoreFundingClaim (swapId : Uuid) (claimSat : ℕ) (inner : Inner) : Inner :=
  recordClaim swapId claimSat inner

/-- `funding_settled`: the wallet's balance now shows the funding. -/
def fundingSettled (swapId : Uuid) (inner : Inner) : Inner :=
  { inner with fundingClaims := inner.fundingClaims.erase swapId }

/-- `restore`: re-establish accounting from persisted records, each given by
its peer, its swap and its amount.  The guards are those of the records that
could be reserved. -/
def restore (limits : RiskLimits) (now : Instant) :
    List (String × Uuid × ℕ) → Inner → List Uuid × Inner
  | [], inner => ([], inner)
  | (peer, swapId, amountSat) :: active, inner =>
      let (answer, inner) := reserveInner limits now peer swapId amountSat .funded inner
      let (guards, inner) := restore limits now active inner
      match answer with
      | .ok () => (swapId :: guards, inner)
      | .error _ => (guards, inner)

/-! ## The manager and its guards -/

/-- The accounting together with the guards alive. -/
structure Manager where
  inner : Inner
  guards : List Uuid

/-- `RiskManager::new`, with no guard handed out yet. -/
def Manager.new : Manager := ⟨Inner.new, []⟩

/-- One call on the manager. -/
inductive Op where
  | reserve (peer : String) (swapId : Uuid) (amountSat : ℕ)
  | reservePending (peer : String) (swapId : Uuid) (amountSat : ℕ)
  | restore (active : List (String × Uuid × ℕ))
  | dropGuard (swapId : Uuid)
  | claimFunding (swapId : Uuid) (claimSat : ℕ) (availableSat : Option ℕ) (reserveSat : ℕ)
  | restoreFundingClaim (swapId : Uuid) (claimSat : ℕ)
  | fundingSettled (swapId : Uuid)
  deriving DecidableEq, Repr

/-- What a call answered. -/
inductive Answer where
  | admitted
  | refused (reason : RejectReason)
  | claimed
  | shortfall (why : FundingShortfall)
  | done
  deriving DecidableEq, Repr

/-- An admission through `reserve_inner` hands out a guard when it succeeds. -/
def reserveAs (limits : RiskLimits) (now : Instant) (peer : String) (swapId : Uuid)
    (amountSat : ℕ) (mode : ReservationMode) (m : Manager) : Answer × Manager :=
  match reserveInner limits now peer swapId amountSat mode m.inner with
  | (.ok (), inner) => (.admitted, ⟨inner, swapId :: m.guards⟩)
  | (.error reason, inner) => (.refused reason, { m with inner := inner })

/-- One call at instant `now`.  A guard that is not alive cannot be dropped. -/
def step (limits : RiskLimits) (now : Instant) : Op → Manager → Answer × Manager
  | .reserve peer swapId amountSat, m => reserveAs limits now peer swapId amountSat .new m
  | .reservePending peer swapId amountSat, m =>
      reserveAs limits now peer swapId amountSat .pending m
  | .restore active, m =>
      let (guards, inner) := restore limits now active m.inner
      (.done, ⟨inner, guards ++ m.guards⟩)
  | .dropGuard swapId, m =>
      if swapId ∈ m.guards then
        (.done, ⟨release swapId m.inner, m.guards.erase swapId⟩)
      else (.done, m)
  | .claimFunding swapId claimSat availableSat reserveSat, m =>
      match claimFunding swapId claimSat availableSat reserveSat m.inner with
      | (.ok (), inner) => (.claimed, { m with inner := inner })
      | (.error why, inner) => (.shortfall why, { m with inner := inner })
  | .restoreFundingClaim swapId claimSat, m =>
      (.done, { m with inner := restoreFundingClaim swapId claimSat m.inner })
  | .fundingSettled swapId, m =>
      (.done, { m with inner := fundingSettled swapId m.inner })

/-- The manager after a history of calls, oldest first. -/
def run (limits : RiskLimits) : List (Instant × Op) → Manager → Manager
  | [], m => m
  | (now, op) :: rest, m => run limits rest (step limits now op m).2

/-- Every call of a history with what it answered. -/
def answers (limits : RiskLimits) : List (Instant × Op) → Manager → List (Instant × Op × Answer)
  | [], _ => []
  | (now, op) :: rest, m =>
      (now, op, (step limits now op m).1) :: answers limits rest (step limits now op m).2

/-- Drop every guard that is alive, in some order. -/
def dropAll (limits : RiskLimits) (now : Instant) (order : List Uuid) (m : Manager) : Manager :=
  run limits (order.map fun swapId => (now, Op.dropGuard swapId)) m

end PubkySwap.Risk
