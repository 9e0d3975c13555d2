import PubkySwap.Lib.SlidingWindow
import PubkySwap.RiskAccounting

/-!
# Admission stays within the operator's limits

What one admission leaves behind is a fact about one call: `reserveInner_cases`
says that a reservation which was not forced has passed every check, and the
updates that follow add exactly what the checks asked about.

The hourly limit is a fact about histories.  A peer's `recentStarts` is pruned
whenever the peer is looked up, kept across releases, and dropped with the
peer's entry only once it is empty, so it is a sliding-window memory in the sense
of `SlidingWindow.Covers`: `step_covers` is the step rule, `run_covers` the
induction over a history.

The funding check subtracts with saturation.  When something is asked for, a
check that passes leaves room for it on top of every other claim; when nothing
is, it passes however much the others hold.
-/

namespace PubkySwap.Risk

/-! ## What an admission leaves behind -/

/-- The totals and a peer's share stay within the limits. -/
structure WithinLimits (limits : RiskLimits) (peer : String) (inner : Inner) : Prop where
  totalInFlight : inner.totalInFlight ≤ limits.maxConcurrentSwaps
  totalCommitted : inner.totalCommittedSat ≤ limits.maxTotalExposureSat
  peerInFlight : (peerOf inner.peers peer).inFlight ≤ limits.maxConcurrentPerPeer
  peerCommitted : (peerOf inner.peers peer).committedSat ≤ limits.maxExposurePerPeerSat

/-- A peer that was not refused has room for one more swap of this amount, and
for one more start if it is a new one. -/
theorem peerRefusal_eq_none {limits : RiskLimits} {mode : ReservationMode} {state : PeerState}
    {amountSat : ℕ} (h : peerRefusal limits mode state amountSat = none) :
    (mode = .new →
      Word.truncate 32 state.recentStarts.length < limits.maxNewSwapsPerPeerPerHour) ∧
    state.inFlight < limits.maxConcurrentPerPeer ∧
    Word.saturatingAdd 64 state.committedSat amountSat ≤ limits.maxExposurePerPeerSat := by
  simp only [peerRefusal] at h
  split at h
  · cases h
  · next hrate =>
      split at h
      · cases h
      · next hflight =>
          split at h
          · cases h
          · next hexposure =>
              refine ⟨fun hmode => ?_, Nat.not_le.mp hflight, Nat.not_lt.mp hexposure⟩
              exact Nat.not_le.mp fun hle => hrate ⟨hmode, hle⟩

/-- Totals that did not refuse have room for one more swap of this amount. -/
theorem totalRefusal_eq_none {limits : RiskLimits} {inner : Inner} {amountSat : ℕ}
    (h : totalRefusal limits inner amountSat = none) :
    inner.totalInFlight < limits.maxConcurrentSwaps ∧
    Word.saturatingAdd 64 inner.totalCommittedSat amountSat ≤ limits.maxTotalExposureSat := by
  simp only [totalRefusal] at h
  split at h
  · cases h
  · next hflight =>
      split at h
      · cases h
      · next hexposure => exact ⟨Nat.not_le.mp hflight, Nat.not_lt.mp hexposure⟩

/-- **An admission that was not forced leaves everything within the limits**,
from any state: also from one that restored swaps have taken past them. -/
theorem reserveAs_withinLimits {limits : RiskLimits} {now : Instant} {peer : String}
    {swapId : Uuid} {amountSat : ℕ} {mode : ReservationMode} {m : Manager}
    (hmode : mode ≠ .funded)
    (hadmitted : (reserveAs limits now peer swapId amountSat mode m).1 = .admitted) :
    WithinLimits limits peer (reserveAs limits now peer swapId amountSat mode m).2.inner := by
  unfold reserveAs at hadmitted ⊢
  obtain ⟨-, heq⟩ | ⟨-, reason, heq⟩ | ⟨-, hpassed, heq⟩ :=
    reserveInner_cases limits now peer swapId amountSat mode m.inner
  · rw [heq] at hadmitted
    cases hadmitted
  · rw [heq] at hadmitted
    cases hadmitted
  · rw [heq]
    obtain ⟨hpeer, htotal⟩ := hpassed.resolve_left hmode
    obtain ⟨-, hpeerFlight, hpeerCommitted⟩ := peerRefusal_eq_none hpeer
    obtain ⟨htotalFlight, htotalCommitted⟩ := totalRefusal_eq_none htotal
    constructor
    · exact htotalFlight
    · exact htotalCommitted
    · simpa [commitReservation] using hpeerFlight
    · simpa [commitReservation] using hpeerCommitted

/-! ## The hourly limit -/

/-- When each successful `reserve` of a peer happened. -/
def startedBy (peer : String) (history : List (Instant × Op × Answer)) : List Instant :=
  history.filterMap fun call =>
    match call with
    | (now, .reserve p _ _, .admitted) => if p = peer then some now else none
    | _ => none

/-- What the manager remembers of a peer's starts. -/
def Manager.startsOf (m : Manager) (peer : String) : List Instant :=
  (peerOf m.inner.peers peer).recentStarts

/-- A peer's memory of its starts covers `started`. -/
def Remembers (limits : RiskLimits) (peer : String) (started : List Instant) (now : Instant)
    (m : Manager) : Prop :=
  SlidingWindow.Covers hour limits.maxNewSwapsPerPeerPerHour started (m.startsOf peer) now

/-- What an admission does to a peer's memory: nothing, a pruning, or, for a
successful `reserve` of that peer, a pruning that left room and one more start. -/
theorem reserveInner_startsOf (limits : RiskLimits) (now : Instant) (peer p : String)
    (swapId : Uuid) (amountSat : ℕ) (mode : ReservationMode) (inner : Inner) :
    let answer := (reserveInner limits now peer swapId amountSat mode inner).1
    let before := (peerOf inner.peers p).recentStarts
    let after :=
      (peerOf (reserveInner limits now peer swapId amountSat mode inner).2.peers p).recentStarts
    if answer = .ok () ∧ mode = .new ∧ peer = p then
      Word.truncate 32 (SlidingWindow.recent hour now before).length <
          limits.maxNewSwapsPerPeerPerHour ∧
        after = SlidingWindow.recent hour now before ++ [now]
    else after = before ∨ after = SlidingWindow.recent hour now before := by
  intro answer before after
  have htouched : (peerOf (touchPeer now peer inner).peers p).recentStarts = before ∨
      (peerOf (touchPeer now peer inner).peers p).recentStarts =
        SlidingWindow.recent hour now before := by
    rw [peerOf_touchPeer]
    split
    · exact Or.inr rfl
    · exact Or.inl rfl
  obtain ⟨-, heq⟩ | ⟨-, reason, heq⟩ | ⟨-, hpassed, heq⟩ :=
    reserveInner_cases limits now peer swapId amountSat mode inner
  · simp only [answer, after, heq]
    exact Or.inl rfl
  · simp only [answer, after, heq]
    exact htouched
  · simp only [answer, after, heq, commitReservation, peerOf_insert, true_and]
    by_cases hpeer : p = peer
    · subst hpeer
      by_cases hmode : mode = .new
      · have hforced : mode ≠ .funded := by
          rw [hmode]
          decide
        have hroom := (peerRefusal_eq_none (hpassed.resolve_left hforced).1).1 hmode
        simp only [hmode, and_self, if_true, peerOf_touchPeer]
        exact ⟨hroom, rfl⟩
      · simp only [hmode, false_and, if_false, if_true, peerOf_touchPeer]
        exact Or.inr rfl
    · simp only [hpeer, Ne.symm hpeer, and_false, if_false]
      exact htouched

/-- Releasing a swap keeps every peer's memory. -/
theorem release_startsOf (swapId : Uuid) (p : String) (inner : Inner) :
    (peerOf (release swapId inner).peers p).recentStarts =
      (peerOf inner.peers p).recentStarts := by
  simp only [release]
  cases hlook : inner.reservations.lookup swapId with
  | none => rfl
  | some reservation =>
      simp only [peerOf_releasePeer]
      split <;> rfl

theorem recordClaim_peers (swapId : Uuid) (claimSat : ℕ) (inner : Inner) :
    (recordClaim swapId claimSat inner).peers = inner.peers := by
  unfold recordClaim
  split <;> rfl

variable {limits : RiskLimits} {peer : String} {started : List Instant} {now now' : Instant}
  {m : Manager}

/-- The memory is bounded by a `u32`, so the cast that compares it is exact. -/
theorem Remembers.truncate_recent (h : Remembers limits peer started now m) :
    Word.truncate 32 (SlidingWindow.recent hour now' (m.startsOf peer)).length =
      (SlidingWindow.recent hour now' (m.startsOf peer)).length := by
  apply Word.truncate_eq_self
  have hpruned : (SlidingWindow.recent hour now' (m.startsOf peer)).length ≤
      (m.startsOf peer).length := List.filter_sublist.length_le
  exact lt_of_le_of_lt (hpruned.trans h.kept_le) limits.maxNewSwaps_lt

/-- Keeping or pruning the memory still remembers. -/
theorem Remembers.of_startsOf (h : Remembers limits peer started now m) (hnow : now ≤ now')
    {m' : Manager}
    (hstarts : m'.startsOf peer = m.startsOf peer ∨
      m'.startsOf peer = SlidingWindow.recent hour now' (m.startsOf peer)) :
    Remembers limits peer started now' m' := by
  unfold Remembers
  rcases hstarts with hkept | hpruned
  · rw [hkept]
    exact SlidingWindow.Covers.wait h hnow
  · rw [hpruned]
    exact SlidingWindow.Covers.prune h hnow

/-- The start an admission adds for a peer, if it adds one. -/
def startOf (peer : String) (mode : ReservationMode) (now : Instant) (p : String)
    (answer : Answer) : List Instant :=
  if answer = .admitted ∧ mode = .new ∧ p = peer then [now] else []

theorem Remembers.reserveAs (h : Remembers limits peer started now m) (hnow : now ≤ now')
    (p : String) (swapId : Uuid) (amountSat : ℕ) (mode : ReservationMode) :
    Remembers limits peer
      (started ++ startOf peer mode now' p (Risk.reserveAs limits now' p swapId amountSat mode m).1)
      now' (Risk.reserveAs limits now' p swapId amountSat mode m).2 := by
  have hspec := reserveInner_startsOf limits now' p peer swapId amountSat mode m.inner
  unfold Risk.reserveAs startOf
  cases hreserve : reserveInner limits now' p swapId amountSat mode m.inner with
  | mk answer inner =>
      rw [hreserve] at hspec
      cases answer with
      | error reason =>
          simp only [reduceCtorEq, false_and, if_false, List.append_nil] at hspec ⊢
          exact h.of_startsOf hnow hspec
      | ok _ =>
          simp only [true_and] at hspec ⊢
          split at hspec
          · next hstart =>
              rw [if_pos hstart]
              obtain ⟨hroom, hafter⟩ := hspec
              rw [show (peerOf m.inner.peers peer).recentStarts = m.startsOf peer from rfl,
                h.truncate_recent] at hroom
              unfold Remembers
              rw [show Manager.startsOf ⟨inner, swapId :: m.guards⟩ peer = _ from hafter]
              exact SlidingWindow.Covers.accept h hnow hroom
          · next hstart =>
              rw [if_neg hstart, List.append_nil]
              exact h.of_startsOf hnow hspec

/-- Restoring records is never rate limited and starts nothing new. -/
theorem Remembers.restore :
    ∀ (active : List (String × Uuid × ℕ)) {now : Instant} {m : Manager}, now ≤ now' →
      Remembers limits peer started now m →
      ∀ guards, Remembers limits peer started now'
        ⟨(Risk.restore limits now' active m.inner).2, guards⟩ := by
  intro active
  induction active with
  | nil =>
      intro now m hnow h guards
      exact h.of_startsOf hnow (Or.inl rfl)
  | cons record active ih =>
      obtain ⟨p, swapId, amountSat⟩ := record
      intro now m hnow h guards
      have hadmit := h.reserveAs hnow p swapId amountSat .funded
      rw [startOf, if_neg (by simp), List.append_nil] at hadmit
      have hrest := ih le_rfl hadmit guards
      rw [← (restore_cons limits now' p swapId amountSat active m).1] at hrest
      exact hrest

/-- **One call keeps a peer's memory covering its starts**, whichever call it
is and whatever it answers. -/
theorem step_covers (h : Remembers limits peer started now m) (hnow : now ≤ now') (op : Op) :
    Remembers limits peer
      (started ++ startedBy peer [(now', op, (step limits now' op m).1)])
      now' (step limits now' op m).2 := by
  cases op with
  | reserve p swapId amountSat =>
      have hadmit := h.reserveAs hnow p swapId amountSat .new
      have hstart : startedBy peer [(now', Op.reserve p swapId amountSat,
          (step limits now' (.reserve p swapId amountSat) m).1)] =
          startOf peer .new now' p (Risk.reserveAs limits now' p swapId amountSat .new m).1 := by
        simp only [step, startOf, startedBy, List.filterMap_cons, List.filterMap_nil]
        cases (Risk.reserveAs limits now' p swapId amountSat .new m).1 <;>
          by_cases hp : p = peer <;> simp [hp]
      rw [hstart]
      exact hadmit
  | reservePending p swapId amountSat =>
      have hadmit := h.reserveAs hnow p swapId amountSat .pending
      rw [startOf, if_neg (by simp)] at hadmit
      exact hadmit
  | restore active =>
      rw [startedBy, List.filterMap_cons, List.filterMap_nil, List.append_nil]
      exact Remembers.restore active hnow h _
  | dropGuard swapId =>
      rw [startedBy, List.filterMap_cons, List.filterMap_nil, List.append_nil]
      refine h.of_startsOf hnow (Or.inl ?_)
      simp only [step]
      split
      · exact release_startsOf swapId peer m.inner
      · rfl
  | claimFunding swapId claimSat availableSat reserveSat =>
      rw [startedBy, List.filterMap_cons, List.filterMap_nil, List.append_nil]
      refine h.of_startsOf hnow (Or.inl ?_)
      simp only [step, claimFunding, Manager.startsOf]
      cases availableSat with
      | none => rw [recordClaim_peers]
      | some available =>
          simp only
          by_cases hshort : available - claimedByOthers swapId m.inner <
              Word.saturatingAdd 64 claimSat reserveSat
          · rw [if_pos hshort]
          · rw [if_neg hshort, recordClaim_peers]
  | restoreFundingClaim swapId claimSat =>
      rw [startedBy, List.filterMap_cons, List.filterMap_nil, List.append_nil]
      refine h.of_startsOf hnow (Or.inl ?_)
      simp only [step, restoreFundingClaim, Manager.startsOf, recordClaim_peers]
  | fundingSettled swapId =>
      rw [startedBy, List.filterMap_cons, List.filterMap_nil, List.append_nil]
      exact h.of_startsOf hnow (Or.inl rfl)

/-- **A history on a clock that never goes back keeps every peer's memory
covering its starts**, by induction over its calls. -/
theorem run_covers (limits : RiskLimits) (peer : String) :
    ∀ (ops : List (Instant × Op)) {started : List Instant} {now : Instant} {m : Manager},
      Remembers limits peer started now m →
      ((now :: ops.map Prod.fst).Pairwise (· ≤ ·)) →
      ∃ last, Remembers limits peer (started ++ startedBy peer (answers limits ops m)) last
        (run limits ops m) := by
  intro ops
  induction ops with
  | nil =>
      intro started now m h _
      exact ⟨now, by simpa [startedBy, answers, run] using h⟩
  | cons call ops ih =>
      obtain ⟨now', op⟩ := call
      intro started now m h hclock
      rw [List.map_cons, List.pairwise_cons] at hclock
      obtain ⟨hnow, hrest⟩ := hclock
      obtain ⟨last, hlast⟩ := ih (step_covers h (hnow now' List.mem_cons_self) op) hrest
      refine ⟨last, ?_⟩
      rw [List.append_assoc] at hlast
      have hsplit : startedBy peer (answers limits ((now', op) :: ops) m) =
          startedBy peer [(now', op, (step limits now' op m).1)] ++
            startedBy peer (answers limits ops (step limits now' op m).2) := by
        simp only [startedBy, answers, ← List.filterMap_append, List.singleton_append]
      rw [hsplit]
      exact hlast

/-! ## The funding check -/

/-- What every swap but `swapId` has claimed and not yet funded. -/
def Inner.claimedElsewhere (inner : Inner) (swapId : Uuid) : ℕ :=
  inner.fundingClaims.sumBy fun id sat => if id = swapId then 0 else sat

/-- The check's own sum is that total, clamped to a `u64`. -/
theorem claimedByOthers_eq (swapId : Uuid) (inner : Inner) :
    claimedByOthers swapId inner =
      min (inner.claimedElsewhere swapId) (Word.maxValue 64) := by
  unfold claimedByOthers Inner.claimedElsewhere AList.sumBy
  rw [Word.saturatingSum_eq]
  congr 1
  induction inner.fundingClaims.entries with
  | nil => rfl
  | cons entry entries ih =>
      by_cases hid : entry.1 = swapId
      · simpa [hid] using ih
      · simpa [hid] using ih

/-- **A funding check that passes leaves room for what it was asked for**, on
top of every other claim, when it was asked for something a `u64` can hold. -/
theorem claimFunding_fits {swapId : Uuid} {claimSat available reserveSat : ℕ} {inner : Inner}
    (havailable : available < 2 ^ 64) (hasked : 0 < claimSat + reserveSat)
    (hfits : claimSat + reserveSat < 2 ^ 64)
    (hclaimed : (claimFunding swapId claimSat (some available) reserveSat inner).1 = .ok ()) :
    claimSat + reserveSat + inner.claimedElsewhere swapId ≤ available := by
  simp only [claimFunding] at hclaimed
  split at hclaimed
  · cases hclaimed
  · next hroom =>
      rw [claimedByOthers_eq, Word.saturatingAdd_eq_add hfits] at hroom
      unfold Word.maxValue at hroom
      omega

/-! ## The limits hold -/

/-- **Admission never exceeds the operator's limits.**  In every state a history
can reach, an admission by `reserve` or `reserve_pending` leaves the totals and
the peer's share within the limits; no half-open hour holds more successful
`reserve` calls of one peer than the hourly limit, whatever else happens in
between; and a funding check that was asked for something a `u64` can hold
passes only when the wallet covers it on top of every other claim. -/
theorem admission_within_limits (limits : RiskLimits) (ops : List (Instant × Op))
    (hclock : (ops.map Prod.fst).Pairwise (· ≤ ·)) :
    (∀ (now : Instant) (peer : String) (swapId : Uuid) (amountSat : ℕ) (op : Op),
      op = .reserve peer swapId amountSat ∨ op = .reservePending peer swapId amountSat →
      (step limits now op (run limits ops Manager.new)).1 = .admitted →
      WithinLimits limits peer (step limits now op (run limits ops Manager.new)).2.inner) ∧
    (∀ (peer : String) (start : Instant),
      ((startedBy peer (answers limits ops Manager.new)).filter fun t =>
        start ≤ t ∧ t < start + hour).length ≤ limits.maxNewSwapsPerPeerPerHour) ∧
    (∀ (now : Instant) (swapId : Uuid) (claimSat available reserveSat : ℕ),
      available < 2 ^ 64 → 0 < claimSat + reserveSat → claimSat + reserveSat < 2 ^ 64 →
      (step limits now (.claimFunding swapId claimSat (some available) reserveSat)
        (run limits ops Manager.new)).1 = .claimed →
      claimSat + reserveSat + (run limits ops Manager.new).inner.claimedElsewhere swapId ≤
        available) := by
  refine ⟨?_, ?_, ?_⟩
  · rintro now peer swapId amountSat op (rfl | rfl) hadmitted
    · exact reserveAs_withinLimits (by decide) hadmitted
    · exact reserveAs_withinLimits (by decide) hadmitted
  · intro peer start
    have hnew : Remembers limits peer [] 0 Manager.new := SlidingWindow.covers_nil
    have hfrom : ((0 :: ops.map Prod.fst).Pairwise (· ≤ ·)) :=
      List.pairwise_cons.mpr ⟨fun _ _ => Nat.zero_le _, hclock⟩
    obtain ⟨last, hlast⟩ := run_covers limits peer ops hnew hfrom
    exact hlast.within_le start
  · intro now swapId claimSat available reserveSat havailable hasked hfits hclaimed
    refine claimFunding_fits havailable hasked hfits ?_
    simp only [step] at hclaimed
    split at hclaimed
    · next hok => rw [hok]
    · cases hclaimed

/-- Two swaps of one peer are reserved, and the first claims everything the
wallet has. -/
def claimedOut : List (Instant × Op) :=
  [(0, .reserve "peer" 1 100), (1, .reserve "peer" 2 100),
    (2, .claimFunding 1 100 (some 100) 0)]

theorem admission_within_limits_claimedOut :
    (startedBy "peer" (answers {} claimedOut Manager.new)).length = 2 ∧
      ((startedBy "peer" (answers {} claimedOut Manager.new)).filter fun t =>
        0 ≤ t ∧ t < 0 + hour).length ≤ 6 :=
  ⟨by decide, (admission_within_limits {} claimedOut (by decide)).2.1 "peer" 0⟩

/-- Asked for nothing, the check passes with half of what is already claimed. -/
theorem claimFunding_of_nothing_passes :
    (step {} 3 (.claimFunding 2 0 (some 50) 0) (run {} claimedOut Manager.new)).1 = .claimed ∧
      ¬ 0 + 0 + (run {} claimedOut Manager.new).inner.claimedElsewhere 2 ≤ 50 := by
  decide

end PubkySwap.Risk
