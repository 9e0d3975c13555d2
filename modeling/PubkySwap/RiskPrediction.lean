import PubkySwap.RiskAdmission

/-!
# The quote-time check

A quote is refused by the same five checks, in the same order, that a reservation
goes through, written a second time: `admissible` counts the recent starts of a peer
where a reservation prunes them, and reads an absent peer as empty where a
reservation makes an entry for it.  `admissible_eq_reserveInner` is their agreement,
in every state.

A refused reservation leaves only that pruning behind.  `SameFrom now` relates two
managers that differ in starts more than an hour old at `now` and in nothing else,
and every call keeps it (`SameFrom.step`), so no later admission can tell them apart.
The operator's view can: `per_peer` counts the starts a peer's entry holds,
whether or not they still fall in the hour.
-/

namespace PubkySwap.Risk

/-- `admissible`: whether a reservation would let in a new swap for `peer` now. -/
def admissible (limits : RiskLimits) (now : Instant) (peer : String) (amountSat : ℕ)
    (inner : Inner) : Except RejectReason Unit :=
  let (started, inFlight, committedSat) :=
    match inner.peers.lookup peer with
    | none => (0, 0, 0)
    | some state =>
        (Word.truncate 32 (state.recentStarts.filter fun t => now - t < hour).length,
          state.inFlight, state.committedSat)
  if limits.maxNewSwapsPerPeerPerHour ≤ started then
    .error (.rateLimited started limits.maxNewSwapsPerPeerPerHour)
  else if limits.maxConcurrentPerPeer ≤ inFlight then
    .error (.peerAtCapacity inFlight limits.maxConcurrentPerPeer)
  else if limits.maxExposurePerPeerSat < Word.saturatingAdd 64 committedSat amountSat then
    .error (.peerExposureExceeded (Word.saturatingAdd 64 committedSat amountSat)
      limits.maxExposurePerPeerSat)
  else if limits.maxConcurrentSwaps ≤ inner.totalInFlight then
    .error (.atCapacity inner.totalInFlight limits.maxConcurrentSwaps)
  else if limits.maxTotalExposureSat <
      Word.saturatingAdd 64 inner.totalCommittedSat amountSat then
    .error (.exposureExceeded (Word.saturatingAdd 64 inner.totalCommittedSat amountSat)
      limits.maxTotalExposureSat)
  else .ok ()

/-- `PeerExposure`: what one counterparty holds, for the operator. -/
structure PeerExposure where
  peer : String
  committedSat : ℕ
  inFlight : ℕ
  startsThisHour : ℕ
  deriving DecidableEq, Repr

/-- A peer the operator is shown: one with something committed or in flight. -/
def PeerState.listed (state : PeerState) : Bool :=
  decide (0 < state.inFlight) || decide (0 < state.committedSat)

/-- What the operator is shown of a peer. -/
def PeerState.exposure (peer : String) (state : PeerState) : PeerExposure where
  peer := peer
  committedSat := state.committedSat
  inFlight := state.inFlight
  startsThisHour := state.recentStarts.length

/-- The order of the operator's view: the largest commitment first, then by peer. -/
def PeerExposure.precedes (a b : PeerExposure) : Bool :=
  decide (b.committedSat < a.committedSat ∨ (a.committedSat = b.committedSat ∧ a.peer ≤ b.peer))

/-- The listed peers, in the order of the map. -/
def exposures (inner : Inner) : List PeerExposure :=
  (inner.peers.entries.filter fun e => e.2.listed).map fun e => e.2.exposure e.1

/-- `per_peer`. -/
def perPeer (inner : Inner) : List PeerExposure :=
  (exposures inner).mergeSort PeerExposure.precedes

/-- A question that changes nothing. -/
inductive Query where
  | admissible (peer : String) (amountSat : ℕ)
  | perPeer
  | committedSat
  | inFlight
  | claimedFundingSat
  deriving DecidableEq, Repr

/-- What a question is answered. -/
inductive Reading where
  | verdict (result : Except RejectReason Unit)
  | view (peers : List PeerExposure)
  | amount (n : ℕ)

/-- `admissible`, `per_peer`, `committed_sat`, `in_flight` and `claimed_funding_sat`. -/
def read (limits : RiskLimits) (now : Instant) (m : Manager) : Query → Reading
  | .admissible peer amountSat => .verdict (admissible limits now peer amountSat m.inner)
  | .perPeer => .view (perPeer m.inner)
  | .committedSat => .amount m.inner.totalCommittedSat
  | .inFlight => .amount m.inner.totalInFlight
  | .claimedFundingSat =>
      .amount (Word.saturatingSum 64 (m.inner.fundingClaims.entries.map fun e => e.2))

/-! ## The two copies of the checks -/

/-- The check of a quote, in the words of a reservation's. -/
theorem admissible_eq (limits : RiskLimits) (now : Instant) (peer : String) (amountSat : ℕ)
    (inner : Inner) : admissible limits now peer amountSat inner =
      match (peerRefusal limits .new ((peerOf inner.peers peer).prune now) amountSat).or
          (totalRefusal limits inner amountSat) with
      | some reason => .error reason
      | none => .ok () := by
  have hread : (match inner.peers.lookup peer with
      | none => ((0 : ℕ), (0 : ℕ), (0 : ℕ))
      | some state =>
          (Word.truncate 32 (state.recentStarts.filter fun t => now - t < hour).length,
            state.inFlight, state.committedSat)) =
      (Word.truncate 32 ((peerOf inner.peers peer).prune now).recentStarts.length,
        (peerOf inner.peers peer).inFlight, (peerOf inner.peers peer).committedSat) := by
    unfold peerOf
    cases inner.peers.lookup peer with
    | none => rfl
    | some state => rfl
  rw [admissible, hread]
  simp only [peerRefusal, totalRefusal, true_and, prune_inFlight, prune_committedSat]
  split_ifs <;> simp [*]

/-- **The quote-time check answers what a reservation would**, for any fresh swap. -/
theorem admissible_eq_reserveInner (limits : RiskLimits) (now : Instant) (peer : String)
    (amountSat : ℕ) (inner : Inner) {swapId : Uuid} (hfresh : swapId ∉ inner.reservations) :
    admissible limits now peer amountSat inner =
      (reserveInner limits now peer swapId amountSat .new inner).1 := by
  rw [admissible_eq, reserveInner, if_neg hfresh]
  simp only [peerOf_touchPeer, if_true]
  rw [if_neg (by decide)]
  have htotal : totalRefusal limits (touchPeer now peer inner) amountSat =
      totalRefusal limits inner amountSat := rfl
  rw [htotal]
  cases (peerRefusal limits .new ((peerOf inner.peers peer).prune now) amountSat).or
      (totalRefusal limits inner amountSat) with
  | some reason => rfl
  | none => rfl

/-! ## The operator's view -/

theorem mem_exposures {inner : Inner} {e : PeerExposure} :
    e ∈ exposures inner ↔ (peerOf inner.peers e.peer).listed = true ∧
      e = (peerOf inner.peers e.peer).exposure e.peer := by
  constructor
  · intro h
    obtain ⟨⟨peer, state⟩, hmem, rfl⟩ := List.mem_map.mp h
    obtain ⟨hmem, hlisted⟩ := List.mem_filter.mp hmem
    have hlook : inner.peers.lookup peer = some state := AList.mem_lookup_iff.mpr hmem
    have hpeer : peerOf inner.peers peer = state := by rw [peerOf, hlook, Option.getD_some]
    show (peerOf inner.peers peer).listed = true ∧ _ = (peerOf inner.peers peer).exposure peer
    rw [hpeer]
    exact ⟨hlisted, rfl⟩
  · rintro ⟨hlisted, heq⟩
    cases hlook : inner.peers.lookup e.peer with
    | none =>
        rw [peerOf, hlook, Option.getD_none] at hlisted
        exact absurd hlisted (by decide)
    | some state =>
        have hpeer : peerOf inner.peers e.peer = state := by rw [peerOf, hlook, Option.getD_some]
        rw [hpeer] at hlisted heq
        rw [heq]
        exact List.mem_map.mpr ⟨⟨e.peer, state⟩,
          List.mem_filter.mpr ⟨AList.mem_lookup_iff.mp hlook, hlisted⟩, rfl⟩

theorem nodup_exposures (inner : Inner) : (exposures inner).Nodup := by
  have hkeys : (inner.peers.entries.map Sigma.fst).Nodup := inner.peers.keys_nodup
  refine List.Nodup.of_map PeerExposure.peer ?_
  rw [exposures, List.map_map]
  exact hkeys.sublist (List.filter_sublist.map _)

theorem mem_perPeer {inner : Inner} {e : PeerExposure} :
    e ∈ perPeer inner ↔ e ∈ exposures inner :=
  (List.mergeSort_perm _ _).mem_iff

theorem precedes_trans (a b c : PeerExposure) (hab : a.precedes b = true)
    (hbc : b.precedes c = true) : a.precedes c = true := by
  simp only [PeerExposure.precedes, decide_eq_true_eq] at hab hbc ⊢
  rcases hab with hab | ⟨hab, hpeer⟩
  · rcases hbc with hbc | ⟨hbc, -⟩
    · exact .inl (hbc.trans hab)
    · exact .inl (hbc ▸ hab)
  · rcases hbc with hbc | ⟨hbc, hpeer'⟩
    · exact .inl (hab ▸ hbc)
    · exact .inr ⟨hab.trans hbc, le_trans hpeer hpeer'⟩

theorem precedes_total (a b : PeerExposure) : (a.precedes b || b.precedes a) = true := by
  simp only [PeerExposure.precedes, Bool.or_eq_true, decide_eq_true_eq]
  rcases lt_trichotomy a.committedSat b.committedSat with h | h | h
  · exact .inr (.inl h)
  · rcases le_total a.peer b.peer with hpeer | hpeer
    · exact .inl (.inr ⟨h, hpeer⟩)
    · exact .inr (.inr ⟨h.symm, hpeer⟩)
  · exact .inl (.inl h)

/-- **The view is what the peers hold**: managers that agree on every listed peer show
the operator the same list. -/
theorem perPeer_congr {inner inner' : Inner}
    (h : ∀ e, e ∈ exposures inner ↔ e ∈ exposures inner') : perPeer inner = perPeer inner' := by
  have hperm : (exposures inner).Perm (exposures inner') :=
    (List.perm_ext_iff_of_nodup (nodup_exposures inner) (nodup_exposures inner')).mpr h
  refine List.Perm.eq_of_pairwise ?_ (List.pairwise_mergeSort precedes_trans precedes_total _)
    (List.pairwise_mergeSort precedes_trans precedes_total _)
    (((List.mergeSort_perm _ _).trans hperm).trans (List.mergeSort_perm _ _).symm)
  intro a b ha hb hab hba
  have ha := (mem_exposures.mp ((h a).mp (mem_perPeer.mp ha))).2
  have hb := (mem_exposures.mp (mem_perPeer.mp hb)).2
  simp only [PeerExposure.precedes, decide_eq_true_eq] at hab hba
  have hpeer : a.peer = b.peer := by
    rcases hab with hab | ⟨hsame, hab⟩
    · rcases hba with hba | ⟨hba, -⟩
      · exact absurd hab hba.asymm
      · exact absurd (hba ▸ hab) (lt_irrefl _)
    · rcases hba with hba | ⟨-, hba⟩
      · exact absurd (hsame ▸ hba) (lt_irrefl _)
      · exact le_antisymm hab hba
  rw [ha, hb, hpeer]

/-! ## What a refusal leaves behind -/

/-- **Two managers that differ only in old starts**: more than an hour old at `now`, and of
peers the operator is not shown. -/
structure SameFrom (now : Instant) (m m' : Manager) : Prop where
  guards : m.guards = m'.guards
  totalCommitted : m.inner.totalCommittedSat = m'.inner.totalCommittedSat
  totalInFlight : m.inner.totalInFlight = m'.inner.totalInFlight
  reservations : m.inner.reservations = m'.inner.reservations
  claims : m.inner.fundingClaims = m'.inner.fundingClaims
  recent : ∀ peer, (peerOf m.inner.peers peer).prune now = (peerOf m'.inner.peers peer).prune now
  shown : ∀ peer, (peerOf m.inner.peers peer).listed = true →
    peerOf m.inner.peers peer = peerOf m'.inner.peers peer

theorem prune_prune {now now' : Instant} (hnow : now ≤ now') (state : PeerState) :
    (state.prune now).prune now' = state.prune now' := by
  show ({ state with recentStarts := SlidingWindow.recent hour now' (SlidingWindow.recent hour now
    state.recentStarts) } : PeerState) = _
  rw [SlidingWindow.recent_recent hnow]
  rfl

theorem listed_prune (now : Instant) (state : PeerState) :
    (state.prune now).listed = state.listed :=
  rfl

/-- The refusal of an admission, if it is refused. -/
def refusalOf (limits : RiskLimits) (now : Instant) (peer : String) (amountSat : ℕ)
    (mode : ReservationMode) (inner : Inner) : Option RejectReason :=
  if mode = .funded then none
  else (peerRefusal limits mode ((peerOf inner.peers peer).prune now) amountSat).or
    (totalRefusal limits inner amountSat)

section

variable {limits : RiskLimits} {now : Instant} {peer : String} {swapId : Uuid} {amountSat : ℕ}
  {mode : ReservationMode}

theorem reserveInner_of_mem {inner : Inner} (hmem : swapId ∈ inner.reservations) :
    reserveInner limits now peer swapId amountSat mode inner =
      (.error .alreadyReserved, inner) := by
  rw [reserveInner, if_pos hmem]

/-- An admission of a new swap, by its refusal. -/
theorem reserveInner_of_notMem {inner : Inner} (hmem : swapId ∉ inner.reservations) :
    reserveInner limits now peer swapId amountSat mode inner =
      match refusalOf limits now peer amountSat mode inner with
      | some reason => (.error reason, touchPeer now peer inner)
      | none => (.ok (),
          commitReservation now peer swapId amountSat mode (touchPeer now peer inner)) := by
  have htotal : totalRefusal limits (touchPeer now peer inner) amountSat =
      totalRefusal limits inner amountSat := rfl
  rw [reserveInner, if_neg hmem]
  simp only [peerOf_touchPeer, if_true, htotal]
  rewrite [← refusalOf]
  cases refusalOf limits now peer amountSat mode inner with
  | some reason => rfl
  | none => rfl

end

namespace SameFrom

variable {now now' : Instant} {m m' : Manager}

theorem refl (now : Instant) (m : Manager) : SameFrom now m m :=
  ⟨rfl, rfl, rfl, rfl, rfl, fun _ => rfl, fun _ _ => rfl⟩

/-- What is recent later was recent before. -/
theorem later (h : SameFrom now m m') (hnow : now ≤ now') : SameFrom now' m m' :=
  { h with
    recent := fun peer => by
      rw [← prune_prune hnow, h.recent peer, prune_prune hnow] }

theorem listed_eq (h : SameFrom now m m') (peer : String) :
    (peerOf m.inner.peers peer).listed = (peerOf m'.inner.peers peer).listed := by
  rw [← listed_prune now, h.recent peer, listed_prune]

theorem symm (h : SameFrom now m m') : SameFrom now m' m where
  guards := h.guards.symm
  totalCommitted := h.totalCommitted.symm
  totalInFlight := h.totalInFlight.symm
  reservations := h.reservations.symm
  claims := h.claims.symm
  recent peer := (h.recent peer).symm
  shown peer hlisted := (h.shown peer (h.listed_eq peer ▸ hlisted)).symm

/-- **No question tells them apart.** -/
theorem read (h : SameFrom now m m') (limits : RiskLimits) (q : Query) :
    Risk.read limits now m q = Risk.read limits now m' q := by
  cases q with
  | admissible peer amountSat =>
      have htotal :
          totalRefusal limits m.inner amountSat = totalRefusal limits m'.inner amountSat := by
        unfold totalRefusal
        rw [h.totalInFlight, h.totalCommitted]
      show Reading.verdict _ = Reading.verdict _
      rw [admissible_eq, admissible_eq, h.recent peer, htotal]
  | perPeer =>
      show Reading.view _ = Reading.view _
      rw [perPeer_congr fun e => ?_]
      rw [mem_exposures, mem_exposures, h.listed_eq]
      refine and_congr_right fun hlisted => ?_
      rw [h.symm.shown e.peer hlisted]
  | committedSat => exact congrArg Reading.amount h.totalCommitted
  | inFlight => exact congrArg Reading.amount h.totalInFlight
  | claimedFundingSat =>
      show Reading.amount _ = Reading.amount _
      rw [h.claims]

/-- A touched peer is the same in both. -/
theorem touch (h : SameFrom now m m') (peer : String) :
    SameFrom now { m with inner := touchPeer now peer m.inner }
      { m' with inner := touchPeer now peer m'.inner } where
  guards := h.guards
  totalCommitted := h.totalCommitted
  totalInFlight := h.totalInFlight
  reservations := h.reservations
  claims := h.claims
  recent p := by
    rw [peerOf_touchPeer, peerOf_touchPeer]
    split
    · rw [h.recent p]
    · exact h.recent p
  shown p hlisted := by
    rw [peerOf_touchPeer] at hlisted
    rw [peerOf_touchPeer, peerOf_touchPeer]
    split
    · exact h.recent p
    · rw [if_neg ‹_›] at hlisted
      exact h.shown p hlisted

/-- A reservation is committed to both alike, once the peer has been touched. -/
theorem commit (h : SameFrom now m m') {peer : String}
    (hpeer : peerOf m.inner.peers peer = peerOf m'.inner.peers peer) (swapId : Uuid)
    (amountSat : ℕ) (mode : ReservationMode) (guards : List Uuid) :
    SameFrom now ⟨commitReservation now peer swapId amountSat mode m.inner, guards⟩
      ⟨commitReservation now peer swapId amountSat mode m'.inner, guards⟩ where
  guards := rfl
  totalCommitted := by
    show Word.saturatingAdd 64 m.inner.totalCommittedSat _ = _
    rw [h.totalCommitted]
    rfl
  totalInFlight := by
    show m.inner.totalInFlight + 1 = _
    rw [h.totalInFlight]
    rfl
  reservations := by
    show m.inner.reservations.insert _ _ = _
    rw [h.reservations]
    rfl
  claims := h.claims
  recent p := by
    simp only [commitReservation, peerOf_insert]
    split
    · rw [hpeer]
    · exact h.recent p
  shown p hlisted := by
    simp only [commitReservation, peerOf_insert] at hlisted ⊢
    split
    · rw [hpeer]
    · rw [if_neg ‹_›] at hlisted
      exact h.shown p hlisted

/-- **An admission is the same in both.** -/
theorem reserveInner (h : SameFrom now m m') (limits : RiskLimits) (peer : String)
    (swapId : Uuid) (amountSat : ℕ) (mode : ReservationMode) :
    (Risk.reserveInner limits now peer swapId amountSat mode m.inner).1 =
        (Risk.reserveInner limits now peer swapId amountSat mode m'.inner).1 ∧
      ∀ guards,
        SameFrom now ⟨(Risk.reserveInner limits now peer swapId amountSat mode m.inner).2, guards⟩
          ⟨(Risk.reserveInner limits now peer swapId amountSat mode m'.inner).2, guards⟩ := by
  by_cases hmem : swapId ∈ m.inner.reservations
  · have hmem' : swapId ∈ m'.inner.reservations := h.reservations ▸ hmem
    rw [reserveInner_of_mem hmem, reserveInner_of_mem hmem']
    exact ⟨rfl, fun _ => { h with guards := rfl }⟩
  · have hmem' : swapId ∉ m'.inner.reservations := h.reservations ▸ hmem
    have hrefusal : refusalOf limits now peer amountSat mode m.inner =
        refusalOf limits now peer amountSat mode m'.inner := by
      unfold refusalOf totalRefusal
      rw [h.recent peer, h.totalInFlight, h.totalCommitted]
    have htouched := h.touch peer
    have hpeer : peerOf (touchPeer now peer m.inner).peers peer =
        peerOf (touchPeer now peer m'.inner).peers peer := by
      rw [peerOf_touchPeer, peerOf_touchPeer, if_pos rfl, if_pos rfl]
      exact h.recent peer
    rw [reserveInner_of_notMem hmem, reserveInner_of_notMem hmem', hrefusal]
    cases refusalOf limits now peer amountSat mode m'.inner with
    | some reason => exact ⟨rfl, fun _ => { htouched with guards := rfl }⟩
    | none => exact ⟨rfl, htouched.commit hpeer swapId amountSat mode⟩

theorem reserveAs (h : SameFrom now m m') (limits : RiskLimits) (peer : String) (swapId : Uuid)
    (amountSat : ℕ) (mode : ReservationMode) :
    (Risk.reserveAs limits now peer swapId amountSat mode m).1 =
        (Risk.reserveAs limits now peer swapId amountSat mode m').1 ∧
      SameFrom now (Risk.reserveAs limits now peer swapId amountSat mode m).2
        (Risk.reserveAs limits now peer swapId amountSat mode m').2 := by
  obtain ⟨hanswer, hsame⟩ := h.reserveInner limits peer swapId amountSat mode
  unfold Risk.reserveAs
  generalize Risk.reserveInner limits now peer swapId amountSat mode m.inner = r at hanswer hsame ⊢
  generalize Risk.reserveInner limits now peer swapId amountSat mode m'.inner = r'
    at hanswer hsame ⊢
  obtain ⟨answer, inner⟩ := r
  obtain ⟨answer', inner'⟩ := r'
  obtain rfl : answer = answer' := hanswer
  cases answer with
  | error reason =>
      refine ⟨rfl, ?_⟩
      show SameFrom now ⟨inner, m.guards⟩ ⟨inner', m'.guards⟩
      rw [h.guards]
      exact hsame _
  | ok u =>
      refine ⟨rfl, ?_⟩
      show SameFrom now ⟨inner, swapId :: m.guards⟩ ⟨inner', swapId :: m'.guards⟩
      rw [h.guards]
      exact hsame _

theorem restore (limits : RiskLimits) (active : List (String × Uuid × ℕ)) (h : SameFrom now m m') :
    (Risk.restore limits now active m.inner).1 = (Risk.restore limits now active m'.inner).1 ∧
      ∀ guards, SameFrom now ⟨(Risk.restore limits now active m.inner).2, guards⟩
        ⟨(Risk.restore limits now active m'.inner).2, guards⟩ := by
  induction active generalizing m m' with
  | nil => exact ⟨rfl, fun _ => { h with guards := rfl }⟩
  | cons entry active ih =>
      obtain ⟨peer, swapId, amountSat⟩ := entry
      obtain ⟨hanswer, hsame⟩ := h.reserveInner limits peer swapId amountSat .funded
      obtain ⟨hrest, hafter⟩ := ih (hsame m.guards)
      simp only [Risk.restore]
      rw [hanswer, hrest]
      cases (Risk.reserveInner limits now peer swapId amountSat .funded m'.inner).1 with
      | ok u => exact ⟨rfl, hafter⟩
      | error reason => exact ⟨rfl, hafter⟩

theorem release (h : SameFrom now m m') (swapId : Uuid) (guards : List Uuid) :
    SameFrom now ⟨Risk.release swapId m.inner, guards⟩ ⟨Risk.release swapId m'.inner, guards⟩ := by
  cases hlook : m'.inner.reservations.lookup swapId with
  | none =>
      simp only [Risk.release, h.reservations, hlook]
      exact { h with
        guards := rfl
        reservations := rfl
        claims := congrArg (AList.erase swapId) h.claims }
  | some entry =>
      obtain ⟨peer, amount⟩ := entry
      simp only [Risk.release, h.reservations, hlook]
      refine ⟨rfl, ?_, ?_, rfl, congrArg (AList.erase swapId) h.claims, ?_, ?_⟩
      · exact congrArg (· - amount) h.totalCommitted
      · exact congrArg (· - 1) h.totalInFlight
      · intro p
        simp only [peerOf_releasePeer]
        split
        · have hrecent := h.recent p
          simp only [PeerState.prune, PeerState.mk.injEq] at hrecent ⊢
          obtain ⟨hcommitted, hflight, hstarts⟩ := hrecent
          exact ⟨congrArg (· - amount) hcommitted, congrArg (· - 1) hflight, hstarts⟩
        · exact h.recent p
      · intro p hlisted
        simp only [peerOf_releasePeer] at hlisted ⊢
        split
        · rw [if_pos ‹_›] at hlisted
          have hbefore : (peerOf m.inner.peers p).listed = true := by
            simp only [PeerState.listed, Bool.or_eq_true, decide_eq_true_eq] at hlisted ⊢
            omega
          rw [h.shown p hbefore]
        · rw [if_neg ‹_›] at hlisted
          exact h.shown p hlisted

theorem recordClaim (h : SameFrom now m m') (swapId : Uuid) (claimSat : ℕ) :
    SameFrom now { m with inner := Risk.recordClaim swapId claimSat m.inner }
      { m' with inner := Risk.recordClaim swapId claimSat m'.inner } := by
  unfold Risk.recordClaim
  rw [h.reservations]
  split
  · exact { h with claims := congrArg (AList.insert swapId claimSat) h.claims, reservations := rfl }
  · exact h

/-- **Every call is answered alike and keeps them alike.** -/
theorem step (h : SameFrom now m m') (limits : RiskLimits) (op : Op) :
    (Risk.step limits now op m).1 = (Risk.step limits now op m').1 ∧
      SameFrom now (Risk.step limits now op m).2 (Risk.step limits now op m').2 := by
  cases op with
  | reserve peer swapId amountSat => exact h.reserveAs limits peer swapId amountSat .new
  | reservePending peer swapId amountSat => exact h.reserveAs limits peer swapId amountSat .pending
  | restore active =>
      obtain ⟨hguards, hsame⟩ := h.restore limits active
      refine ⟨rfl, ?_⟩
      show SameFrom now ⟨_, _ ++ m.guards⟩ ⟨_, _ ++ m'.guards⟩
      rw [hguards, h.guards]
      exact hsame _
  | dropGuard swapId =>
      unfold Risk.step
      simp only [h.guards]
      split
      · exact ⟨rfl, h.release swapId _⟩
      · exact ⟨rfl, h⟩
  | claimFunding swapId claimSat availableSat reserveSat =>
      have hothers : claimedByOthers swapId m.inner = claimedByOthers swapId m'.inner := by
        unfold claimedByOthers
        rw [h.claims]
      have hrecorded := h.recordClaim swapId claimSat
      simp only [Risk.step, Risk.claimFunding, hothers]
      cases availableSat with
      | none => exact ⟨rfl, hrecorded⟩
      | some available =>
          by_cases hshort : available - claimedByOthers swapId m'.inner <
              Word.saturatingAdd 64 claimSat reserveSat
          · simp only [hshort, if_true]
            exact ⟨trivial, h⟩
          · simp only [hshort, if_false]
            exact ⟨trivial, hrecorded⟩
  | restoreFundingClaim swapId claimSat => exact ⟨rfl, h.recordClaim swapId claimSat⟩
  | fundingSettled swapId =>
      exact ⟨rfl, { h with claims := congrArg (AList.erase swapId) h.claims }⟩

/-- **No later history tells them apart.** -/
theorem answers (h : SameFrom now m m') (limits : RiskLimits) (ops : List (Instant × Op))
    (hclock : (now :: ops.map Prod.fst).Pairwise (· ≤ ·)) :
    Risk.answers limits ops m = Risk.answers limits ops m' ∧
      ∀ last, (∀ t ∈ now :: ops.map Prod.fst, t ≤ last) →
        SameFrom last (Risk.run limits ops m) (Risk.run limits ops m') := by
  induction ops generalizing now m m' with
  | nil => exact ⟨rfl, fun last hlast => h.later (hlast now (List.mem_singleton.mpr rfl))⟩
  | cons call ops ih =>
      obtain ⟨at', op⟩ := call
      obtain ⟨hnow, hclock⟩ := List.pairwise_cons.mp hclock
      have hthen := h.later (hnow at' (List.mem_cons_self ..))
      obtain ⟨hanswer, hsame⟩ := hthen.step limits op
      obtain ⟨hanswers, hlast⟩ := ih hsame hclock
      refine ⟨?_, fun last hle => hlast last fun t ht => hle t (List.mem_cons_of_mem _ ht)⟩
      show _ :: _ = _ :: _
      rw [hanswer, hanswers]

end SameFrom

/-! ## The prediction -/

/-- **Everything answered later is the same**: what every further call and every question
after it is told, as long as the clock does not go back. -/
def SameLater (limits : RiskLimits) (now : Instant) (m m' : Manager) : Prop :=
  ∀ (ops : List (Instant × Op)) (last : Instant) (q : Query),
    (now :: ops.map Prod.fst).Pairwise (· ≤ ·) → (∀ t ∈ now :: ops.map Prod.fst, t ≤ last) →
    answers limits ops m = answers limits ops m' ∧
      read limits last (run limits ops m) q = read limits last (run limits ops m') q

theorem SameFrom.sameLater {now : Instant} {m m' : Manager} (h : SameFrom now m m')
    (limits : RiskLimits) : SameLater limits now m m' := by
  intro ops last q hclock hlast
  obtain ⟨hanswers, hsame⟩ := h.answers limits ops hclock
  exact ⟨hanswers, (hsame last hlast).read limits q⟩

/-- What a reservation is told, from the verdict on it. -/
def answerOf : Except RejectReason Unit → Answer
  | .ok () => .admitted
  | .error reason => .refused reason

/-- **The check predicts the reservation** of a fresh swap at the same instant, and a
reservation that is refused changes nothing that is answered later. -/
def Predicts (limits : RiskLimits) (now : Instant) (peer : String) (amountSat : ℕ) (m : Manager) :
    Prop :=
  ∀ swapId, swapId ∉ m.inner.reservations →
    (step limits now (.reserve peer swapId amountSat) m).1 =
        answerOf (admissible limits now peer amountSat m.inner) ∧
      ∀ reason, (step limits now (.reserve peer swapId amountSat) m).1 = .refused reason →
        SameLater limits now m (step limits now (.reserve peer swapId amountSat) m).2

/-- Every start the entry holds falls in the last hour. -/
def PeerState.Fresh (now : Instant) (state : PeerState) : Prop :=
  ∀ t ∈ state.recentStarts, now - t < hour

theorem PeerState.Fresh.prune {now : Instant} {state : PeerState} (h : state.Fresh now) :
    state.prune now = state := by
  show ({ state with recentStarts := _ } : PeerState) = state
  rw [List.filter_eq_self.mpr fun t ht => decide_eq_true (h t ht)]

section

variable {limits : RiskLimits} {now : Instant} {peer : String} {amountSat : ℕ} {m : Manager}
  {swapId : Uuid} {reason : RejectReason}

theorem step_reserve_eq (hfresh : swapId ∉ m.inner.reservations) :
    (step limits now (.reserve peer swapId amountSat) m).1 =
      answerOf (admissible limits now peer amountSat m.inner) := by
  rw [admissible_eq_reserveInner limits now peer amountSat m.inner hfresh]
  show (reserveAs limits now peer swapId amountSat .new m).1 = _
  unfold reserveAs
  rcases reserveInner limits now peer swapId amountSat .new m.inner with ⟨answer, inner⟩
  cases answer with
  | error reason => rfl
  | ok u => rfl

/-- A refusal only prunes the peer's starts. -/
theorem step_reserve_refused (hfresh : swapId ∉ m.inner.reservations) :
    (step limits now (.reserve peer swapId amountSat) m).1 = .refused reason ↔
      refusalOf limits now peer amountSat .new m.inner = some reason := by
  show (reserveAs limits now peer swapId amountSat .new m).1 = _ ↔ _
  rw [reserveAs, reserveInner_of_notMem hfresh]
  cases refusalOf limits now peer amountSat .new m.inner with
  | some found => simp
  | none => simp

theorem step_reserve_of_refused (hfresh : swapId ∉ m.inner.reservations)
    (h : refusalOf limits now peer amountSat .new m.inner = some reason) :
    (step limits now (.reserve peer swapId amountSat) m).2 =
      { m with inner := touchPeer now peer m.inner } := by
  show (reserveAs limits now peer swapId amountSat .new m).2 = _
  rw [reserveAs, reserveInner_of_notMem hfresh, h]

/-- The pruning shows nowhere, if there is nothing to prune or nobody is shown it. -/
theorem sameFrom_touch
    (h : (peerOf m.inner.peers peer).listed = false ∨ (peerOf m.inner.peers peer).Fresh now) :
    SameFrom now m { m with inner := touchPeer now peer m.inner } where
  guards := rfl
  totalCommitted := rfl
  totalInFlight := rfl
  reservations := rfl
  claims := rfl
  recent p := by
    rw [peerOf_touchPeer]
    split
    · exact (prune_prune (le_refl now) _).symm
    · rfl
  shown p hlisted := by
    rw [peerOf_touchPeer]
    split
    · obtain rfl : p = peer := ‹_›
      rcases h with h | h
      · exact absurd (h.symm.trans hlisted) (by decide)
      · exact h.prune.symm
    · rfl

/-- The operator sees the pruning of a listed peer. -/
theorem fresh_of_perPeer_eq (hlisted : (peerOf m.inner.peers peer).listed = true)
    (h : perPeer m.inner = perPeer (touchPeer now peer m.inner)) :
    (peerOf m.inner.peers peer).Fresh now := by
  have hbefore : (peerOf m.inner.peers peer).exposure peer ∈ perPeer m.inner :=
    mem_perPeer.mpr (mem_exposures.mpr ⟨hlisted, rfl⟩)
  rw [h] at hbefore
  have hafter := (mem_exposures.mp (mem_perPeer.mp hbefore)).2
  have hpeer : peerOf (touchPeer now peer m.inner).peers peer =
      (peerOf m.inner.peers peer).prune now := by
    rw [peerOf_touchPeer, if_pos rfl]
  have hlength := congrArg PeerExposure.startsThisHour hafter
  simp only [PeerState.exposure, hpeer] at hlength
  intro t ht
  have hall := List.length_filter_eq_length_iff.mp hlength.symm
  exact of_decide_eq_true (hall t ht)

end

theorem exists_fresh (m : Manager) : ∃ swapId, swapId ∉ m.inner.reservations := by
  obtain ⟨swapId, hswap⟩ := Infinite.exists_notMem_finset m.inner.reservations.keys.toFinset
  exact ⟨swapId, fun hmem => hswap (List.mem_toFinset.mpr (AList.mem_keys.mp hmem))⟩

/-- **The quote-time check predicts the reservation, and a refused one shows only in the
operator's count of starts.**  In every state a history can reach, everything holds exactly
when nothing is refused, or the peer is not shown to the operator, or none of the starts
its entry holds is an hour old. -/
theorem predicts_iff (limits : RiskLimits) (ops : List (Instant × Op)) (now : Instant)
    (peer : String) (amountSat : ℕ) :
    Predicts limits now peer amountSat (run limits ops Manager.new) ↔
      refusalOf limits now peer amountSat .new (run limits ops Manager.new).inner = none ∨
      (peerOf (run limits ops Manager.new).inner.peers peer).listed = false ∨
      (peerOf (run limits ops Manager.new).inner.peers peer).Fresh now := by
  generalize run limits ops Manager.new = m
  constructor
  · intro h
    obtain ⟨swapId, hfresh⟩ := exists_fresh m
    cases hrefusal : refusalOf limits now peer amountSat .new m.inner with
    | none => exact .inl rfl
    | some reason =>
        cases hlisted : (peerOf m.inner.peers peer).listed with
        | false => exact .inr (.inl rfl)
        | true =>
            refine .inr (.inr ?_)
            have hlater := (h swapId hfresh).2 reason ((step_reserve_refused hfresh).mpr hrefusal)
            rw [step_reserve_of_refused hfresh hrefusal] at hlater
            have hview := (hlater [] now .perPeer (by simp) (by simp)).2
            exact fresh_of_perPeer_eq hlisted (Reading.view.inj hview)
  · intro h swapId hfresh
    refine ⟨step_reserve_eq hfresh, fun reason hrefused => ?_⟩
    have hrefusal := (step_reserve_refused hfresh).mp hrefused
    rw [step_reserve_of_refused hfresh hrefusal]
    have hpruned := h.resolve_left (by rw [hrefusal]; exact nofun)
    exact (sameFrom_touch hpruned).sameLater limits

/-- One swap of a peer, admitted two hours ago and still in flight. -/
def oldStart : List (Instant × Op) := [(0, .reserve "alice" 1 300000)]

/-- **A refusal takes a start out of the operator's count**: the entry held one that was two
hours old. -/
theorem refused_changes_view :
    ¬Predicts {} (2 * hour) "alice" 800000 (run {} oldStart Manager.new) := by
  intro h
  have hrefused : refusalOf {} (2 * hour) "alice" 800000 .new (run {} oldStart Manager.new).inner =
      some (.peerExposureExceeded 1100000 1000000) := by decide +kernel
  have hnew : 2 ∉ (run {} oldStart Manager.new).inner.reservations := by decide +kernel
  have hlater := (h 2 hnew).2 _ ((step_reserve_refused hnew).mpr hrefused)
  rw [step_reserve_of_refused hnew hrefused] at hlater
  have hview := (hlater [] (2 * hour) .perPeer (by simp) (by simp)).2
  have hfresh := fresh_of_perPeer_eq (by decide +kernel) (Reading.view.inj hview) 0
    (by decide +kernel)
  exact absurd hfresh (by decide)

end PubkySwap.Risk
