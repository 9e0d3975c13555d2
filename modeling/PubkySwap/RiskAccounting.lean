import PubkySwap.Risk

/-!
# The risk counters are exact

Four counters and two maps describe the same thing: the reservations alive.
`Exact` says they agree, and is preserved by every call on the manager as long
as the reserved amounts do not add up past a `u64`.  That proviso is the only
way the saturating additions can drift, and it is a fact about the reservations
themselves, not about the counters.

The argument never looks at the order of the checks.  `reserveInner_cases` lists
the three things an admission can do, `peerOf_releasePeer` says what a release
leaves of a peer whether or not its entry is collected, and each invariant
clause follows from those and the laws of `AList.sumBy`.
-/

namespace PubkySwap.Risk

/-! ## What the reservations add up to -/

/-- The sum of the reserved amounts. -/
def Inner.reservedSat (inner : Inner) : ℕ := inner.reservations.sumBy fun _ r => r.2

/-- The number of reservations. -/
def Inner.reservedCount (inner : Inner) : ℕ := inner.reservations.sumBy fun _ _ => 1

/-- The sum of one peer's reserved amounts. -/
def Inner.peerReservedSat (inner : Inner) (peer : String) : ℕ :=
  inner.reservations.sumBy fun _ r => if r.1 = peer then r.2 else 0

/-- The number of one peer's reservations. -/
def Inner.peerReservedCount (inner : Inner) (peer : String) : ℕ :=
  inner.reservations.sumBy fun _ r => if r.1 = peer then 1 else 0

theorem Inner.peerReservedSat_le (inner : Inner) (peer : String) :
    inner.peerReservedSat peer ≤ inner.reservedSat :=
  AList.sumBy_le_sumBy _ fun _ r => by
    show (if r.1 = peer then r.2 else 0) ≤ r.2
    split <;> omega

/-- **The counters say what the reservations say**, every funding claim belongs
to a reservation, and the reservations are those of the guards alive. -/
structure Exact (m : Manager) : Prop where
  totalCommitted : m.inner.totalCommittedSat = m.inner.reservedSat
  totalInFlight : m.inner.totalInFlight = m.inner.reservedCount
  peerCommitted : ∀ peer, (peerOf m.inner.peers peer).committedSat = m.inner.peerReservedSat peer
  peerInFlight : ∀ peer, (peerOf m.inner.peers peer).inFlight = m.inner.peerReservedCount peer
  claims : ∀ swapId ∈ m.inner.fundingClaims, swapId ∈ m.inner.reservations
  guards : m.guards.Perm m.inner.reservations.keys

/-! ## What each operation does to a peer's entry -/

@[simp] theorem peerOf_insert (peers : AList fun _ : String => PeerState) (peer p : String)
    (state : PeerState) :
    peerOf (peers.insert peer state) p = if p = peer then state else peerOf peers p := by
  unfold peerOf
  by_cases hp : p = peer
  · subst hp
    simp
  · rw [AList.lookup_insert_ne hp, if_neg hp]

/-- A release takes its share off the peer's entry.  Collecting an empty entry
is invisible here, because an absent entry reads as an empty one. -/
@[simp] theorem peerOf_releasePeer (peer p : String) (amount : ℕ)
    (peers : AList fun _ : String => PeerState) :
    peerOf (releasePeer peer amount peers) p =
      if p = peer then
        { peerOf peers p with
          committedSat := (peerOf peers p).committedSat - amount
          inFlight := (peerOf peers p).inFlight - 1 }
      else peerOf peers p := by
  unfold releasePeer
  cases hlook : peers.lookup peer with
  | none =>
      by_cases hp : p = peer
      · subst hp
        simp [peerOf, hlook]
      · simp [hp]
  | some state =>
      simp only
      split
      · next hempty =>
          by_cases hp : p = peer
          · subst hp
            obtain ⟨hcommitted, hflight, hstarts⟩ := hempty
            simp [peerOf, hlook, hcommitted, hflight, hstarts]
          · simp [peerOf, hp, AList.lookup_erase_ne hp]
      · by_cases hp : p = peer
        · subst hp
          simp [peerOf, hlook]
        · simp [hp]

@[simp] theorem peerOf_touchPeer (now : Instant) (peer p : String) (inner : Inner) :
    peerOf (touchPeer now peer inner).peers p =
      if p = peer then (peerOf inner.peers p).prune now else peerOf inner.peers p := by
  unfold touchPeer
  rw [peerOf_insert]
  split
  · next h => rw [h]
  · rfl

@[simp] theorem prune_committedSat (now : Instant) (state : PeerState) :
    (state.prune now).committedSat = state.committedSat := rfl

@[simp] theorem prune_inFlight (now : Instant) (state : PeerState) :
    (state.prune now).inFlight = state.inFlight := rfl

/-! ## What an admission can do -/

/-- **An admission does one of three things**: nothing, because the swap already
holds a reservation; a refusal that only prunes the peer's entry; or a committed
reservation, which no check has refused unless the swap already exists. -/
theorem reserveInner_cases (limits : RiskLimits) (now : Instant) (peer : String)
    (swapId : Uuid) (amountSat : ℕ) (mode : ReservationMode) (inner : Inner) :
    (swapId ∈ inner.reservations ∧
      reserveInner limits now peer swapId amountSat mode inner =
        (.error .alreadyReserved, inner)) ∨
    (swapId ∉ inner.reservations ∧ ∃ reason,
      reserveInner limits now peer swapId amountSat mode inner =
        (.error reason, touchPeer now peer inner)) ∨
    (swapId ∉ inner.reservations ∧
      (mode = .funded ∨
        peerRefusal limits mode ((peerOf inner.peers peer).prune now) amountSat = none ∧
        totalRefusal limits inner amountSat = none) ∧
      reserveInner limits now peer swapId amountSat mode inner =
        (.ok (), commitReservation now peer swapId amountSat mode (touchPeer now peer inner))) := by
  by_cases hmem : swapId ∈ inner.reservations
  · exact Or.inl ⟨hmem, by rw [reserveInner, if_pos hmem]⟩
  · refine Or.inr ?_
    rw [reserveInner, if_neg hmem]
    simp only [peerOf_touchPeer, if_true]
    have htotal : totalRefusal limits (touchPeer now peer inner) amountSat =
        totalRefusal limits inner amountSat := rfl
    rw [htotal]
    by_cases hmode : mode = .funded
    · exact Or.inr ⟨hmem, Or.inl hmode, by rw [if_pos hmode]⟩
    · rw [if_neg hmode]
      cases hrefusal : (peerRefusal limits mode ((peerOf inner.peers peer).prune now)
          amountSat).or (totalRefusal limits inner amountSat) with
      | some reason => exact Or.inl ⟨hmem, reason, rfl⟩
      | none => exact Or.inr ⟨hmem, Or.inr (Option.or_eq_none_iff.mp hrefusal), rfl⟩

/-- The sums only grow at an admission. -/
theorem reservedSat_le_reserveInner (limits : RiskLimits) (now : Instant) (peer : String)
    (swapId : Uuid) (amountSat : ℕ) (mode : ReservationMode) (inner : Inner) :
    inner.reservedSat ≤
      (reserveInner limits now peer swapId amountSat mode inner).2.reservedSat := by
  obtain ⟨-, h⟩ | ⟨-, reason, h⟩ | ⟨hnew, -, h⟩ :=
    reserveInner_cases limits now peer swapId amountSat mode inner
  · rw [h]
  · rw [h]
    rfl
  · rw [h]
    show _ ≤ AList.sumBy _ (inner.reservations.insert swapId (peer, amountSat))
    rw [AList.sumBy_insert_of_notMem _ hnew]
    exact Nat.le_add_left _ _

/-! ## Each operation keeps the counters exact -/

theorem exact_new : Exact Manager.new where
  totalCommitted := rfl
  totalInFlight := rfl
  peerCommitted _ := rfl
  peerInFlight _ := rfl
  claims _ h := absurd h (AList.notMem_empty _)
  guards := List.Perm.refl _

/-- Pruning a peer's starts touches nothing that is counted. -/
theorem Exact.touch {m : Manager} (h : Exact m) (now : Instant) (peer : String) :
    Exact { m with inner := touchPeer now peer m.inner } where
  totalCommitted := h.totalCommitted
  totalInFlight := h.totalInFlight
  peerCommitted p := by
    rw [peerOf_touchPeer]
    split <;> exact h.peerCommitted p
  peerInFlight p := by
    rw [peerOf_touchPeer]
    split <;> exact h.peerInFlight p
  claims := h.claims
  guards := h.guards

/-- A committed reservation adds its own share everywhere, and no addition is
clamped because the new sum of reservations still fits. -/
theorem Exact.commit {m : Manager} (h : Exact m) (now : Instant) {peer : String}
    {swapId : Uuid} {amountSat : ℕ} (mode : ReservationMode)
    (hnew : swapId ∉ m.inner.reservations)
    (hfit : amountSat + m.inner.reservedSat < 2 ^ 64) :
    Exact ⟨commitReservation now peer swapId amountSat mode m.inner, swapId :: m.guards⟩ where
  totalCommitted := by
    show Word.saturatingAdd 64 _ _ = AList.sumBy _ (m.inner.reservations.insert _ _)
    rw [AList.sumBy_insert_of_notMem _ hnew, h.totalCommitted]
    show _ = amountSat + m.inner.reservedSat
    rw [Word.saturatingAdd_eq_add (by omega), Nat.add_comm]
  totalInFlight := by
    show _ + 1 = AList.sumBy _ (m.inner.reservations.insert _ _)
    rw [AList.sumBy_insert_of_notMem _ hnew, h.totalInFlight, Nat.add_comm]
    rfl
  peerCommitted p := by
    show _ = AList.sumBy _ (m.inner.reservations.insert _ _)
    rw [AList.sumBy_insert_of_notMem _ hnew]
    show (peerOf (m.inner.peers.insert peer _) p).committedSat =
      (if peer = p then amountSat else 0) + m.inner.peerReservedSat p
    rw [peerOf_insert]
    by_cases hp : p = peer
    · subst hp
      have hle := m.inner.peerReservedSat_le p
      simp only [if_true]
      rw [h.peerCommitted, Word.saturatingAdd_eq_add (by omega), Nat.add_comm]
    · rw [if_neg hp, if_neg (Ne.symm hp), h.peerCommitted, Nat.zero_add]
  peerInFlight p := by
    show _ = AList.sumBy _ (m.inner.reservations.insert _ _)
    rw [AList.sumBy_insert_of_notMem _ hnew]
    show (peerOf (m.inner.peers.insert peer _) p).inFlight =
      (if peer = p then 1 else 0) + m.inner.peerReservedCount p
    rw [peerOf_insert]
    by_cases hp : p = peer
    · subst hp
      simp only [if_true]
      rw [h.peerInFlight, Nat.add_comm]
    · rw [if_neg hp, if_neg (Ne.symm hp), h.peerInFlight, Nat.zero_add]
  claims id hid := (AList.mem_insert _).mpr (Or.inr (h.claims id hid))
  guards := by
    show (swapId :: m.guards).Perm (m.inner.reservations.insert _ _).keys
    rw [AList.keys_insert, List.erase_of_not_mem (fun hin => hnew (AList.mem_keys.mpr hin))]
    exact h.guards.cons _

/-- **An admission keeps the counters exact**, whatever it answers. -/
theorem Exact.reserveAs {m : Manager} (h : Exact m) (limits : RiskLimits) (now : Instant)
    (peer : String) (swapId : Uuid) (amountSat : ℕ) (mode : ReservationMode)
    (hfit : (Risk.reserveAs limits now peer swapId amountSat mode m).2.inner.reservedSat < 2 ^ 64) :
    Exact (Risk.reserveAs limits now peer swapId amountSat mode m).2 := by
  unfold Risk.reserveAs at hfit ⊢
  obtain ⟨-, heq⟩ | ⟨-, reason, heq⟩ | ⟨hnew, -, heq⟩ :=
    reserveInner_cases limits now peer swapId amountSat mode m.inner
  · rw [heq]
    exact h
  · rw [heq]
    exact h.touch now peer
  · rw [heq] at hfit ⊢
    have htouched : (touchPeer now peer m.inner).reservations = m.inner.reservations := rfl
    refine (h.touch now peer).commit now mode hnew ?_
    have hsum : (commitReservation now peer swapId amountSat mode
        (touchPeer now peer m.inner)).reservedSat = amountSat + m.inner.reservedSat := by
      show AList.sumBy _ ((touchPeer now peer m.inner).reservations.insert _ _) = _
      rw [htouched, AList.sumBy_insert_of_notMem _ hnew]
      rfl
    rw [hsum] at hfit
    exact hfit

/-- The order in which guards are held is not observable. -/
theorem Exact.perm {inner : Inner} {guards guards' : List Uuid} (h : Exact ⟨inner, guards⟩)
    (hperm : guards'.Perm guards) : Exact ⟨inner, guards'⟩ :=
  { h with guards := hperm.trans h.guards }

/-- Restoring one more record is one more admission, then the rest. -/
theorem restore_cons (limits : RiskLimits) (now : Instant) (peer : String) (swapId : Uuid)
    (amountSat : ℕ) (active : List (String × Uuid × ℕ)) (m : Manager) :
    let admitted := (Risk.reserveAs limits now peer swapId amountSat .funded m).2
    (Risk.restore limits now ((peer, swapId, amountSat) :: active) m.inner).2 =
        (Risk.restore limits now active admitted.inner).2 ∧
      ((Risk.restore limits now ((peer, swapId, amountSat) :: active) m.inner).1 ++
          m.guards).Perm
        ((Risk.restore limits now active admitted.inner).1 ++ admitted.guards) := by
  simp only [Risk.restore, Risk.reserveAs]
  cases hanswer : reserveInner limits now peer swapId amountSat .funded m.inner with
  | mk answer inner =>
      cases answer with
      | error reason => exact ⟨rfl, List.Perm.refl _⟩
      | ok _ => exact ⟨rfl, List.perm_middle.symm⟩

theorem reservedSat_le_restore (limits : RiskLimits) (now : Instant) :
    ∀ (active : List (String × Uuid × ℕ)) (inner : Inner),
      inner.reservedSat ≤ (Risk.restore limits now active inner).2.reservedSat := by
  intro active
  induction active with
  | nil => exact fun inner => le_rfl
  | cons record active ih =>
      obtain ⟨peer, swapId, amountSat⟩ := record
      intro inner
      refine (reservedSat_le_reserveInner limits now peer swapId amountSat .funded inner).trans ?_
      refine (ih _).trans (le_of_eq ?_)
      simp only [Risk.restore]
      split <;> rfl

/-- Restoring records is a sequence of admissions whose guards accumulate. -/
theorem Exact.restore (limits : RiskLimits) (now : Instant) :
    ∀ (active : List (String × Uuid × ℕ)) {m : Manager}, Exact m →
      (Risk.restore limits now active m.inner).2.reservedSat < 2 ^ 64 →
      Exact ⟨(Risk.restore limits now active m.inner).2,
        (Risk.restore limits now active m.inner).1 ++ m.guards⟩ := by
  intro active
  induction active with
  | nil =>
      intro m h _
      exact h
  | cons record active ih =>
      obtain ⟨peer, swapId, amountSat⟩ := record
      intro m h hfit
      obtain ⟨hinner, hguards⟩ := restore_cons limits now peer swapId amountSat active m
      rw [hinner] at hfit ⊢
      refine (ih (h.reserveAs limits now peer swapId amountSat .funded ?_) hfit).perm hguards
      exact lt_of_le_of_lt (reservedSat_le_restore limits now active _) hfit

/-- A release takes the reservation's share off every counter, and leaves no
claim of the swap behind. -/
theorem Exact.release {m : Manager} (h : Exact m) {swapId : Uuid} (hlive : swapId ∈ m.guards) :
    Exact ⟨Risk.release swapId m.inner, m.guards.erase swapId⟩ := by
  have hmem : swapId ∈ m.inner.reservations :=
    AList.mem_keys.mpr (h.guards.subset hlive)
  obtain ⟨⟨peer, amount⟩, hlook⟩ :=
    Option.isSome_iff_exists.mp (AList.lookup_isSome.mpr hmem)
  -- each of the sums loses the share of this reservation
  have hsplit := fun f => AList.sumBy_eq_add_erase f hlook
  have hrelease : Risk.release swapId m.inner =
      { m.inner with
        fundingClaims := m.inner.fundingClaims.erase swapId
        reservations := m.inner.reservations.erase swapId
        totalCommittedSat := m.inner.totalCommittedSat - amount
        totalInFlight := m.inner.totalInFlight - 1
        peers := releasePeer peer amount m.inner.peers } := by
    simp only [Risk.release, hlook]
  rw [hrelease]
  constructor
  · show m.inner.totalCommittedSat - amount = AList.sumBy _ (m.inner.reservations.erase swapId)
    rw [h.totalCommitted, Inner.reservedSat, hsplit]
    exact Nat.add_sub_cancel_left _ _
  · show m.inner.totalInFlight - 1 = AList.sumBy _ (m.inner.reservations.erase swapId)
    rw [h.totalInFlight, Inner.reservedCount, hsplit]
    exact Nat.add_sub_cancel_left _ _
  · intro p
    show (peerOf (releasePeer peer amount m.inner.peers) p).committedSat =
      AList.sumBy _ (m.inner.reservations.erase swapId)
    have hbefore := h.peerCommitted p
    rw [Inner.peerReservedSat, hsplit] at hbefore
    rw [peerOf_releasePeer]
    -- only its peer loses anything
    by_cases hp : p = peer
    · subst hp
      simp only [if_true] at hbefore ⊢
      rw [hbefore]
      exact Nat.add_sub_cancel_left _ _
    · rw [if_neg hp, hbefore]
      simp [Ne.symm hp]
  · intro p
    show (peerOf (releasePeer peer amount m.inner.peers) p).inFlight =
      AList.sumBy _ (m.inner.reservations.erase swapId)
    have hbefore := h.peerInFlight p
    rw [Inner.peerReservedCount, hsplit] at hbefore
    rw [peerOf_releasePeer]
    by_cases hp : p = peer
    · subst hp
      simp only [if_true] at hbefore ⊢
      rw [hbefore]
      exact Nat.add_sub_cancel_left _ _
    · rw [if_neg hp, hbefore]
      simp [Ne.symm hp]
  · intro id hid
    obtain ⟨hne, hclaimed⟩ := AList.mem_erase.mp hid
    exact AList.mem_erase.mpr ⟨hne, h.claims id hclaimed⟩
  · show (m.guards.erase swapId).Perm (m.inner.reservations.erase swapId).keys
    rw [AList.keys_erase]
    exact h.guards.erase swapId

/-- Recording a claim keeps it tied to a reservation. -/
theorem Exact.recordClaim {m : Manager} (h : Exact m) (swapId : Uuid) (claimSat : ℕ) :
    Exact { m with inner := Risk.recordClaim swapId claimSat m.inner } := by
  unfold Risk.recordClaim
  by_cases hmem : swapId ∈ m.inner.reservations
  · rw [if_pos hmem]
    refine ⟨h.totalCommitted, h.totalInFlight, h.peerCommitted, h.peerInFlight, ?_, h.guards⟩
    intro id hid
    rcases (AList.mem_insert _).mp hid with rfl | hid
    · exact hmem
    · exact h.claims id hid
  · rw [if_neg hmem]
    exact h

/-- **Every call keeps the counters exact**, as long as the amounts reserved
after it still fit a `u64`. -/
theorem Exact.step {m : Manager} (h : Exact m) (limits : RiskLimits) (now : Instant) (op : Op)
    (hfit : (Risk.step limits now op m).2.inner.reservedSat < 2 ^ 64) :
    Exact (Risk.step limits now op m).2 := by
  cases op with
  | reserve peer swapId amountSat => exact h.reserveAs limits now peer swapId amountSat .new hfit
  | reservePending peer swapId amountSat =>
      exact h.reserveAs limits now peer swapId amountSat .pending hfit
  | restore active => exact Exact.restore limits now active h hfit
  | dropGuard swapId =>
      simp only [Risk.step]
      by_cases hlive : swapId ∈ m.guards
      · rw [if_pos hlive]
        exact h.release hlive
      · rw [if_neg hlive]
        exact h
  | claimFunding swapId claimSat availableSat reserveSat =>
      simp only [Risk.step, claimFunding]
      cases availableSat with
      | none => exact h.recordClaim swapId claimSat
      | some available =>
          simp only
          by_cases hshort : available - claimedByOthers swapId m.inner <
              Word.saturatingAdd 64 claimSat reserveSat
          · rw [if_pos hshort]
            exact h
          · rw [if_neg hshort]
            exact h.recordClaim swapId claimSat
  | restoreFundingClaim swapId claimSat => exact h.recordClaim swapId claimSat
  | fundingSettled swapId =>
      exact { h with claims := fun id hid => h.claims id (AList.mem_erase.mp hid).2 }

/-- **Every history keeps the counters exact**, by induction over its calls. -/
theorem Exact.run (limits : RiskLimits) :
    ∀ (ops : List (Instant × Op)) {m : Manager}, Exact m →
      (∀ pre, pre <+: ops → (Risk.run limits pre m).inner.reservedSat < 2 ^ 64) →
      Exact (Risk.run limits ops m) := by
  intro ops
  induction ops with
  | nil =>
      intro m h _
      exact h
  | cons call ops ih =>
      obtain ⟨now, op⟩ := call
      intro m h hfit
      have hstep : (Risk.step limits now op m).2.inner.reservedSat < 2 ^ 64 :=
        hfit [(now, op)] (by simp)
      refine ih (h.step limits now op hstep) fun pre hpre => ?_
      exact hfit ((now, op) :: pre) (List.cons_prefix_cons.mpr ⟨rfl, hpre⟩)

/-! ## Releasing everything -/

/-- Nothing is counted any more. -/
structure AllZero (m : Manager) : Prop where
  totalCommitted : m.inner.totalCommittedSat = 0
  totalInFlight : m.inner.totalInFlight = 0
  peerCommitted : ∀ peer, (peerOf m.inner.peers peer).committedSat = 0
  peerInFlight : ∀ peer, (peerOf m.inner.peers peer).inFlight = 0
  claims : m.inner.fundingClaims = ∅

/-- With no guard alive there is no reservation, so the counters read zero. -/
theorem Exact.allZero {m : Manager} (h : Exact m) (hguards : m.guards = []) : AllZero m := by
  have hkeys : m.inner.reservations.entries.keys = [] := by
    have hperm := h.guards
    rw [hguards] at hperm
    exact hperm.nil_eq.symm
  have hentries : m.inner.reservations.entries = [] := by
    simpa [List.keys] using hkeys
  have hsum : ∀ f, m.inner.reservations.sumBy f = 0 := by
    intro f
    simp [AList.sumBy, hentries]
  refine ⟨h.totalCommitted.trans (hsum _), h.totalInFlight.trans (hsum _),
    fun peer => (h.peerCommitted peer).trans (hsum _),
    fun peer => (h.peerInFlight peer).trans (hsum _), ?_⟩
  apply AList.ext
  rw [AList.empty_entries, List.eq_nil_iff_forall_not_mem]
  intro entry hentry
  have hclaimed : entry.1 ∈ m.inner.fundingClaims := List.mem_map_of_mem hentry
  have hreserved : entry.1 ∈ m.inner.reservations.entries.keys := h.claims _ hclaimed
  rw [hkeys] at hreserved
  exact absurd hreserved List.not_mem_nil

/-- Dropping the guards in any order leaves none and keeps the counters exact:
a drop never adds to the reservations. -/
theorem Exact.dropAll (limits : RiskLimits) (now : Instant) :
    ∀ (order : List Uuid) {m : Manager}, Exact m → order.Perm m.guards →
      Exact (Risk.dropAll limits now order m) ∧ (Risk.dropAll limits now order m).guards = [] := by
  intro order
  induction order with
  | nil =>
      intro m h hperm
      exact ⟨h, hperm.nil_eq.symm⟩
  | cons swapId order ih =>
      intro m h hperm
      have hlive : swapId ∈ m.guards := hperm.subset List.mem_cons_self
      have hstep : (Risk.step limits now (.dropGuard swapId) m).2 =
          ⟨Risk.release swapId m.inner, m.guards.erase swapId⟩ := by
        simp only [Risk.step, if_pos hlive]
      have hunfold : Risk.dropAll limits now (swapId :: order) m =
          Risk.dropAll limits now order (Risk.step limits now (.dropGuard swapId) m).2 := rfl
      rw [hunfold, hstep]
      refine ih (h.release hlive) ?_
      have := hperm.erase swapId
      rwa [List.erase_cons_head] at this

/-- **Risk accounting is exact.**  After any history of calls in which the
reserved amounts fit a `u64`, the two totals and every peer's two counters are
those of the reservations alive, every funding claim belongs to one of them, and
dropping all guards, in any order, brings every counter back to zero. -/
theorem accounting_exact (limits : RiskLimits) (ops : List (Instant × Op))
    (hfit : ∀ pre, pre <+: ops → (run limits pre Manager.new).inner.reservedSat < 2 ^ 64) :
    Exact (run limits ops Manager.new) ∧
      ∀ (now : Instant) (order : List Uuid), order.Perm (run limits ops Manager.new).guards →
        AllZero (dropAll limits now order (run limits ops Manager.new)) := by
  have hexact := Exact.run limits ops exact_new hfit
  refine ⟨hexact, fun now order hperm => ?_⟩
  obtain ⟨hafter, hnone⟩ := hexact.dropAll limits now order hperm
  exact hafter.allZero hnone

/-- Two peers, a refusal, a claim, a restored record and a finished swap. -/
def mixedHistory : List (Instant × Op) :=
  [(0, .reserve "a" 1 100), (1, .reserve "a" 1 100), (2, .claimFunding 1 100 (some 500) 10),
    (3, .restore [("b", 2, 300), ("b", 1, 300)]), (4, .dropGuard 1)]

theorem accounting_exact_mixedHistory :
    (run {} mixedHistory Manager.new).inner.totalCommittedSat = 300 ∧
      AllZero (dropAll {} 5 [2] (run {} mixedHistory Manager.new)) := by
  have hfit : ∀ pre ∈ mixedHistory.inits,
      (run {} pre Manager.new).inner.reservedSat < 2 ^ 64 := by decide
  have hexact := accounting_exact {} mixedHistory fun pre hpre =>
    hfit pre (List.mem_inits pre mixedHistory |>.mpr hpre)
  exact ⟨by decide, hexact.2 5 [2] (by decide)⟩

end PubkySwap.Risk
