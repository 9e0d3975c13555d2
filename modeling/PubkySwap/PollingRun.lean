import PubkySwap.Polling
import Mathlib.Data.List.Perm.Basic

/-!
# The bounds of the poll scheduler

How many polls run is read off the list of polls by one part of the code and off the flags of
the peers by another.  The invariant is that they agree: each poll that runs is its peer's
only one, and the peer's flag and streak are those the poll was started with (`Sound`).  A
peer that is no longer listed keeps its entry for as long.
-/

namespace PubkySwap

namespace Polling

variable {M : Type}

namespace PeerInbox

variable {inbox : PeerInbox} {peer other : String} {p : PeerPoll} {now : Instant}

/-! ## Slots -/

/-- The slot of a peer: the streak of the poll of it that runs, if one does. -/
def slot (inbox : PeerInbox) (peer : String) : Option ℕ :=
  (inbox.peers.lookup peer).bind fun p => if p.inFlight = true then some p.timeoutStreak else none

/-- The slot of a peer that the map holds: its timeout streak, while its flag says that a poll
of it runs. -/
theorem slot_of_lookup (h : inbox.peers.lookup peer = some p) :
    inbox.slot peer = if p.inFlight = true then some p.timeoutStreak else none := by
  rw [slot, h]
  rfl

/-- A taken slot is a peer in the map whose flag is set, with that peer's timeout streak. -/
theorem slot_eq_some_iff {streak : ℕ} : inbox.slot peer = some streak ↔
    ∃ p, inbox.peers.lookup peer = some p ∧ p.inFlight = true ∧ p.timeoutStreak = streak := by
  rw [slot, Option.bind_eq_some_iff]
  refine exists_congr fun p => and_congr_right fun _ => ?_
  split
  case isTrue h => simp [h]
  case isFalse h => simp [h]

/-- What holds of the polls that run. -/
structure Sound (inbox : PeerInbox) : Prop where
  nodup : (inbox.inFlight.map Poll.peer).Nodup
  held : ∀ poll ∈ inbox.inFlight, inbox.slot poll.peer = some poll.streak
  running : ∀ peer streak, inbox.slot peer = some streak →
    ∃ poll ∈ inbox.inFlight, poll.peer = peer
  bounded : inbox.inFlight.length ≤ inbox.maxInFlight
  stretched : inbox.inFlight.countP (fun poll => decide (0 < poll.streak)) ≤ inbox.stretchedSlots

/-- A change of the peers that leaves the slots as they are. -/
theorem Sound.of_slot {after : PeerInbox} (h : inbox.Sound) (hconfig : after.config = inbox.config)
    (hinFlight : after.inFlight = inbox.inFlight)
    (hslot : ∀ peer, after.slot peer = inbox.slot peer) : after.Sound := by
  have hmax : after.maxInFlight = inbox.maxInFlight := by rw [maxInFlight, maxInFlight, hconfig]
  refine ⟨?_, ?_, ?_, ?_, ?_⟩
  · rw [hinFlight]
    exact h.nodup
  · intro poll hpoll
    rw [hslot]
    exact h.held poll (hinFlight ▸ hpoll)
  · intro peer streak hslot'
    rw [hinFlight]
    exact h.running peer streak (hslot peer ▸ hslot')
  · rw [hinFlight, hmax]
    exact h.bounded
  · rw [hinFlight, stretchedSlots, hmax]
    exact h.stretched

/-- The slots with a stretched deadline are counted alike by the flags and by the polls. -/
theorem Sound.countP_stretched (h : inbox.Sound) :
    (inbox.peers.entries.countP fun e => e.2.inFlight && decide (0 < e.2.timeoutStreak)) =
      inbox.inFlight.countP fun poll => decide (0 < poll.streak) := by
  rw [List.countP_eq_length_filter, List.countP_eq_length_filter]
  have hperm : ((inbox.peers.entries.filter fun e =>
      e.2.inFlight && decide (0 < e.2.timeoutStreak)).map Sigma.fst).Perm
      ((inbox.inFlight.filter fun poll => decide (0 < poll.streak)).map Poll.peer) := by
    refine (List.perm_ext_iff_of_nodup ?_ ?_).mpr fun peer => ?_
    · exact inbox.peers.keys_nodup.sublist (List.filter_sublist.map Sigma.fst)
    · exact h.nodup.sublist (List.filter_sublist.map _)
    · simp only [List.mem_map, List.mem_filter, Bool.and_eq_true, decide_eq_true_eq]
      constructor
      · rintro ⟨⟨peer, p⟩, ⟨hentry, hinFlight, hstreak⟩, rfl⟩
        have hlookup := AList.lookup_eq_some_iff.mpr hentry
        have hslot : inbox.slot peer = some p.timeoutStreak :=
          slot_eq_some_iff.mpr ⟨p, hlookup, hinFlight, rfl⟩
        obtain ⟨poll, hpoll, rfl⟩ := h.running peer _ hslot
        have hheld := (h.held poll hpoll).symm.trans hslot
        exact ⟨poll, ⟨hpoll, (Option.some.inj hheld) ▸ hstreak⟩, rfl⟩
      · rintro ⟨poll, ⟨hpoll, hstreak⟩, rfl⟩
        obtain ⟨p, hlookup, hinFlight, hp⟩ := slot_eq_some_iff.mp (h.held poll hpoll)
        exact ⟨⟨poll.peer, p⟩, ⟨AList.lookup_eq_some_iff.mp hlookup, hinFlight, hp ▸ hstreak⟩, rfl⟩
  have hlength := hperm.length_eq
  rwa [List.length_map, List.length_map] at hlength

/-! ## The peers of a pass -/

/-- Those who are listed and have no entry get a new one. -/
theorem lookup_foldl_insert {kept : AList fun _ : String => PeerPoll} {listed : List String}
    {fresh : PeerPoll} :
    (listed.foldl (fun peers peer => if peer ∈ peers then peers else peers.insert peer fresh)
      kept).lookup peer = (kept.lookup peer).or (if peer ∈ listed then some fresh else none) := by
  induction listed generalizing kept with
  | nil => simp
  | cons first listed ih =>
      rw [List.foldl_cons, ih]
      split
      case isTrue hmem =>
          by_cases heq : peer = first
          · subst heq
            obtain ⟨p, hp⟩ := AList.mem_iff_lookup.mp hmem
            simp [hp]
          · simp [heq]
      case isFalse hmem =>
          by_cases heq : peer = first
          · subst heq
            have hnone : kept.lookup peer = none := AList.lookup_eq_none.mpr hmem
            simp [hnone]
          · simp [AList.lookup_insert_ne heq, heq]

/-- What `refresh` finds of a peer. -/
theorem lookup_refresh {listed : List String} :
    (inbox.refresh now listed).peers.lookup peer =
      match inbox.peers.lookup peer with
      | some p =>
          if p.inFlight = true ∨ peer ∈ listed then some p else none
      | none => if peer ∈ listed then some (.new now inbox.config.activeHold) else none := by
  rw [refresh, lookup_foldl_insert]
  have hkept : (inbox.peers.retain fun peer p => p.inFlight || decide (peer ∈ listed)).lookup
      peer = (inbox.peers.lookup peer).filter fun p => p.inFlight || decide (peer ∈ listed) := by
    ext p
    rw [AList.lookup_retain, Option.filter_eq_some_iff]
  rw [hkept]
  cases inbox.peers.lookup peer with
  | none => rfl
  | some p =>
      rw [Option.filter_some]
      by_cases hlisted : peer ∈ listed <;> cases hinFlight : p.inFlight <;>
        simp [hlisted, hinFlight]

/-- A refresh of the listed peers keeps the bounds: a peer no longer listed is dropped only
when no poll of it runs. -/
theorem Sound.refresh (h : inbox.Sound) (now : Instant) (listed : List String) :
    (inbox.refresh now listed).Sound := by
  refine h.of_slot rfl rfl fun peer => ?_
  rw [slot, slot, lookup_refresh]
  cases inbox.peers.lookup peer with
  | none =>
      dsimp only
      split <;> rfl
  | some p =>
      dsimp only
      split
      case isTrue => rfl
      case isFalse hnot => simp [mt Or.inl hnot]

/-- Waking one peer leaves the entry of every other peer alone. -/
theorem lookup_markWoken_of_ne (hne : other ≠ peer) :
    (inbox.markWoken now peer).peers.lookup other = inbox.peers.lookup other := by
  unfold markWoken
  split
  · rfl
  · exact AList.lookup_insert_ne hne

/-- Waking a peer changes neither its flag nor its timeout streak, so the slots stay. -/
theorem Sound.markWoken (h : inbox.Sound) (now : Instant) (peer : String) :
    (inbox.markWoken now peer).Sound := by
  have hslot : ∀ other, (inbox.markWoken now peer).slot other = inbox.slot other := by
    intro other
    by_cases heq : other = peer
    · subst heq
      unfold PeerInbox.markWoken
      split
      · rfl
      case h_2 p hlookup =>
          rw [slot_of_lookup (AList.lookup_insert _), slot_of_lookup hlookup]
    · rw [slot, slot, lookup_markWoken_of_ne heq]
  unfold PeerInbox.markWoken at hslot ⊢
  split
  · exact h
  case h_2 p hlookup =>
      simp only [hlookup] at hslot
      exact h.of_slot rfl rfl hslot

/-- Waking any list of peers keeps the bounds, by induction on the list. -/
theorem Sound.foldl_markWoken (h : inbox.Sound) (now : Instant) (woken : List String) :
    (woken.foldl (PeerInbox.markWoken now) inbox).Sound := by
  induction woken generalizing inbox with
  | nil => exact h
  | cons peer woken ih => exact ih (h.markWoken now peer)

/-! ## Starting polls -/

/-- Beginning a poll takes the slot of its own peer with that peer's streak, and no other. -/
theorem slot_begin (takeWoken : Bool) : (inbox.begin peer p takeWoken).slot other =
    if other = peer then some p.timeoutStreak else inbox.slot other := by
  split
  case isTrue heq =>
      subst heq
      rw [slot_of_lookup (AList.lookup_insert _)]
      rfl
  case isFalse hne => exact congrArg (Option.bind · _) (AList.lookup_insert_ne hne)

/-- A poll takes a free slot. -/
theorem Sound.begin (h : inbox.Sound) (hlookup : inbox.peers.lookup peer = some p)
    (hfree : p.inFlight = false) (hroom : inbox.inFlight.length < inbox.maxInFlight)
    (hstretched : 0 < p.timeoutStreak → inbox.inFlight.countP
      (fun poll => decide (0 < poll.streak)) < inbox.stretchedSlots) (takeWoken : Bool) :
    (inbox.begin peer p takeWoken).Sound := by
  have hnone : inbox.slot peer = none := by
    rw [slot_of_lookup hlookup, hfree]
    rfl
  have hnot : ∀ poll ∈ inbox.inFlight, poll.peer ≠ peer := by
    intro poll hpoll heq
    have hheld := h.held poll hpoll
    rw [heq, hnone] at hheld
    cases hheld
  refine ⟨?_, ?_, ?_, ?_, ?_⟩
  · show ((inbox.inFlight ++ [inbox.pollOf peer p]).map Poll.peer).Nodup
    rw [List.map_append, List.nodup_append']
    refine ⟨h.nodup, List.nodup_singleton _, fun other hother hmem => ?_⟩
    obtain ⟨poll, hpoll, rfl⟩ := List.mem_map.mp hother
    exact hnot poll hpoll (List.mem_singleton.mp hmem)
  · intro poll hpoll
    rw [slot_begin]
    rcases List.mem_append.mp hpoll with hpoll | hpoll
    · rw [if_neg (hnot poll hpoll)]
      exact h.held poll hpoll
    · obtain rfl := List.mem_singleton.mp hpoll
      exact if_pos rfl
  · intro other streak hother
    rw [slot_begin] at hother
    split at hother
    case isTrue heq =>
        exact ⟨inbox.pollOf peer p, List.mem_append_right _ (List.mem_singleton_self _), heq.symm⟩
    case isFalse =>
        obtain ⟨poll, hpoll, hpeer⟩ := h.running other streak hother
        exact ⟨poll, List.mem_append_left _ hpoll, hpeer⟩
  · show (inbox.inFlight ++ [inbox.pollOf peer p]).length ≤ inbox.maxInFlight
    rw [List.length_append]
    exact hroom
  · show (inbox.inFlight ++ [inbox.pollOf peer p]).countP _ ≤ inbox.stretchedSlots
    rw [List.countP_append, List.countP_singleton]
    split
    case isTrue hpos => exact hstretched (of_decide_eq_true hpos)
    case isFalse => exact h.stretched

/-- What a run of `start` leaves: some polls more, and the other peers as they were. -/
structure Starts (before after : PeerInbox) : Prop where
  sound : after.Sound
  config : after.config = before.config
  polls : ∃ new, after.inFlight = before.inFlight ++ new ∧
    ∀ peer, peer ∉ new.map Poll.peer → after.peers.lookup peer = before.peers.lookup peer

/-- A launch that begins no poll. -/
theorem Starts.refl (h : inbox.Sound) : Starts inbox inbox :=
  ⟨h, rfl, [], (List.append_nil _).symm, fun _ _ => rfl⟩

/-- What `pop` takes is the head of one of the lists. -/
theorem perm_of_pop {wokenTurn takeWoken : Bool} {woken overdue woken' overdue' : List String}
    (h : pop wokenTurn woken overdue = some (peer, takeWoken, woken', overdue')) :
    (woken ++ overdue).Perm (peer :: (woken' ++ overdue')) := by
  unfold pop at h
  split at h
  · split at h
    · cases h
    · cases h
      exact List.Perm.refl _
  · split at h
    · cases h
    · cases h
      exact List.perm_middle

/-- **The loop of `launch`** keeps to the slots, as long as it is given peers without a poll,
each once, and no more slots than there are. -/
theorem Sound.start (h : inbox.Sound) {free stretchedFree : ℕ} {woken overdue : List String}
    (hnodup : (woken ++ overdue).Nodup) (hidle : ∀ peer ∈ woken ++ overdue, inbox.slot peer = none)
    (hfree : inbox.inFlight.length + free ≤ inbox.maxInFlight)
    (hstretched : inbox.inFlight.countP (fun poll => decide (0 < poll.streak)) + stretchedFree ≤
      inbox.stretchedSlots) :
    Starts inbox (inbox.start free stretchedFree woken overdue) := by
  fun_induction PeerInbox.start free stretchedFree woken overdue inbox with
  | case1 stretchedFree woken overdue inbox => exact .refl h
  | case2 stretchedFree woken overdue inbox free hpop => exact .refl h
  | case3 stretchedFree woken overdue inbox free peer takeWoken woken' overdue' hpop hlookup ih =>
      have hperm := perm_of_pop hpop
      refine ih h (hperm.nodup_iff.mp hnodup).of_cons (fun other hother => ?_) hfree hstretched
      exact hidle other (hperm.mem_iff.mpr (List.mem_cons_of_mem _ hother))
  | case4 stretchedFree woken overdue inbox free peer takeWoken woken' overdue' hpop p hlookup
      hblocked ih =>
      have hperm := perm_of_pop hpop
      refine ih h (hperm.nodup_iff.mp hnodup).of_cons (fun other hother => ?_) hfree hstretched
      exact hidle other (hperm.mem_iff.mpr (List.mem_cons_of_mem _ hother))
  | case5 stretchedFree woken overdue inbox free peer takeWoken woken' overdue' hpop p hlookup
      hblocked ih =>
      rw [dite_eq_ite] at ih
      have hperm := perm_of_pop hpop
      obtain ⟨hnew, hrest⟩ := List.nodup_cons.mp (hperm.nodup_iff.mp hnodup)
      have hidle' : p.inFlight = false := by
        have hnone := hidle peer (hperm.mem_iff.mpr List.mem_cons_self)
        rw [slot_of_lookup hlookup] at hnone
        by_contra hinFlight
        rw [if_pos (Bool.not_eq_false _ ▸ hinFlight)] at hnone
        cases hnone
      -- the poll that begins fits into the slots, and into those for stretched ones if it is one
      -- of them
      have hbegin : (inbox.begin peer p takeWoken).Sound := by
        refine h.begin hlookup hidle' (by omega) (fun hpos => ?_) takeWoken
        have hsome : stretchedFree ≠ 0 := fun hzero => hblocked ⟨hpos, hzero⟩
        omega
      -- those still to be started are not under way
      have hothers : ∀ other ∈ woken' ++ overdue',
          (inbox.begin peer p takeWoken).slot other = none := by
        intro other hother
        have hne : other ≠ peer := fun heq => hnew (heq ▸ hother)
        rw [slot_begin, if_neg hne]
        exact hidle other (hperm.mem_iff.mpr (List.mem_cons_of_mem _ hother))
      have hlength : (inbox.begin peer p takeWoken).inFlight.length + free ≤
          inbox.maxInFlight := by
        rw [PeerInbox.begin, List.length_append, List.length_singleton]
        omega
      have hcount : (inbox.begin peer p takeWoken).inFlight.countP
          (fun poll => decide (0 < poll.streak)) +
            (if 0 < p.timeoutStreak then stretchedFree - 1 else stretchedFree) ≤
              inbox.stretchedSlots := by
        rw [PeerInbox.begin, List.countP_append, List.countP_singleton]
        have hstreak : (inbox.pollOf peer p).streak = p.timeoutStreak := rfl
        by_cases hpos : 0 < p.timeoutStreak
        · have hsome : stretchedFree ≠ 0 := fun hzero => hblocked ⟨hpos, hzero⟩
          rw [if_pos (decide_eq_true (hstreak ▸ hpos)), if_pos hpos]
          omega
        · rw [if_neg (mt of_decide_eq_true (hstreak ▸ hpos)), if_neg hpos]
          exact hstretched
      obtain ⟨hsound, hconfig, new, hpolls, hkept⟩ := ih hbegin hrest hothers hlength hcount
      refine ⟨hsound, hconfig, inbox.pollOf peer p :: new, ?_, fun other hother => ?_⟩
      · rw [hpolls]
        exact List.append_assoc ..
      · rw [List.map_cons, List.mem_cons, not_or] at hother
        rw [hkept other hother.2]
        exact AList.lookup_insert_ne hother.1

/-! ## Launching -/

/-- A candidate has no poll. -/
theorem exists_of_mem_candidates {woken : Bool} {due : Instant}
    (h : (due, peer) ∈ inbox.candidates now woken) :
    ∃ p, inbox.peers.lookup peer = some p ∧ p.inFlight = false ∧ p.woken = woken := by
  obtain ⟨⟨peer, p⟩, hentry, heq⟩ := List.mem_map.mp h
  cases heq
  obtain ⟨hmem, hcondition⟩ := List.mem_filter.mp hentry
  simp only [Bool.and_eq_true, Bool.not_eq_true', beq_iff_eq] at hcondition
  exact ⟨p, AList.lookup_eq_some_iff.mpr hmem, hcondition.1.1.1, hcondition.2⟩

/-- A peer is a candidate once: the candidates are entries of the map, whose keys are
distinct. -/
theorem nodup_candidates (woken : Bool) : ((inbox.candidates now woken).map Prod.snd).Nodup := by
  rw [candidates, List.map_map]
  exact inbox.peers.keys_nodup.sublist (List.filter_sublist.map Sigma.fst)

/-- The earliest due are among the due. -/
theorem mem_of_mem_earliest {due : List (Instant × String)} {n : ℕ} (h : peer ∈ earliest due n) :
    ∃ at_, (at_, peer) ∈ due := by
  obtain ⟨⟨at_, peer⟩, hmem, rfl⟩ := List.mem_map.mp h
  exact ⟨at_, (List.mergeSort_perm due dueBefore).mem_iff.mp (List.mem_of_mem_take hmem)⟩

/-- Sorting and cutting the due list names no peer twice when the list did not. -/
theorem nodup_earliest {due : List (Instant × String)} (h : (due.map Prod.snd).Nodup) (n : ℕ) :
    (earliest due n).Nodup := by
  have hsorted := ((List.mergeSort_perm due dueBefore).map Prod.snd).nodup_iff.mpr h
  exact hsorted.sublist ((List.take_sublist n _).map Prod.snd)

/-- A launch keeps the bounds: woken and overdue peers take turns, and each poll that is
started takes a free slot. -/
theorem Sound.launch (h : inbox.Sound) (now : Instant) : Starts inbox (inbox.launch now) := by
  unfold PeerInbox.launch
  dsimp only
  split
  case isTrue => exact .refl h
  case isFalse =>
      have hbounded := h.bounded
      refine h.start ?_ ?_ (by omega) ?_
      · rw [List.nodup_append']
        refine ⟨nodup_earliest (nodup_candidates true) _,
          nodup_earliest (nodup_candidates false) _, fun peer hwoken hoverdue => ?_⟩
        obtain ⟨due, hdue⟩ := mem_of_mem_earliest hwoken
        obtain ⟨due', hdue'⟩ := mem_of_mem_earliest hoverdue
        obtain ⟨p, hp, -, htrue⟩ := exists_of_mem_candidates hdue
        obtain ⟨p', hp', -, hfalse⟩ := exists_of_mem_candidates hdue'
        obtain rfl := Option.some.inj (hp.symm.trans hp')
        cases htrue.symm.trans hfalse
      · intro peer hpeer
        have hcandidate : ∃ woken due, (due, peer) ∈ inbox.candidates now woken := by
          rcases List.mem_append.mp hpeer with hpeer | hpeer
          · exact ⟨true, mem_of_mem_earliest hpeer⟩
          · exact ⟨false, mem_of_mem_earliest hpeer⟩
        obtain ⟨woken, due, hdue⟩ := hcandidate
        obtain ⟨p, hp, hidle, -⟩ := exists_of_mem_candidates hdue
        rw [slot_of_lookup hp, hidle]
        rfl
      · have hstretched := h.stretched
        rw [stretchedSlotsFree, h.countP_stretched]
        omega

/-- The inbox of a pass, before polls are started. -/
def scheduled (now : Instant) (listed woken : List String) (inbox : PeerInbox) : PeerInbox :=
  woken.foldl (PeerInbox.markWoken now)
    (if inbox.refreshNow = true ∨ woken ≠ [] ∨ inbox.nextRefresh ≤ now then
      { inbox.refresh now listed with nextRefresh := now + peerRefresh, refreshNow := false }
    else inbox)

/-- Waking a peer changes neither the polls that run nor the configuration. -/
theorem markWoken_frame (now : Instant) (peer : String) (inbox : PeerInbox) :
    (inbox.markWoken now peer).inFlight = inbox.inFlight ∧
      (inbox.markWoken now peer).config = inbox.config := by
  unfold PeerInbox.markWoken
  split <;> exact ⟨rfl, rfl⟩

/-- Waking a list of peers changes neither the polls that run nor the configuration. -/
theorem foldl_markWoken_frame (now : Instant) (woken : List String) (inbox : PeerInbox) :
    (woken.foldl (PeerInbox.markWoken now) inbox).inFlight = inbox.inFlight ∧
      (woken.foldl (PeerInbox.markWoken now) inbox).config = inbox.config := by
  induction woken generalizing inbox with
  | nil => exact ⟨rfl, rfl⟩
  | cons peer woken ih =>
      obtain ⟨hinFlight, hconfig⟩ := ih (inbox.markWoken now peer)
      obtain ⟨hinFlight', hconfig'⟩ := markWoken_frame now peer inbox
      exact ⟨hinFlight.trans hinFlight', hconfig.trans hconfig'⟩

/-- Taking up the peers that were woken starts and ends no poll. -/
theorem scheduled_frame (now : Instant) (listed woken : List String) (inbox : PeerInbox) :
    (inbox.scheduled now listed woken).inFlight = inbox.inFlight ∧
      (inbox.scheduled now listed woken).config = inbox.config := by
  obtain ⟨hinFlight, hconfig⟩ := foldl_markWoken_frame now woken
    (if inbox.refreshNow = true ∨ woken ≠ [] ∨ inbox.nextRefresh ≤ now then
      { inbox.refresh now listed with nextRefresh := now + peerRefresh, refreshNow := false }
    else inbox)
  refine ⟨hinFlight.trans ?_, hconfig.trans ?_⟩ <;> split <;> rfl

/-- What a pass does before it launches keeps the bounds. -/
theorem Sound.scheduled (h : inbox.Sound) (now : Instant) (listed woken : List String) :
    (inbox.scheduled now listed woken).Sound := by
  refine Sound.foldl_markWoken ?_ now woken
  split
  · exact (h.refresh now listed).of_slot rfl rfl fun _ => rfl
  · exact h

/-- A pass in two halves, the scheduling and the launch, with the log of the statistics at its
end. -/
theorem pass_eq (now : Instant) (listed woken : List String) (inbox : PeerInbox) :
    inbox.pass now listed woken =
      let launched := ((inbox.scheduled now listed woken).launch now).publish now
      if launched.nextStatsLog ≤ now then
        { launched with nextStatsLog := now + statsLogInterval }
      else launched := rfl

/-- A pass takes up who was woken and then starts polls. -/
theorem Sound.pass (h : inbox.Sound) (now : Instant) (listed woken : List String) :
    Starts (inbox.scheduled now listed woken) (inbox.pass now listed woken) := by
  obtain ⟨hsound, hconfig, hpolls⟩ := (h.scheduled now listed woken).launch now
  rw [pass_eq]
  dsimp only
  split <;> exact ⟨hsound.of_slot rfl rfl fun _ => rfl, hconfig, hpolls⟩

/-! ## Completed polls -/

/-- The inbox once the poll at a place has been taken out. -/
def taken (i : ℕ) (inbox : PeerInbox) : PeerInbox :=
  { inbox with inFlight := inbox.inFlight.eraseIdx i }

variable {i : ℕ} {poll : Poll} {latency : Duration} {outcome : Outcome M}
  {jitter : Duration → Duration}

/-- The other polls, and that they are of other peers. -/
theorem Sound.of_taken (h : inbox.Sound) (hpoll : inbox.inFlight[i]? = some poll) :
    (poll :: (inbox.taken i).inFlight).Perm inbox.inFlight ∧
      ∀ other ∈ (inbox.taken i).inFlight, other.peer ≠ poll.peer := by
  obtain ⟨hi, rfl⟩ := List.getElem?_eq_some_iff.mp hpoll
  have hperm := List.getElem_cons_eraseIdx_perm hi
  refine ⟨hperm, fun other hother heq => ?_⟩
  have hnodup := (hperm.map Poll.peer).nodup_iff.mpr h.nodup
  exact (List.nodup_cons.mp hnodup).1 (heq ▸ List.mem_map_of_mem hother)

/-- What a completed poll leaves of the peers' entries. -/
theorem peers_complete (hlookup : inbox.peers.lookup peer = some p) (now : Instant)
    (latency : Duration) (outcome : Outcome M) (jitter : Duration → Duration) :
    (inbox.complete now peer latency outcome jitter).2.peers =
      inbox.peers.insert peer
        { (outcomeOf now inbox.config p outcome).1 with
          inFlight := false
          due := if (outcomeOf now inbox.config p outcome).1.woken then now
            else now + jitter (outcomeOf now inbox.config p outcome).2 } := by
  unfold complete
  dsimp only
  split
  case h_1 hnone => cases hnone.symm.trans hlookup
  case h_2 q hq =>
      obtain rfl := Option.some.inj (hq.symm.trans hlookup)
      rfl

/-- Completing a poll changes neither the other polls that run nor the configuration. -/
theorem complete_frame (now : Instant) (peer : String) (latency : Duration) (outcome : Outcome M)
    (jitter : Duration → Duration) (inbox : PeerInbox) :
    (inbox.complete now peer latency outcome jitter).2.inFlight = inbox.inFlight ∧
      (inbox.complete now peer latency outcome jitter).2.config = inbox.config := by
  unfold complete
  dsimp only
  split <;> exact ⟨rfl, rfl⟩

/-- Whatever a poll has brought, the peer is as woken as before. -/
theorem outcomeOf_woken (now : Instant) (config : PollConfig) (p : PeerPoll)
    (outcome : Outcome M) : (outcomeOf now config p outcome).1.woken = p.woken := by
  unfold outcomeOf
  split
  · rfl
  · dsimp only
    split <;> rfl
  · rfl
  · rfl

/-- A completed poll gives back its peer's slot, and no other. -/
theorem slot_complete (hlookup : inbox.peers.lookup peer = some p) :
    (inbox.complete now peer latency outcome jitter).2.slot other =
      if other = peer then none else inbox.slot other := by
  split
  case isTrue heq =>
      subst heq
      rw [slot, peers_complete hlookup, AList.lookup_insert]
      rfl
  case isFalse hne => rw [slot, slot, peers_complete hlookup, AList.lookup_insert_ne hne]

/-- A completed poll leaves the list and clears its own peer's flag, so the two stay in
step. -/
theorem Sound.complete (h : inbox.Sound) (hpoll : inbox.inFlight[i]? = some poll)
    (now : Instant) (latency : Duration) (outcome : Outcome M) (jitter : Duration → Duration) :
    ((inbox.taken i).complete now poll.peer latency outcome jitter).2.Sound := by
  obtain ⟨hperm, hothers⟩ := h.of_taken hpoll
  obtain ⟨p, hlookup, -⟩ :=
    slot_eq_some_iff.mp (h.held poll (hperm.mem_iff.mp List.mem_cons_self))
  obtain ⟨hinFlight, hconfig⟩ :=
    complete_frame now poll.peer latency outcome jitter (inbox.taken i)
  have hslot : ∀ other, ((inbox.taken i).complete now poll.peer latency outcome jitter).2.slot
      other = if other = poll.peer then none else inbox.slot other := by
    intro other
    have htaken : (inbox.taken i).peers.lookup poll.peer = some p := hlookup
    exact slot_complete htaken
  have hsublist : ((inbox.taken i).inFlight).Sublist inbox.inFlight := List.eraseIdx_sublist _ _
  have hmax : ((inbox.taken i).complete now poll.peer latency outcome jitter).2.maxInFlight =
      inbox.maxInFlight := by
    rw [maxInFlight, hconfig]
    rfl
  refine ⟨?_, ?_, ?_, ?_, ?_⟩
  · rw [hinFlight]
    exact h.nodup.sublist (hsublist.map _)
  · intro other hother
    rw [hinFlight] at hother
    rw [hslot, if_neg (hothers other hother)]
    exact h.held other (hsublist.subset hother)
  · intro other streak hother
    rw [hslot] at hother
    split at hother
    case isTrue => cases hother
    case isFalse hne =>
        obtain ⟨running, hrunning, rfl⟩ := h.running other streak hother
        rw [hinFlight]
        rcases List.mem_cons.mp (hperm.mem_iff.mpr hrunning) with rfl | hmem
        · exact absurd rfl hne
        · exact ⟨running, hmem, rfl⟩
  · rw [hinFlight, hmax]
    exact hsublist.length_le.trans h.bounded
  · rw [hinFlight, stretchedSlots, hmax]
    exact (hsublist.countP_le).trans h.stretched

end PeerInbox

end Polling

end PubkySwap
