import PubkySwap.Lib.Recency
import PubkySwap.Record

/-!
# The spends a record remembers

`SwapRecord.noteOurSpend` keeps at most `maxTrackedOurSpends` spends.  A repeat is not noted
again, so a spend keeps the place of its first note; once the list is full, a new spend
drops the first one, however recently that one has been repeated.

The list always stays free of repeats and within its bound.  That it holds every one of the
most recent spends is true exactly as long as no note drops one of them
(`remembers_iff_sparesRecent`).
-/

namespace PubkySwap

open Recency (recent recent_concat mem_take_erase mem_take_of_mem_take_erase
  mem_take_or_of_mem_take_erase)

namespace SwapRecord

/-- The record after a sequence of notes. -/
def noteAll (rec : SwapRecord) (notes : List Txid) : SwapRecord := notes.foldl noteOurSpend rec

theorem noteAll_concat (rec : SwapRecord) (notes : List Txid) (txid : Txid) :
    rec.noteAll (notes ++ [txid]) = (rec.noteAll notes).noteOurSpend txid := by
  rw [noteAll, List.foldl_append]
  rfl

/-- The list of spends is free of repeats and within its bound. -/
structure Tracked (rec : SwapRecord) : Prop where
  nodup : rec.ourSpendTxids.Nodup
  bounded : rec.ourSpendTxids.length ≤ maxTrackedOurSpends

variable {rec : SwapRecord} {txid : Txid}

/-! ## One note -/

theorem ourSpendTxids_noteOurSpend_of_mem (h : txid ∈ rec.ourSpendTxids) :
    (rec.noteOurSpend txid).ourSpendTxids = rec.ourSpendTxids := by
  rw [noteOurSpend, if_pos h]

/-- There is room for a new spend. -/
theorem ourSpendTxids_noteOurSpend_of_lt (h : txid ∉ rec.ourSpendTxids)
    (hlt : rec.ourSpendTxids.length < maxTrackedOurSpends) :
    (rec.noteOurSpend txid).ourSpendTxids = rec.ourSpendTxids ++ [txid] := by
  rw [noteOurSpend, if_neg h]
  refine if_neg ?_
  rw [List.length_append, List.length_singleton]
  omega

/-- A new spend drops the first one. -/
theorem ourSpendTxids_noteOurSpend_of_full (h : txid ∉ rec.ourSpendTxids)
    (hfull : rec.ourSpendTxids.length = maxTrackedOurSpends) :
    (rec.noteOurSpend txid).ourSpendTxids = rec.ourSpendTxids.tail ++ [txid] := by
  have hne : rec.ourSpendTxids ≠ [] := by
    intro hnil
    rw [hnil] at hfull
    cases hfull
  rw [noteOurSpend, if_neg h, ← List.tail_append_of_ne_nil hne]
  refine if_pos ?_
  rw [List.length_append, List.length_singleton]
  omega

theorem spendTxid_noteOurSpend : (rec.noteOurSpend txid).spendTxid = some txid := rfl

/-- How a note changes the list: not at all, by an end, or by an end and the first. -/
theorem noteOurSpend_cases (h : Tracked rec) (txid : Txid) :
    (txid ∈ rec.ourSpendTxids ∧ (rec.noteOurSpend txid).ourSpendTxids = rec.ourSpendTxids) ∨
      (txid ∉ rec.ourSpendTxids ∧ rec.ourSpendTxids.length < maxTrackedOurSpends ∧
        (rec.noteOurSpend txid).ourSpendTxids = rec.ourSpendTxids ++ [txid]) ∨
      (txid ∉ rec.ourSpendTxids ∧ rec.ourSpendTxids.length = maxTrackedOurSpends ∧
        (rec.noteOurSpend txid).ourSpendTxids = rec.ourSpendTxids.tail ++ [txid]) := by
  by_cases hmem : txid ∈ rec.ourSpendTxids
  · exact .inl ⟨hmem, ourSpendTxids_noteOurSpend_of_mem hmem⟩
  · rcases Nat.lt_or_eq_of_le h.bounded with hlt | hfull
    · exact .inr (.inl ⟨hmem, hlt, ourSpendTxids_noteOurSpend_of_lt hmem hlt⟩)
    · exact .inr (.inr ⟨hmem, hfull, ourSpendTxids_noteOurSpend_of_full hmem hfull⟩)

/-- **The list stays free of repeats and within its bound.** -/
theorem Tracked.note (h : Tracked rec) (txid : Txid) : Tracked (rec.noteOurSpend txid) := by
  rcases noteOurSpend_cases h txid with ⟨-, heq⟩ | ⟨hnew, hlt, heq⟩ | ⟨hnew, hfull, heq⟩
  · exact ⟨heq ▸ h.nodup, heq ▸ h.bounded⟩
  · refine ⟨?_, ?_⟩
    · rw [heq, ← List.concat_eq_append]
      exact h.nodup.concat hnew
    · rw [heq, List.length_append, List.length_singleton]
      exact hlt
  · refine ⟨?_, ?_⟩
    · rw [heq, ← List.concat_eq_append]
      exact h.nodup.tail.concat fun hmem => hnew (List.mem_of_mem_tail hmem)
    · rw [heq, List.length_append, List.length_tail, List.length_singleton, hfull]
      decide

theorem Tracked.noteAll (h : Tracked rec) (notes : List Txid) : Tracked (rec.noteAll notes) := by
  induction notes using List.reverseRecOn with
  | nil => exact h
  | append_singleton notes txid ih =>
      rw [noteAll_concat]
      exact ih.note txid

/-- A spend that has just been noted is in the list. -/
theorem mem_noteOurSpend (h : Tracked rec) (txid : Txid) :
    txid ∈ (rec.noteOurSpend txid).ourSpendTxids := by
  rcases noteOurSpend_cases h txid with ⟨hmem, heq⟩ | ⟨-, -, heq⟩ | ⟨-, -, heq⟩
  · exact heq ▸ hmem
  · exact heq ▸ List.mem_append_right _ (List.mem_singleton_self _)
  · exact heq ▸ List.mem_append_right _ (List.mem_singleton_self _)

theorem mem_ourSpends {rec : SwapRecord} {txid : Txid} :
    txid ∈ rec.ourSpends ↔ txid ∈ rec.ourSpendTxids ∨ rec.spendTxid = some txid := by
  rw [ourSpends, List.mem_append, Option.mem_toList]

/-- After a note the last spend is in the list as well. -/
theorem mem_ourSpends_noteOurSpend (h : Tracked rec) {txid other : Txid} :
    other ∈ (rec.noteOurSpend txid).ourSpends ↔
      other ∈ (rec.noteOurSpend txid).ourSpendTxids := by
  rw [mem_ourSpends, or_iff_left_iff_imp]
  intro hlast
  rw [spendTxid_noteOurSpend] at hlast
  exact Option.some.inj hlast ▸ mem_noteOurSpend h txid

/-! ## What a record should remember -/

/-- **What a record remembers of its notes.** -/
structure Remembers (notes : List Txid) (rec : SwapRecord) : Prop where
  recent : ∀ txid ∈ (recent notes).take maxTrackedOurSpends, txid ∈ rec.ourSpends
  tracked : Tracked rec
  last : ∀ txid ∈ notes.getLast?, rec.spendTxid = some txid

/-- The next note drops none of the most recent spends. -/
def SparesRecent (before : List Txid) (txid : Txid) (rec : SwapRecord) : Prop :=
  txid ∉ rec.ourSpendTxids → rec.ourSpendTxids.length = maxTrackedOurSpends →
    ∀ oldest ∈ rec.ourSpendTxids.head?,
      oldest ∉ (Recency.recent before).take (maxTrackedOurSpends - 1)

instance (before : List Txid) (txid : Txid) (rec : SwapRecord) :
    Decidable (SparesRecent before txid rec) :=
  inferInstanceAs (Decidable (txid ∉ rec.ourSpendTxids →
    rec.ourSpendTxids.length = maxTrackedOurSpends → ∀ oldest ∈ rec.ourSpendTxids.head?,
      oldest ∉ (Recency.recent before).take (maxTrackedOurSpends - 1)))

/-- All that a trace of notes leaves, but for the recent spends. -/
theorem remembers_of_recent (h : Tracked rec) (notes : List Txid)
    (hrecent : ∀ txid ∈ (Recency.recent notes).take maxTrackedOurSpends,
      txid ∈ (rec.noteAll notes).ourSpends) : Remembers notes (rec.noteAll notes) := by
  refine ⟨hrecent, h.noteAll notes, ?_⟩
  intro txid hlast
  rcases List.eq_nil_or_concat notes with rfl | ⟨before, last, rfl⟩
  · cases hlast
  · rw [List.concat_eq_append, List.getLast?_concat] at hlast
    rw [List.concat_eq_append, noteAll_concat, spendTxid_noteOurSpend]
    exact hlast

/-- What is recent after a note and was noted before. -/
theorem recent_before {before : List Txid} {txid other : Txid} (hne : other ≠ txid)
    (hmem : other ∈ (Recency.recent (before ++ [txid])).take maxTrackedOurSpends) :
    other ∈ ((Recency.recent before).erase txid).take (maxTrackedOurSpends - 1) := by
  rw [recent_concat, Recency.note] at hmem
  rcases List.mem_cons.mp (show other ∈ txid :: _ from hmem) with rfl | hmem
  · exact absurd rfl hne
  · exact hmem

/-- **A note that spares the recent spends** is remembered with them. -/
theorem Remembers.note {before : List Txid} (h : Tracked rec)
    (hbefore : Remembers before (rec.noteAll before))
    (hspares : SparesRecent before txid (rec.noteAll before)) :
    Remembers (before ++ [txid]) (rec.noteAll (before ++ [txid])) := by
  have htracked := h.noteAll before
  refine remembers_of_recent h _ fun other hother => ?_
  rw [noteAll_concat, mem_ourSpends_noteOurSpend htracked]
  by_cases hne : other = txid
  · exact hne ▸ mem_noteOurSpend htracked txid
  have hrecent := recent_before hne hother
  have hlisted (x : Txid) (hx : x ∈ (Recency.recent before).take maxTrackedOurSpends) :
      x ∈ (rec.noteAll before).ourSpendTxids := by
    have hspend := hbefore.recent x hx
    rcases List.eq_nil_or_concat before with rfl | ⟨start, last, rfl⟩
    · exact absurd hx (by simp)
    · rw [List.concat_eq_append, noteAll_concat] at hspend ⊢
      exact (mem_ourSpends_noteOurSpend (h.noteAll start)).mp hspend
  have hold := hlisted other (mem_take_of_mem_take_erase hrecent)
  rcases noteOurSpend_cases htracked txid with ⟨-, heq⟩ | ⟨-, -, heq⟩ | ⟨hnew, hfull, heq⟩
  · rwa [heq]
  · exact heq ▸ List.mem_append_left _ hold
  · rw [heq, List.mem_append]
    refine .inl ?_
    -- Only the first of the list is dropped, and it is not recent.
    cases hlist : (rec.noteAll before).ourSpendTxids with
    | nil => rw [hlist] at hold; cases hold
    | cons oldest rest =>
        rw [hlist] at hold
        refine (List.mem_cons.mp hold).resolve_left ?_
        rintro rfl
        have hdropped := hspares hnew hfull other (by rw [hlist]; rfl)
        rcases mem_take_or_of_mem_take_erase hrecent with hin | hin
        · exact hdropped hin
        · exact hnew (hlisted txid (List.take_subset_take_left _ (by decide) hin))

/-- A note that drops a recent spend forgets it. -/
theorem sparesRecent_of_remembers {before : List Txid} (h : Tracked rec)
    (hafter : Remembers (before ++ [txid]) (rec.noteAll (before ++ [txid]))) :
    SparesRecent before txid (rec.noteAll before) := by
  have htracked := h.noteAll before
  intro hnew hfull oldest holdest hrecent
  cases hlist : (rec.noteAll before).ourSpendTxids with
  | nil => rw [hlist] at holdest; cases holdest
  | cons first rest =>
      rw [hlist] at holdest
      obtain rfl : first = oldest := Option.some.inj holdest
      have hne : first ≠ txid := by
        rintro rfl
        exact hnew (hlist ▸ List.mem_cons_self)
      have hstill : first ∈ (Recency.recent (before ++ [txid])).take maxTrackedOurSpends := by
        rw [recent_concat, Recency.note]
        exact List.mem_cons_of_mem _ (mem_take_erase hne hrecent)
      have hspend := hafter.recent first hstill
      rw [noteAll_concat, mem_ourSpends_noteOurSpend htracked,
        ourSpendTxids_noteOurSpend_of_full hnew hfull, hlist, List.mem_append] at hspend
      have hnodup := htracked.nodup
      rw [hlist] at hnodup
      rcases hspend with hrest | hlast
      · exact (List.nodup_cons.mp hnodup).1 hrest
      · exact hne (List.mem_singleton.mp hlast)

/-- **Which records remember their recent spends**: those whose notes have dropped none. -/
theorem remembers_iff_sparesRecent (h : Tracked rec) (notes : List Txid) :
    (∀ before, before <+: notes → Remembers before (rec.noteAll before)) ↔
      ∀ before txid, before ++ [txid] <+: notes →
        SparesRecent before txid (rec.noteAll before) := by
  constructor
  · exact fun hall before txid hprefix => sparesRecent_of_remembers h (hall _ hprefix)
  · intro hspares before
    induction before using List.reverseRecOn with
    | nil => exact fun _ => remembers_of_recent h [] nofun
    | append_singleton before txid ih =>
        intro hprefix
        exact (ih ((List.prefix_append _ _).trans hprefix)).note h (hspares before txid hprefix)

/-! ## A spend that is forgotten -/

/-- Sixteen spends, the first of them once more, and another one. -/
def rebroadcast : List Txid := List.range 16 ++ [0, 16]

/-- **A spend that was repeated one note ago is dropped.** -/
theorem forgotten_when_rebroadcast :
    Tracked {} ∧ 0 ∈ (Recency.recent rebroadcast).take maxTrackedOurSpends ∧
      0 ∉ (noteAll {} rebroadcast).ourSpends ∧ ¬Remembers rebroadcast (noteAll {} rebroadcast) := by
  have hrecent : 0 ∈ (Recency.recent rebroadcast).take maxTrackedOurSpends := by decide
  have hdropped : 0 ∉ (noteAll {} rebroadcast).ourSpends := by decide
  exact ⟨⟨List.nodup_nil, Nat.zero_le _⟩, hrecent, hdropped, fun h => hdropped (h.recent 0 hrecent)⟩

/-- Seventeen spends in order are remembered as they should be. -/
theorem remembers_in_order : Remembers (List.range 17) (noteAll {} (List.range 17)) := by
  refine (remembers_iff_sparesRecent ⟨List.nodup_nil, Nat.zero_le _⟩ (List.range 17)).mpr ?_ _
    (List.prefix_refl _)
  have hspares : ∀ n < 17, SparesRecent (List.range n) n (noteAll {} (List.range n)) := by decide
  intro before txid hprefix
  have hlt : before.length < 17 := by
    have hle := hprefix.length_le
    rw [List.length_append, List.length_singleton, List.length_range] at hle
    exact hle
  have htake := List.prefix_iff_eq_take.mp hprefix
  rw [List.length_append, List.length_singleton, List.take_range, min_eq_left hlt,
    List.range_succ] at htake
  obtain ⟨hbefore, hlast⟩ := List.append_inj' htake rfl
  rw [hbefore, List.singleton_inj.mp hlast]
  exact hspares before.length hlt

end SwapRecord

end PubkySwap
