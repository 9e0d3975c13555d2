import PubkySwap.SwapListing

/-!
# A listing of a store that changes

While an owner reads page after page, drivers and monitors go on writing records, and new
swaps are written down.  A `StoreWrite` is one of these writes as the store carries it out:
the record is stamped with the time of its first write, as far as the record on disk tells.

`listing_covers` is the listing over any history of writes that find a creation time, and
any placement of the pages in it; `skipped_when_restamped` is a listing that loses a swap to
a write that does not.
-/

namespace PubkySwap

/-! ## Writes -/

/-- The records of a provider, by swap. -/
abbrev ProviderStore : Type := Uuid → Option SwapRecord

/-- A moment of the store. -/
inductive StoreWrite where
  | still
  /-- `persist_record`, with what it read back of the record on disk. -/
  | put (record : SwapRecord) (readBack : Option SwapRecord) (unix : ℕ)
  | remove (swapId : Uuid)

/-- The store after the write. -/
def StoreWrite.apply (store : ProviderStore) : StoreWrite → ProviderStore
  | still => store
  | put record readBack unix =>
      Function.update store record.swapId (some (record.stamped readBack unix))
  | remove swapId => Function.update store swapId none

/-- A write as it can happen: the record on disk is read back or not, and the writer's copy
was read from it or made before it. -/
def StoreWrite.Allowed (store : ProviderStore) : StoreWrite → Prop
  | put record readBack _ =>
      (readBack = none ∨ readBack = store record.swapId) ∧
        ∀ old, store record.swapId = some old →
          record.createdAtUnix = 0 ∨ record.createdAtUnix = old.createdAtUnix
  | _ => True

/-- **The write finds the creation time** of a swap that is there: the swap has one, and the
copy written carries it or the record on disk can be read. -/
def StoreWrite.FindsTime (store : ProviderStore) : StoreWrite → Prop
  | put record readBack _ =>
      ∀ old, store record.swapId = some old →
        old.createdAtUnix ≠ 0 ∧ (record.createdAtUnix ≠ 0 ∨ readBack ≠ none)
  | _ => True

/-- The store after so many moments. -/
def storeAt (store : ProviderStore) (writes : ℕ → StoreWrite) : ℕ → ProviderStore
  | 0 => store
  | n + 1 => (writes n).apply (storeAt store writes n)

/-- What `load_all_checked` answers: every record, in any order. -/
def Loaded (store : ProviderStore) (records : List SwapRecord) : Prop :=
  (records.map SwapRecord.swapId).Nodup ∧
    ∀ record, record ∈ records ↔ store record.swapId = some record

section

variable {store : ProviderStore} {writes : ℕ → StoreWrite}

@[simp] theorem createdAtUnix_stamped (record : SwapRecord) (readBack : Option SwapRecord)
    (unix : ℕ) : (record.stamped readBack unix).createdAtUnix =
      if record.createdAtUnix = 0 then
        ((readBack.map SwapRecord.createdAtUnix).filter (0 < ·)).getD unix
      else record.createdAtUnix := rfl

/-- **A write that finds the creation time keeps it.** -/
theorem StoreWrite.created_eq {write : StoreWrite} (hallowed : write.Allowed store)
    (htime : write.FindsTime store) {swapId : Uuid} {old new : SwapRecord}
    (hold : store swapId = some old) (hnew : write.apply store swapId = some new) :
    new.createdAtUnix = old.createdAtUnix := by
  cases write with
  | still =>
      cases hold.symm.trans hnew
      rfl
  | remove removed =>
      by_cases hid : swapId = removed
      · rw [hid, apply, Function.update_self] at hnew
        cases hnew
      · rw [apply, Function.update_of_ne hid, hold] at hnew
        cases hnew
        rfl
  | put record readBack unix =>
      by_cases hid : swapId = record.swapId
      · subst hid
        rw [apply, Function.update_self] at hnew
        cases hnew
        obtain ⟨hstamped, hfound⟩ := htime old hold
        obtain ⟨hread, hcopy⟩ := hallowed
        rw [createdAtUnix_stamped]
        split
        · rename_i hnone
          have hback : readBack = some old := by
            rw [← hold]
            exact hread.resolve_left (hfound.resolve_left (not_not.mpr hnone))
          rw [hback, Option.map_some, Option.filter_some, if_pos]
          · rfl
          · exact decide_eq_true (Nat.pos_of_ne_zero hstamped)
        · exact (hcopy old hold).resolve_left ‹_›
      · rw [apply, Function.update_of_ne hid, hold] at hnew
        cases hnew
        rfl

/-- Over any stretch of a history in which a swap is there all along, it keeps its creation
time. -/
theorem created_storeAt (hallowed : ∀ n, (writes n).Allowed (storeAt store writes n))
    (htimes : ∀ n, (writes n).FindsTime (storeAt store writes n)) {swapId : Uuid} {first : ℕ}
    {old : SwapRecord} (hold : storeAt store writes first swapId = some old) :
    ∀ {n : ℕ} {new : SwapRecord},
      (∀ m, first ≤ m → m ≤ first + n → (storeAt store writes m swapId).isSome) →
      storeAt store writes (first + n) swapId = some new →
      new.createdAtUnix = old.createdAtUnix := by
  intro n
  induction n with
  | zero =>
      intro new _ hnew
      cases hold.symm.trans hnew
      rfl
  | succ n ih =>
      intro new hthere hnew
      obtain ⟨before, hbefore⟩ := Option.isSome_iff_exists.mp
        (hthere (first + n) (Nat.le_add_right _ _) (Nat.le_succ _))
      have hsame := ih (fun m hm hle => hthere m hm (Nat.le_succ_of_le hle)) hbefore
      rw [← hsame]
      exact StoreWrite.created_eq (hallowed (first + n)) (htimes (first + n)) hbefore hnew

end

/-! ## A session -/

/-- An owner reading its swaps: what every request carries, and what the provider answers it
from. -/
structure ListingSession where
  sender : String
  authorization : Option (String × String) := none
  activeOnly : Bool := false
  requestId : ℕ → Option Uuid := fun _ => none
  limit : ℕ → Option ℕ := fun _ => none
  loads : ℕ → List SwapRecord
  nowUnix : ℕ → ℕ := fun _ => 0

namespace ListingSession

variable [ClientCrates] (listing : ListingSession)

/-- The answer to the request with this number, for a page after a cursor. -/
def answer (n : ℕ) (cursor : Option String) : Except ListError SwapList :=
  swapList (.ok (listing.loads n)) listing.sender listing.authorization
    { requestId := listing.requestId n, cursor := cursor, limit := listing.limit n,
      activeOnly := listing.activeOnly } (listing.nowUnix n)

/-- The answers to the requests as the cursors lead to them; `none` once a page had no
cursor or a request was refused. -/
def answers : ℕ → Option (Except ListError SwapList)
  | 0 => some (listing.answer 0 none)
  | n + 1 =>
      match answers n with
      | some (.ok list) => list.nextCursor.map fun cursor => listing.answer (n + 1) (some cursor)
      | _ => none

/-- The rows at a request. -/
def rows (n : ℕ) : List SwapRecord :=
  ownedRows (listing.loads n) listing.sender listing.authorization listing.activeOnly

/-- **What a page shows**: records of the store as the request found it, each one the owner's
to list, and of each its own snapshot. -/
structure Shows (n : ℕ) (list : SwapList) (shown : List SwapRecord) : Prop where
  loaded : ∀ row ∈ shown, row ∈ listing.loads n ∧
    listable listing.sender listing.authorization listing.activeOnly row = true
  snapshots : List.Forall₂
    (fun snapshot row => SwapRecord.statusSnapshot row none (listing.nowUnix n) = some snapshot)
    list.snapshots shown

/-- **The listing covers everything once**: the cursors lead through pages to one without a
cursor, the rows that the pages show come in the listing's order, and every swap that `stays`
through the last page is shown by one of them. -/
def CoversOnce (stays : ℕ → Uuid → Prop) : Prop :=
  ∃ pages : List (SwapList × List SwapRecord),
    pages ≠ [] ∧
    (∀ n (h : n < pages.length),
      listing.answers n = some (.ok (pages.get ⟨n, h⟩).1) ∧
        listing.Shows n (pages.get ⟨n, h⟩).1 (pages.get ⟨n, h⟩).2) ∧
    (∀ last ∈ pages.getLast?, last.1.nextCursor = none) ∧
    Paging.Sorted listKey (pages.flatMap Prod.snd) ∧
    ∀ swapId, stays (pages.length - 1) swapId →
      ((pages.flatMap Prod.snd).map SwapRecord.swapId).count swapId = 1

/-- What the request with this number begins after. -/
abbrev cursorAt (n : ℕ) : Option (Option ListKey) :=
  Paging.cursor listKey listing.rows (fun n => listPageLimit (listing.limit n)) n

/-- The rows of the page with this number. -/
abbrev rowsAt (n : ℕ) : List SwapRecord :=
  Paging.pageAt listKey listing.rows (fun n => listPageLimit (listing.limit n)) n

/-- The page with this number. -/
def pageAt (n : ℕ) : SwapList where
  requestId := listing.requestId n
  snapshots := (listing.rowsAt n).filterMap
    fun record => record.statusSnapshot none (listing.nowUnix n)
  nextCursor := (listing.cursorAt (n + 1)).bind fun after => after.map encodeListCursor

variable {listing}

theorem sorted_rows (hnodup : ∀ n, ((listing.loads n).map SwapRecord.swapId).Nodup) (n : ℕ) :
    Paging.Sorted listKey (listing.rows n) :=
  sorted_ownedRows (hnodup n)

/-- One request, for a page after a key of the session. -/
theorem answer_eq {n : ℕ} {after : Option ListKey} (hcursor : listing.cursorAt n = some after)
    (hafter : ∀ key ∈ after, key.createdAtUnix < 2 ^ 64 ∧ key.swapId < 2 ^ 128) :
    listing.answer n (after.map encodeListCursor) = .ok (listing.pageAt n) := by
  rw [answer, swapList_eq rfl hafter]
  have hpage := Paging.pageAt_eq hcursor
  have hnext : listing.cursorAt (n + 1) = (Paging.next listKey (listing.rows n) after
      (listPageLimit (listing.limit n))).map some := by
    have hcursor' :
        Paging.cursor listKey listing.rows (fun n => listPageLimit (listing.limit n)) n =
        some after := hcursor
    rw [cursorAt, Paging.cursor, hcursor']
    rfl
  rw [pageAt, rowsAt, hpage, hnext, Option.bind_map]
  congr 2
  exact (Option.map_eq_bind ..)

/-- **The answers are the pages of a session.** -/
theorem answers_eq
    (htyped : ∀ n, ∀ record ∈ listing.loads n,
      record.createdAtUnix < 2 ^ 64 ∧ record.swapId < 2 ^ 128)
    (hnodup : ∀ n, ((listing.loads n).map SwapRecord.swapId).Nodup) :
    ∀ {n : ℕ} {after : Option ListKey}, listing.cursorAt n = some after →
      listing.answers n = some (.ok (listing.pageAt n)) := by
  intro n
  induction n with
  | zero =>
      intro after h
      cases h
      have hnone : ∀ key ∈ (none : Option ListKey),
          key.createdAtUnix < 2 ^ 64 ∧ key.swapId < 2 ^ 128 := nofun
      have hfirst : listing.answer 0 none = .ok (listing.pageAt 0) := answer_eq rfl hnone
      rw [answers, hfirst]
  | succ n ih =>
      intro after h
      obtain ⟨before, bound, hbefore, hnext, rfl⟩ := Paging.cursor_succ_eq_some h
      have hlist : (listing.pageAt n).nextCursor = some (encodeListCursor bound) := by
        rw [pageAt, h]
        rfl
      rw [answers, ih hbefore]
      simp only [hlist, Option.map_some]
      obtain ⟨⟨row, hrow, rfl⟩, -⟩ := Paging.le_of_next (sorted_rows hnodup n) hnext
      have hloaded := (mem_ownedRows.mp (Paging.mem_page (sorted_rows hnodup n) hrow).1).1
      rw [← answer_eq h]
      · rfl
      · rintro key ⟨⟩
        exact htyped n row hloaded

/-- A page's snapshots are those of its rows. -/
theorem forall₂_snapshots {records rows : List SwapRecord} {sender : String}
    {authorization : Option (String × String)} {activeOnly : Bool}
    (h : rows ⊆ ownedRows records sender authorization activeOnly) (unix : ℕ) :
    List.Forall₂ (fun snapshot row => SwapRecord.statusSnapshot row none unix = some snapshot)
      (rows.filterMap fun record => record.statusSnapshot none unix) rows := by
  induction rows with
  | nil => exact .nil
  | cons row rows ih =>
      obtain ⟨hrow, hrest⟩ := List.cons_subset.mp h
      obtain ⟨snapshot, hsnapshot⟩ := Option.isSome_iff_exists.mp
        (isSome_statusSnapshot (mem_ownedRows.mp hrow).2 unix)
      rw [List.filterMap_cons, hsnapshot]
      exact .cons hsnapshot (ih hrest)

/-- The page with a number shows its rows. -/
theorem shows_pageAt (hnodup : ∀ n, ((listing.loads n).map SwapRecord.swapId).Nodup) (n : ℕ) :
    listing.Shows n (listing.pageAt n) (listing.rowsAt n) := by
  have hrows : listing.rowsAt n ⊆ listing.rows n := Paging.pageAt_subset (sorted_rows hnodup) n
  exact ⟨fun row hrow => mem_ownedRows.mp (hrows hrow), forall₂_snapshots hrows _⟩

end ListingSession

/-- The place of a key among those of words. -/
def ListKey.rank (key : ListKey) : ℕ :=
  (2 ^ 64 - 1 - key.createdAtUnix) * 2 ^ 128 + key.swapId

theorem ListKey.rank_lt {a b : ListKey} (ha : a.createdAtUnix < 2 ^ 64) (hid : a.swapId < 2 ^ 128)
    (h : a < b) : a.rank < b.rank := by
  unfold rank
  rcases Prod.Lex.lt_iff.mp h with hcreated | ⟨hcreated, hswap⟩
  · have hlt : b.createdAtUnix < a.createdAtUnix := hcreated
    have hstep : 2 ^ 64 - 1 - a.createdAtUnix + 1 ≤ 2 ^ 64 - 1 - b.createdAtUnix := by omega
    calc (2 ^ 64 - 1 - a.createdAtUnix) * 2 ^ 128 + a.swapId
        < (2 ^ 64 - 1 - a.createdAtUnix + 1) * 2 ^ 128 := by
          rw [Nat.add_one_mul]
          exact Nat.add_lt_add_left hid _
      _ ≤ (2 ^ 64 - 1 - b.createdAtUnix) * 2 ^ 128 := Nat.mul_le_mul_right _ hstep
      _ ≤ _ := Nat.le_add_right _ _
  · have heq : a.createdAtUnix = b.createdAtUnix := congrArg OrderDual.ofDual hcreated
    have hlt : a.swapId < b.swapId := hswap
    rw [heq]
    exact Nat.add_lt_add_left hlt _

theorem ListKey.rank_lt_most {key : ListKey} (hid : key.swapId < 2 ^ 128) :
    key.rank < 2 ^ 192 := by
  unfold rank
  calc (2 ^ 64 - 1 - key.createdAtUnix) * 2 ^ 128 + key.swapId
      < (2 ^ 64 - 1) * 2 ^ 128 + 2 ^ 128 :=
        add_lt_add_of_le_of_lt (Nat.mul_le_mul_right _ (Nat.sub_le _ _)) hid
    _ = 2 ^ 192 := by norm_num

/-- Rows of one key, sorted, are one row. -/
theorem count_swapId_eq_one {rows : List SwapRecord} (hsorted : Paging.Sorted listKey rows)
    {swapId : Uuid} {key : ListKey} (hthere : ∃ row ∈ rows, row.swapId = swapId)
    (hkey : ∀ row ∈ rows, row.swapId = swapId → listKey row = key) :
    (rows.map SwapRecord.swapId).count swapId = 1 := by
  rw [List.count, List.countP_map, List.countP_eq_length_filter]
  have hfiltered : Paging.Sorted listKey (rows.filter ((· == swapId) ∘ SwapRecord.swapId)) :=
    hsorted.sublist List.filter_sublist
  have hmem : ∀ row ∈ rows.filter ((· == swapId) ∘ SwapRecord.swapId), listKey row = key := by
    intro row hrow
    obtain ⟨hrow, hid⟩ := List.mem_filter.mp hrow
    exact hkey row hrow (beq_iff_eq.mp hid)
  obtain ⟨row, hrow, hid⟩ := hthere
  have hne : row ∈ rows.filter ((· == swapId) ∘ SwapRecord.swapId) :=
    List.mem_filter.mpr ⟨hrow, beq_iff_eq.mpr hid⟩
  generalize rows.filter ((· == swapId) ∘ SwapRecord.swapId) = same at hfiltered hmem hne ⊢
  match same, hfiltered, hmem, hne with
  | [_], _, _, _ => rfl
  | a :: b :: _, hfiltered, hmem, _ =>
      have hlt := (List.pairwise_cons.mp hfiltered).1 b (List.mem_cons_self ..)
      rw [hmem a (List.mem_cons_self ..), hmem b (List.mem_cons_of_mem _ (List.mem_cons_self ..))]
        at hlt
      exact absurd hlt (lt_irrefl _)

section

variable [ClientCrates] {store : ProviderStore} {writes : ℕ → StoreWrite} {moment : ℕ → ℕ}
  {listing : ListingSession}

/-- The swap is there for the owner to list, from the first request to the one with this
number. -/
def StaysListable (store : ProviderStore) (writes : ℕ → StoreWrite) (moment : ℕ → ℕ)
    (listing : ListingSession) (last : ℕ) (swapId : Uuid) : Prop :=
  ∀ m, moment 0 ≤ m → m ≤ moment last → ∃ record, storeAt store writes m swapId = some record ∧
    record.swapId = swapId ∧
    listable listing.sender listing.authorization listing.activeOnly record = true

/-- A swap that stays listable keeps its key, wherever it is listed. -/
theorem key_of_stays (hmoment : Monotone moment)
    (hloads : ∀ n, Loaded (storeAt store writes (moment n)) (listing.loads n))
    (hallowed : ∀ n, (writes n).Allowed (storeAt store writes n))
    (htimes : ∀ n, (writes n).FindsTime (storeAt store writes n)) {last : ℕ} {swapId : Uuid}
    (hstays : StaysListable store writes moment listing last swapId) :
    ∃ key, ∀ m ≤ last,
      (∃ row ∈ listing.rows m, row.swapId = swapId) ∧
        ∀ row ∈ listing.rows m, row.swapId = swapId → listKey row = key := by
  obtain ⟨old, hold, -, -⟩ := hstays (moment 0) le_rfl (hmoment (Nat.zero_le _))
  refine ⟨listKeyOf old.createdAtUnix swapId, fun m hm => ⟨?_, fun row hrow hid => ?_⟩⟩
  · obtain ⟨record, hrecord, hid, hlistable⟩ :=
      hstays (moment m) (hmoment (Nat.zero_le _)) (hmoment hm)
    refine ⟨record, mem_ownedRows.mpr ⟨?_, hlistable⟩, hid⟩
    rw [(hloads m).2 record, hid]
    exact hrecord
  · have hloaded := ((hloads m).2 row).mp (mem_ownedRows.mp hrow).1
    have hspan : moment m = moment 0 + (moment m - moment 0) :=
      (Nat.add_sub_cancel' (hmoment (Nat.zero_le m))).symm
    rw [hid, hspan] at hloaded
    have hcreated := created_storeAt hallowed htimes hold (fun k hfirst hle => ?_) hloaded
    · rw [listKey, hid, hcreated]
    · rw [← hspan] at hle
      obtain ⟨record, hrecord, -⟩ := hstays k hfirst (hle.trans (hmoment hm))
      rw [hrecord]
      rfl

/-- A session of pages over such a history lists everything once. -/
theorem coversOnce (hmoment : Monotone moment)
    (hloads : ∀ n, Loaded (storeAt store writes (moment n)) (listing.loads n))
    (htyped : ∀ n, ∀ record ∈ listing.loads n,
      record.createdAtUnix < 2 ^ 64 ∧ record.swapId < 2 ^ 128)
    (hallowed : ∀ n, (writes n).Allowed (storeAt store writes n))
    (htimes : ∀ n, (writes n).FindsTime (storeAt store writes n)) :
    listing.CoversOnce (StaysListable store writes moment listing) := by
  have hnodup : ∀ n, ((listing.loads n).map SwapRecord.swapId).Nodup := fun n => (hloads n).1
  have hsorted := ListingSession.sorted_rows hnodup
  have hword : ∀ n, ∀ row ∈ listing.rows n,
      (listKey row).createdAtUnix < 2 ^ 64 ∧ (listKey row).swapId < 2 ^ 128 := fun n row hrow =>
    htyped n row (mem_ownedRows.mp hrow).1
  -- the rank of the cursor grows with every page and is bounded, so that one page is the last
  have hends : ∃ n, listing.cursorAt n = none :=
    ⟨_, Paging.exists_cursor_eq_none hsorted
      (fun m n row hrow row' hrow' hlt =>
        ListKey.rank_lt (hword m row hrow).1 (hword m row hrow).2 hlt)
      (fun n row hrow => ListKey.rank_lt_most (hword n row hrow).2)⟩
  classical
  obtain ⟨last, hover, hbefore⟩ : ∃ last, listing.cursorAt (last + 1) = none ∧
      ∀ n ≤ last, listing.cursorAt n ≠ none := by
    have hpos : Nat.find hends ≠ 0 := fun h => by
      have hspec := Nat.find_spec hends
      rw [h] at hspec
      cases hspec
    obtain ⟨last, hlast⟩ := Nat.exists_eq_succ_of_ne_zero hpos
    have hspec := Nat.find_spec hends
    rw [hlast] at hspec
    refine ⟨last, hspec, fun n hn => Nat.find_min hends ?_⟩
    rw [hlast]
    exact Nat.lt_succ_of_le hn
  have hlisted : ((List.range (last + 1)).map fun n => (listing.pageAt n, listing.rowsAt n)).flatMap
      Prod.snd =
        Paging.listed listKey listing.rows (fun n => listPageLimit (listing.limit n)) (last + 1) :=
    List.flatMap_map ..
  refine ⟨(List.range (last + 1)).map fun n => (listing.pageAt n, listing.rowsAt n), by simp,
    fun n h => ?_, fun page hpage => ?_, hlisted ▸ Paging.pairwise_listed hsorted _,
    fun swapId hstays => ?_⟩
  · rw [List.length_map, List.length_range] at h
    obtain ⟨after, hafter⟩ := Option.ne_none_iff_exists'.mp (hbefore n (Nat.le_of_lt_succ h))
    rw [ListingSession.answers_eq htyped hnodup hafter]
    simp only [List.get_eq_getElem, List.getElem_map, List.getElem_range, true_and]
    exact ListingSession.shows_pageAt hnodup n
  · rw [List.range_succ, List.map_append, List.map_singleton, List.getLast?_concat] at hpage
    cases hpage
    rw [ListingSession.pageAt, hover]
    rfl
  · rw [List.length_map, List.length_range, Nat.add_sub_cancel] at hstays
    rw [hlisted]
    -- a swap that stays is listed under one key throughout: its time of creation is not written
    -- again
    obtain ⟨key, hkey⟩ := key_of_stays hmoment hloads hallowed htimes hstays
    refine count_swapId_eq_one (Paging.pairwise_listed hsorted _) ?_
      (fun row hrow hid => show listKey row = key from ?_)
    · have hthere : ∀ m < last + 1, ∃ row ∈ listing.rows m, listKey row = key := by
        intro m hm
        obtain ⟨⟨row, hrow, hid⟩, hall⟩ := hkey m (Nat.le_of_lt_succ hm)
        exact ⟨row, hrow, hall row hrow hid⟩
      obtain ⟨row, hrow, hrowkey⟩ := Paging.mem_listed hsorted
        (fun n => listPageLimit_pos (listing.limit n)) hthere hover
      obtain ⟨⟨first, hfirst, hid⟩, hall⟩ := hkey 0 (Nat.zero_le _)
      refine ⟨row, hrow, ?_⟩
      rw [← hid]
      exact congrArg ListKey.swapId (hrowkey.trans (hall first hfirst hid).symm)
    · obtain ⟨m, hm, hmem⟩ := Paging.of_mem_listed hsorted hrow
      exact (hkey m (Nat.le_of_lt_succ hm)).2 row hmem hid

end

/-- **A listing covers everything once**, over any history of the store whose writes find a
creation time, wherever its requests fall in it; and the cursor of every key is read back. -/
theorem listing_covers [ClientCrates] (store : ProviderStore) (writes : ℕ → StoreWrite)
    (moment : ℕ → ℕ) (listing : ListingSession) (hmoment : Monotone moment)
    (hloads : ∀ n, Loaded (storeAt store writes (moment n)) (listing.loads n))
    (htyped : ∀ n, ∀ record ∈ listing.loads n,
      record.createdAtUnix < 2 ^ 64 ∧ record.swapId < 2 ^ 128)
    (hallowed : ∀ n, (writes n).Allowed (storeAt store writes n))
    (htimes : ∀ n, (writes n).FindsTime (storeAt store writes n)) :
    listing.CoversOnce (StaysListable store writes moment listing) ∧
      ∀ key : ListKey, key.createdAtUnix < 2 ^ 64 → key.swapId < 2 ^ 128 →
        decodeListCursor (encodeListCursor key) = .ok key :=
  ⟨coversOnce hmoment hloads htyped hallowed htimes, fun _ => decode_encodeListCursor⟩

/-! ## A swap that has its time, and one that has not -/

namespace RestampedSwap

local instance crates : ClientCrates := plainCrates

/-- A swap from before records had a creation time. -/
def legacy : SwapRecord where
  swapId := 1
  peer := "owner"
  swapAccept := some
    { quoteId := 1, swapId := 1, direction := .reverse, onchainAmountSat := 50000
      timeoutBlockHeight := 144, providerPubkeyHex := "" }

/-- A swap that has one. -/
def dated : SwapRecord where
  swapId := 2
  peer := "owner"
  createdAtUnix := 5
  swapAccept := some
    { quoteId := 2, swapId := 2, direction := .reverse, onchainAmountSat := 50000
      timeoutBlockHeight := 144, providerPubkeyHex := "" }

/-- The records of the provider. -/
def store : ProviderStore := fun swapId =>
  if swapId = 1 then some legacy else if swapId = 2 then some dated else none

/-- The legacy swap changes state between the first page and the second. -/
def writes : ℕ → StoreWrite
  | 0 => .put { legacy with state := .lockupConfirmed } (some legacy) 100
  | _ => .still

/-- The legacy record as it was written again. -/
def restamped : SwapRecord := { legacy with state := .lockupConfirmed, createdAtUnix := 100 }

/-- Its owner reads a page of one swap before that write, and the next page after it. -/
def listing : ListingSession where
  sender := "owner"
  limit := fun _ => some 1
  loads := fun n => if n = 0 then [dated, legacy] else [restamped, dated]

theorem storeAt_succ (n : ℕ) : storeAt store writes (n + 1) =
    fun swapId => if swapId = 1 then some restamped
      else if swapId = 2 then some dated else none := by
  induction n with
  | zero =>
      funext swapId
      show Function.update store 1 (some restamped) swapId = _
      rw [Function.update_apply, store]
      split <;> rfl
  | succ n ih => exact ih

/-- Two records are what is loaded of a store of the two. -/
theorem mem_pair_iff {first second : SwapRecord} (hfirst : first.swapId = 1)
    (hsecond : second.swapId = 2) (record : SwapRecord) :
    record ∈ [first, second] ↔ (if record.swapId = 1 then some first
      else if record.swapId = 2 then some second else none) = some record := by
  rw [List.mem_pair]
  constructor
  · rintro (rfl | rfl)
    · rw [if_pos hfirst]
    · rw [hsecond]
      rfl
  · intro h
    split at h
    · exact .inl (Option.some.inj h).symm
    · split at h
      · exact .inr (Option.some.inj h).symm
      · cases h

theorem loaded (n : ℕ) : Loaded (storeAt store writes n) (listing.loads n) := by
  cases n with
  | zero =>
      refine ⟨by decide, fun record => ?_⟩
      exact (List.Perm.swap legacy dated []).mem_iff.trans (mem_pair_iff rfl rfl record)
  | succ n =>
      show Loaded _ [restamped, dated]
      refine ⟨by decide, fun record => ?_⟩
      rw [storeAt_succ]
      exact mem_pair_iff rfl rfl record

theorem typed (n : ℕ) : ∀ record ∈ listing.loads n,
    record.createdAtUnix < 2 ^ 64 ∧ record.swapId < 2 ^ 128 := by
  cases n with
  | zero => decide
  | succ n =>
      show ∀ record ∈ [restamped, dated], record.createdAtUnix < 2 ^ 64 ∧ record.swapId < 2 ^ 128
      decide

theorem allowed (n : ℕ) : (writes n).Allowed (storeAt store writes n) := by
  cases n with
  | zero => exact ⟨.inr rfl, fun _ _ => .inl rfl⟩
  | succ n => trivial

theorem rows_zero : listing.rows 0 = [dated, legacy] := by
  have hsorted : [dated, legacy].Pairwise fun a b => decide (listKey a ≤ listKey b) = true := by
    decide
  exact List.mergeSort_of_pairwise hsorted

theorem rows_succ (n : ℕ) : listing.rows (n + 1) = [restamped, dated] := by
  have hsorted : [restamped, dated].Pairwise fun a b => decide (listKey a ≤ listKey b) = true := by
    decide
  exact List.mergeSort_of_pairwise hsorted

theorem cursorAt_one : listing.cursorAt 1 = some (some (listKey dated)) := by
  show (Paging.next listKey (listing.rows 0) none 1).map some = _
  rw [rows_zero]
  rfl

theorem cursorAt_two : listing.cursorAt 2 = none := by
  have hcursor : listing.cursorAt 2 = (listing.cursorAt 1).bind fun after =>
      (Paging.next listKey (listing.rows 1) after 1).map some := rfl
  rw [hcursor, cursorAt_one, Option.bind_some, rows_succ]
  decide

theorem answers_zero : listing.answers 0 = some (.ok (listing.pageAt 0)) :=
  ListingSession.answers_eq typed (fun n => (loaded n).1) rfl

theorem answers_one : listing.answers 1 = some (.ok (listing.pageAt 1)) :=
  ListingSession.answers_eq typed (fun n => (loaded n).1) cursorAt_one

/-- The first page has the newer swap, and the second has none. -/
theorem answers_two : listing.answers 2 = none := by
  rw [ListingSession.answers, answers_one]
  show (listing.pageAt 1).nextCursor.map _ = none
  rw [ListingSession.pageAt, cursorAt_two]
  rfl

/-- A page a session is said to have is the one it has. -/
theorem page_eq {n : ℕ} {page other : SwapList} (h : listing.answers n = some (.ok page))
    (h' : listing.answers n = some (.ok other)) : other = page :=
  Except.ok.inj (Option.some.inj (h'.symm.trans h))

theorem snapshots_pageAt_zero : (listing.pageAt 0).snapshots.length = 1 := by
  show ((Paging.page listKey (listing.rows 0) none 1).filterMap _).length = 1
  rw [rows_zero]
  rfl

theorem snapshots_pageAt_one : (listing.pageAt 1).snapshots = [] := by
  rw [ListingSession.pageAt, ListingSession.rowsAt, Paging.pageAt_eq cursorAt_one, rows_succ]
  have hpage : Paging.page listKey [restamped, dated] (some (listKey dated)) 1 = [] := by decide
  show List.filterMap (fun record => record.statusSnapshot none 0)
    (Paging.page listKey [restamped, dated] (some (listKey dated)) 1) = []
  rw [hpage, List.filterMap_nil]

/-- The swap stays listable all the time, whichever of the two it is. -/
theorem stays {swapId : Uuid} (h : swapId = 1 ∨ swapId = 2) (last : ℕ) :
    StaysListable store writes id listing last swapId := by
  intro m _ _
  cases m with
  | zero => rcases h with rfl | rfl <;> exact ⟨_, rfl, rfl, by decide⟩
  | succ m =>
      show ∃ record, storeAt store writes (m + 1) swapId = some record ∧ _
      rw [storeAt_succ]
      rcases h with rfl | rfl <;> exact ⟨_, rfl, rfl, by decide⟩

/-- The first page shows one swap. -/
theorem length_shown_zero {list : SwapList} {shown : List SwapRecord}
    (h : listing.answers 0 = some (.ok list)) (hshown : listing.Shows 0 list shown) :
    shown.length = 1 := by
  rw [← hshown.snapshots.length_eq, page_eq answers_zero h, snapshots_pageAt_zero]

/-- The second page shows none. -/
theorem length_shown_one {list : SwapList} {shown : List SwapRecord}
    (h : listing.answers 1 = some (.ok list)) (hshown : listing.Shows 1 list shown) :
    shown.length = 0 := by
  rw [← hshown.snapshots.length_eq, page_eq answers_one h, snapshots_pageAt_one, List.length_nil]

/-- A session of these requests shows no more than one swap. -/
theorem few_rows {pages : List (SwapList × List SwapRecord)}
    (hpages : ∀ n (h : n < pages.length),
      listing.answers n = some (.ok (pages.get ⟨n, h⟩).1) ∧
        listing.Shows n (pages.get ⟨n, h⟩).1 (pages.get ⟨n, h⟩).2) :
    (pages.flatMap Prod.snd).length ≤ 1 := by
  match pages, hpages with
  | [], _ => exact Nat.zero_le 1
  | [(first, shown)], hpages =>
      obtain ⟨hfirst, hshown⟩ := hpages 0 Nat.one_pos
      rw [List.flatMap_singleton]
      exact (length_shown_zero hfirst hshown).le
  | [(first, shown), (second, shown')], hpages =>
      obtain ⟨hfirst, hshown⟩ := hpages 0 Nat.two_pos
      obtain ⟨hsecond, hshown'⟩ := hpages 1 Nat.one_lt_two
      have hone : shown.length = 1 := length_shown_zero hfirst hshown
      have hnone : shown'.length = 0 := length_shown_one hsecond hshown'
      rw [List.flatMap_cons, List.flatMap_singleton, List.length_append, hone, hnone]
  | _ :: _ :: _ :: rest, hpages =>
      have hthird := (hpages 2 (by
        rw [List.length_cons, List.length_cons, List.length_cons]
        omega)).1
      rw [answers_two] at hthird
      exact Option.some_ne_none _ hthird.symm |>.elim

/-- **A swap from before records had a creation time is skipped**: it is stamped while its
owner reads, and comes before the page it was to be on. -/
theorem skipped_when_restamped :
    (∀ n, Loaded (storeAt store writes n) (listing.loads n)) ∧
      (∀ n, (writes n).Allowed (storeAt store writes n)) ∧
      ¬listing.CoversOnce (StaysListable store writes id listing) := by
  refine ⟨loaded, allowed, ?_⟩
  rintro ⟨pages, -, hpages, -, -, hcovers⟩
  have hmem (swapId : Uuid) (h : swapId = 1 ∨ swapId = 2) :
      swapId ∈ (pages.flatMap Prod.snd).map SwapRecord.swapId := by
    rw [← List.count_pos_iff, hcovers swapId (stays h _)]
    exact Nat.one_pos
  have hfew : ((pages.flatMap Prod.snd).map SwapRecord.swapId).length ≤ 1 := by
    rw [List.length_map]
    exact few_rows hpages
  generalize (pages.flatMap Prod.snd).map SwapRecord.swapId = ids at hmem hfew
  rcases Nat.le_one_iff_eq_zero_or_eq_one.mp hfew with hnone | hone
  · rw [List.length_eq_zero_iff.mp hnone] at hmem
    exact List.not_mem_nil (hmem 1 (.inl rfl))
  · obtain ⟨only, rfl⟩ := List.length_eq_one_iff.mp hone
    have hfirst := List.mem_singleton.mp (hmem 1 (.inl rfl))
    have hsecond := List.mem_singleton.mp (hmem 2 (.inr rfl))
    exact absurd (hfirst.trans hsecond.symm) (by decide)

/-- A swap that has its time changes state between two pages. -/
def datedWrites : ℕ → StoreWrite
  | 0 => .put { dated with state := .lockupConfirmed } none 100
  | _ => .still

/-- The records of a provider of one swap. -/
def datedStore : ProviderStore := Function.update (fun _ => none) 2 (some dated)

/-- The listing of that swap. -/
def datedListing : ListingSession where
  sender := "owner"
  limit := fun _ => some 1
  loads := fun n => if n = 0 then [dated] else [{ dated with state := .lockupConfirmed }]

theorem loaded_single {record : SwapRecord} {store : ProviderStore}
    (h : store = Function.update (fun _ => none) record.swapId (some record)) :
    Loaded store [record] := by
  refine ⟨List.nodup_singleton _, fun other => ?_⟩
  rw [h, List.mem_singleton, Function.update_apply]
  constructor
  · rintro rfl
    rw [if_pos rfl]
  · intro hother
    split at hother
    · exact (Option.some.inj hother).symm
    · cases hother

theorem storeAt_datedWrites (n : ℕ) : storeAt datedStore datedWrites (n + 1) =
    Function.update (fun _ => none) 2 (some { dated with state := .lockupConfirmed }) := by
  induction n with
  | zero => exact Function.update_idem _ _ _
  | succ n ih => exact ih

theorem datedTimes (n : ℕ) : (datedWrites n).FindsTime (storeAt datedStore datedWrites n) := by
  cases n with
  | zero =>
      rintro old hold
      have hdated : datedStore 2 = some dated := Function.update_self ..
      cases hdated.symm.trans hold
      exact ⟨by decide, .inl (by decide)⟩
  | succ n => trivial

theorem datedAllowed (n : ℕ) : (datedWrites n).Allowed (storeAt datedStore datedWrites n) := by
  cases n with
  | zero =>
      refine ⟨.inl rfl, fun old hold => .inr ?_⟩
      have hdated : datedStore 2 = some dated := Function.update_self ..
      cases hdated.symm.trans hold
      rfl
  | succ n => trivial

theorem datedLoaded (n : ℕ) : Loaded (storeAt datedStore datedWrites n) (datedListing.loads n) := by
  cases n with
  | zero => exact loaded_single rfl
  | succ n => exact loaded_single (storeAt_datedWrites n)

theorem datedTyped (n : ℕ) : ∀ record ∈ datedListing.loads n,
    record.createdAtUnix < 2 ^ 64 ∧ record.swapId < 2 ^ 128 := by
  cases n with
  | zero => decide
  | succ n =>
      show ∀ record ∈ [{ dated with state := .lockupConfirmed }],
        record.createdAtUnix < 2 ^ 64 ∧ record.swapId < 2 ^ 128
      decide

theorem covers_dated :
    datedListing.CoversOnce (StaysListable datedStore datedWrites id datedListing) :=
  (listing_covers datedStore datedWrites id datedListing monotone_id datedLoaded datedTyped
    datedAllowed datedTimes).1

end RestampedSwap

end PubkySwap
