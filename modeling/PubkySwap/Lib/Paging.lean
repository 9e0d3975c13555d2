import Mathlib

/-!
# Paging through rows that change

A listing is read page by page.  The rows are held sorted by a key; a page begins after the
key that the page before ended with, takes as many rows as its limit says and names the key
it ends with, if there are more.  Between two pages the rows may become others: rows go,
come and change, as long as they are sorted by their keys.

A session is the sequence of its pages.  Its rows come in the order of their keys
(`pairwise_listed`), and once it is over a row that was there all along has been listed
(`mem_listed`).  With keys of a bounded rank it is over at some point
(`exists_cursor_eq_none`).
-/

namespace Paging

variable {α κ : Type} [LinearOrder κ] (key : α → κ)

/-! ## A page -/

/-- The position after a key. -/
def start (rows : List α) : Option κ → ℕ
  | none => 0
  | some after => rows.findIdx fun row => after < key row

/-- The rows of the page after a key. -/
def page (rows : List α) (after : Option κ) (limit : ℕ) : List α :=
  (rows.drop (start key rows after)).take limit

/-- The key the page ends with, if there are more rows. -/
def next (rows : List α) (after : Option κ) (limit : ℕ) : Option κ :=
  let taken := page key rows after limit
  if start key rows after + taken.length < rows.length then taken.getLast?.map key else none

/-- Sorted by keys that are all different. -/
def Sorted (rows : List α) : Prop := rows.Pairwise fun row row' => key row < key row'

variable {key} {rows : List α} {after : Option κ} {limit : ℕ}

/-- After a key come the rows with greater ones. -/
theorem drop_start (h : Sorted key rows) (after : Option κ) :
    rows.drop (start key rows after) =
      rows.filter fun row => decide (∀ bound ∈ after, bound < key row) := by
  cases after with
  | none => exact (List.filter_eq_self.mpr fun _ _ => decide_eq_true nofun).symm
  | some bound =>
      simp only [start, Option.mem_some_iff, forall_eq']
      induction rows with
      | nil => rfl
      | cons row rows ih =>
          obtain ⟨hfirst, hrest⟩ := List.pairwise_cons.mp h
          rw [List.findIdx_cons]
          by_cases hrow : bound < key row
          · have hall : ∀ row' ∈ rows, bound < key row' := fun row' hmem =>
              hrow.trans (hfirst row' hmem)
            simp only [hrow, decide_true, cond_true, List.drop_zero, List.filter_cons_of_pos]
            rw [List.filter_eq_self.mpr fun row' hmem => decide_eq_true (hall row' hmem)]
          · simp only [hrow, decide_false, cond_false, List.drop_succ_cons]
            rw [List.filter_cons_of_neg (by simpa using hrow)]
            exact ih hrest

/-- A page lists rows of its time, after its key. -/
theorem mem_page (h : Sorted key rows) {row : α} (hrow : row ∈ page key rows after limit) :
    row ∈ rows ∧ ∀ bound ∈ after, bound < key row := by
  have hdrop := List.mem_of_mem_take hrow
  rw [drop_start h, List.mem_filter, decide_eq_true_iff] at hdrop
  exact hdrop

theorem pairwise_page (h : Sorted key rows) : Sorted key (page key rows after limit) :=
  h.sublist ((List.take_sublist _ _).trans (List.drop_sublist _ _))

/-- The next page begins with a key of this one, and after all of it. -/
theorem le_of_next (h : Sorted key rows) {bound : κ}
    (hnext : next key rows after limit = some bound) :
    (∃ row ∈ page key rows after limit, key row = bound) ∧
      ∀ row ∈ page key rows after limit, key row ≤ bound := by
  unfold next at hnext
  dsimp only at hnext
  split at hnext
  · obtain ⟨last, hlast, rfl⟩ := Option.map_eq_some_iff.mp hnext
    obtain ⟨earlier, heq⟩ := List.getLast?_eq_some_iff.mp hlast
    have hsorted : Sorted key (page key rows after limit) := pairwise_page h
    rw [heq] at hsorted ⊢
    refine ⟨⟨last, List.mem_append_right _ (List.mem_singleton_self _), rfl⟩, fun row hrow => ?_⟩
    rcases List.mem_append.mp hrow with hrow | hrow
    · exact ((List.pairwise_append.mp hsorted).2.2 row hrow last (List.mem_singleton_self _)).le
    · rw [List.mem_singleton.mp hrow]
  · cases hnext

/-- **A row after the key is on the page or after it**, and a page without a next one has
all there are. -/
theorem mem_page_or_lt (h : Sorted key rows) (hlimit : 0 < limit) {row : α} (hrow : row ∈ rows)
    (hafter : ∀ bound ∈ after, bound < key row) :
    row ∈ page key rows after limit ∨
      ∃ bound, next key rows after limit = some bound ∧ bound < key row := by
  have hdrop : row ∈ rows.drop (start key rows after) := by
    rw [drop_start h, List.mem_filter, decide_eq_true_iff]
    exact ⟨hrow, hafter⟩
  rw [← List.take_append_drop limit (rows.drop (start key rows after))] at hdrop
  rcases List.mem_append.mp hdrop with htaken | hleft
  · exact .inl htaken
  · right
    have hsorted : Sorted key (rows.drop (start key rows after)) :=
      h.sublist (List.drop_sublist _ _)
    rw [← List.take_append_drop limit (rows.drop (start key rows after))] at hsorted
    have hbelow := (List.pairwise_append.mp hsorted).2.2
    have hlong : limit < (rows.drop (start key rows after)).length := by
      have hpos := List.length_pos_of_mem hleft
      rw [List.length_drop] at hpos
      omega
    have hlength : (page key rows after limit).length = limit := by
      rw [page, List.length_take, min_eq_left hlong.le]
    rw [List.length_drop] at hlong
    have hne : page key rows after limit ≠ [] := by
      intro hnil
      rw [hnil, List.length_nil] at hlength
      omega
    refine ⟨key ((page key rows after limit).getLast hne), ?_, ?_⟩
    · unfold next
      dsimp only
      rw [hlength, if_pos (by omega), List.getLast?_eq_some_getLast hne, Option.map_some]
    · exact hbelow _ (List.getLast_mem hne) row hleft

/-! ## A session -/

section

variable (key) (rows : ℕ → List α) (limit : ℕ → ℕ)

/-- What the page with this number begins after; `none` once the session is over. -/
def cursor : ℕ → Option (Option κ)
  | 0 => some none
  | n + 1 => (cursor n).bind fun after => (next key (rows n) after (limit n)).map some

/-- The rows of the page with this number. -/
def pageAt (n : ℕ) : List α :=
  (cursor key rows limit n).elim [] fun after => page key (rows n) after (limit n)

/-- The rows of the pages so far. -/
def listed (n : ℕ) : List α := (List.range n).flatMap (pageAt key rows limit)

end

variable {rows : ℕ → List α} {limit : ℕ → ℕ}

theorem listed_succ (n : ℕ) :
    listed key rows limit (n + 1) = listed key rows limit n ++ pageAt key rows limit n := by
  rw [listed, List.range_succ, List.flatMap_append, List.flatMap_singleton, ← listed]

theorem cursor_succ_eq_some {n : ℕ} {after : Option κ}
    (h : cursor key rows limit (n + 1) = some after) :
    ∃ before bound, cursor key rows limit n = some before ∧
      next key (rows n) before (limit n) = some bound ∧ after = some bound := by
  rw [cursor, Option.bind_eq_some_iff] at h
  obtain ⟨before, hbefore, h⟩ := h
  obtain ⟨bound, hbound, rfl⟩ := Option.map_eq_some_iff.mp h
  exact ⟨before, bound, hbefore, hbound, rfl⟩

theorem pageAt_eq {n : ℕ} {after : Option κ} (h : cursor key rows limit n = some after) :
    pageAt key rows limit n = page key (rows n) after (limit n) := by
  rw [pageAt, h]
  rfl

/-- What has been listed comes before what follows. -/
theorem listed_le (hsorted : ∀ n, Sorted key (rows n)) :
    ∀ {n : ℕ} {after : Option κ}, cursor key rows limit n = some after →
      ∀ row ∈ listed key rows limit n, ∃ bound ∈ after, key row ≤ bound := by
  intro n
  induction n with
  | zero => exact fun _ row hrow => absurd hrow List.not_mem_nil
  | succ n ih =>
      intro after h row hrow
      obtain ⟨before, bound, hbefore, hnext, rfl⟩ := cursor_succ_eq_some h
      obtain ⟨⟨last, hlast, rfl⟩, hpage⟩ := le_of_next (hsorted n) hnext
      refine ⟨key last, rfl, ?_⟩
      rw [listed_succ, List.mem_append, pageAt_eq hbefore] at hrow
      rcases hrow with hrow | hrow
      · obtain ⟨bound', hbound', hle⟩ := ih hbefore row hrow
        exact hle.trans ((mem_page (hsorted n) hlast).2 bound' hbound').le
      · exact hpage row hrow

/-- **The order of a session**: the rows come sorted, each key once. -/
theorem pairwise_listed (hsorted : ∀ n, Sorted key (rows n)) (n : ℕ) :
    Sorted key (listed key rows limit n) := by
  induction n with
  | zero => exact List.Pairwise.nil
  | succ n ih =>
      rw [listed_succ]
      cases h : cursor key rows limit n with
      | none =>
          rw [pageAt, h]
          exact (List.append_nil _).symm ▸ ih
      | some after =>
          rw [pageAt_eq h]
          refine List.pairwise_append.mpr
            ⟨ih, pairwise_page (hsorted n), fun row hrow row' hrow' => ?_⟩
          obtain ⟨bound, hbound, hle⟩ := listed_le hsorted h row hrow
          exact hle.trans_lt ((mem_page (hsorted n) hrow').2 bound hbound)

/-- A row that is there all along has been listed, or is still to come. -/
theorem mem_listed_or_lt (hsorted : ∀ n, Sorted key (rows n)) (hlimit : ∀ n, 0 < limit n) {k : κ} :
    ∀ {n : ℕ} {after : Option κ}, (∀ m < n, ∃ row ∈ rows m, key row = k) →
      cursor key rows limit n = some after →
      (∃ row ∈ listed key rows limit n, key row = k) ∨ ∀ bound ∈ after, bound < k := by
  intro n
  induction n with
  | zero =>
      intro after _ h
      cases h
      exact .inr nofun
  | succ n ih =>
      intro after hstays h
      obtain ⟨before, bound, hbefore, hnext, rfl⟩ := cursor_succ_eq_some h
      rw [listed_succ, pageAt_eq hbefore]
      rcases ih (fun m hm => hstays m (Nat.lt_succ_of_lt hm)) hbefore with
        ⟨row, hrow, hkey⟩ | hcoming
      · exact .inl ⟨row, List.mem_append_left _ hrow, hkey⟩
      · obtain ⟨row, hrow, rfl⟩ := hstays n (Nat.lt_succ_self n)
        rcases mem_page_or_lt (hsorted n) (hlimit n) hrow hcoming with hpage | ⟨bound', hnext', hlt⟩
        · exact .inl ⟨row, List.mem_append_right _ hpage, rfl⟩
        · cases hnext.symm.trans hnext'
          exact .inr fun bound' hbound' => by cases hbound'; exact hlt

/-- **Nothing is left out**: once the session is over, a row that was there all along has
been listed. -/
theorem mem_listed (hsorted : ∀ n, Sorted key (rows n)) (hlimit : ∀ n, 0 < limit n) {k : κ} {n : ℕ}
    (hstays : ∀ m < n, ∃ row ∈ rows m, key row = k) (hover : cursor key rows limit n = none) :
    ∃ row ∈ listed key rows limit n, key row = k := by
  induction n with
  | zero => cases hover
  | succ n ih =>
      rw [listed_succ]
      cases hbefore : cursor key rows limit n with
      | none =>
          obtain ⟨row, hrow, hkey⟩ := ih (fun m hm => hstays m (Nat.lt_succ_of_lt hm)) hbefore
          exact ⟨row, List.mem_append_left _ hrow, hkey⟩
      | some before =>
          rw [pageAt_eq hbefore]
          rcases mem_listed_or_lt hsorted hlimit (fun m hm => hstays m (Nat.lt_succ_of_lt hm))
            hbefore with ⟨row, hrow, hkey⟩ | hcoming
          · exact ⟨row, List.mem_append_left _ hrow, hkey⟩
          · obtain ⟨row, hrow, rfl⟩ := hstays n (Nat.lt_succ_self n)
            rcases mem_page_or_lt (hsorted n) (hlimit n) hrow hcoming with hpage | ⟨bound, hnext, -⟩
            · exact ⟨row, List.mem_append_right _ hpage, rfl⟩
            · rw [cursor, hbefore, Option.bind_some, hnext] at hover
              cases hover

/-- A page lists rows of its time. -/
theorem pageAt_subset (hsorted : ∀ n, Sorted key (rows n)) (n : ℕ) :
    pageAt key rows limit n ⊆ rows n := by
  intro row hrow
  cases hcursor : cursor key rows limit n with
  | none =>
      rw [pageAt, hcursor] at hrow
      exact absurd hrow List.not_mem_nil
  | some after =>
      rw [pageAt_eq hcursor] at hrow
      exact (mem_page (hsorted n) hrow).1

/-- What has been listed was there at the time. -/
theorem of_mem_listed (hsorted : ∀ n, Sorted key (rows n)) {n : ℕ} {row : α}
    (h : row ∈ listed key rows limit n) : ∃ m < n, row ∈ rows m := by
  obtain ⟨m, hm, hrow⟩ := List.mem_flatMap.mp h
  exact ⟨m, List.mem_range.mp hm, pageAt_subset hsorted m hrow⟩

/-- **The session comes to an end**, if the keys of the rows have a bounded rank. -/
theorem exists_cursor_eq_none (hsorted : ∀ n, Sorted key (rows n)) {rank : κ → ℕ} {most : ℕ}
    (hrank : ∀ m n, ∀ row ∈ rows m, ∀ row' ∈ rows n, key row < key row' →
      rank (key row) < rank (key row'))
    (hmost : ∀ n, ∀ row ∈ rows n, rank (key row) < most) :
    cursor key rows limit (most + 1) = none := by
  have hclimb : ∀ n bound, cursor key rows limit (n + 1) = some (some bound) →
      n ≤ rank bound ∧ ∃ row ∈ rows n, key row = bound := by
    intro n
    induction n with
    | zero =>
        intro bound h
        obtain ⟨before, bound', hbefore, hnext, hbound⟩ := cursor_succ_eq_some h
        cases hbound
        obtain ⟨⟨last, hlast, rfl⟩, -⟩ := le_of_next (hsorted 0) hnext
        exact ⟨Nat.zero_le _, last, (mem_page (hsorted 0) hlast).1, rfl⟩
    | succ n ih =>
        intro bound h
        obtain ⟨before, bound', hbefore, hnext, hbound⟩ := cursor_succ_eq_some h
        cases hbound
        obtain ⟨before', earlier, -, -, rfl⟩ := cursor_succ_eq_some hbefore
        obtain ⟨⟨last, hlast, rfl⟩, -⟩ := le_of_next (hsorted (n + 1)) hnext
        obtain ⟨hrow, hafter⟩ := mem_page (hsorted (n + 1)) hlast
        obtain ⟨hle, row, hmem, rfl⟩ := ih earlier hbefore
        have hless := hrank n (n + 1) row hmem last hrow (hafter _ rfl)
        exact ⟨hle.trans_lt hless, last, hrow, rfl⟩
  by_contra hgoes
  obtain ⟨after, hafter⟩ := Option.ne_none_iff_exists'.mp hgoes
  obtain ⟨before, bound, -, -, rfl⟩ := cursor_succ_eq_some hafter
  obtain ⟨hle, row, hrow, rfl⟩ := hclimb most bound hafter
  exact absurd (hmost most row hrow) (not_lt.mpr hle)

end Paging
