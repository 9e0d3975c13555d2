import Mathlib

/-!
# Recency lists

What was noted last, in order: noting an item moves it to the front of the list.
`recent notes` lists the distinct items of a history, the most recently noted one first, so
its first `k` items are the `k` most recent ones.

Noting an item pushes the others back by at most one place (`mem_take_of_mem_take_erase`),
and only if it was not among those in front (`mem_take_or_of_mem_take_erase`).
-/

namespace Recency

variable {α : Type} [DecidableEq α]

/-- Note an item: it becomes the most recent one. -/
def note (items : List α) (a : α) : List α := a :: items.erase a

/-- The items of a history, the most recently noted one first. -/
def recent (notes : List α) : List α := notes.foldl note []

@[simp] theorem recent_nil : recent ([] : List α) = [] := rfl

@[simp] theorem recent_concat (notes : List α) (a : α) :
    recent (notes ++ [a]) = note (recent notes) a := by
  rw [recent, List.foldl_append]
  rfl

/-! ## The first few -/

/-- An item in front of the list stays in front when another leaves it. -/
theorem mem_take_erase {a b : α} (hne : b ≠ a) :
    ∀ {items : List α} {k : ℕ}, b ∈ items.take k → b ∈ (items.erase a).take k := by
  intro items
  induction items with
  | nil => exact fun h => h
  | cons x items ih =>
      intro k h
      cases k with
      | zero => cases h
      | succ k =>
          rw [List.take_succ_cons] at h
          by_cases hx : x = a
          · subst hx
            rw [List.erase_cons_head]
            rcases List.mem_cons.mp h with rfl | h
            · exact absurd rfl hne
            · exact List.take_subset_take_left _ (Nat.le_succ k) h
          · rw [List.erase_cons_tail (by simpa using hx), List.take_succ_cons]
            rcases List.mem_cons.mp h with rfl | h
            · exact List.mem_cons_self
            · exact List.mem_cons_of_mem _ (ih h)

/-- An item that is in front once another has left was behind by one place at most. -/
theorem mem_take_of_mem_take_erase {a b : α} :
    ∀ {items : List α} {k : ℕ}, b ∈ (items.erase a).take k → b ∈ items.take (k + 1) := by
  intro items
  induction items with
  | nil => exact fun h => absurd h (by simp)
  | cons x items ih =>
      intro k h
      rw [List.take_succ_cons]
      by_cases hx : x = a
      · subst hx
        rw [List.erase_cons_head] at h
        exact List.mem_cons_of_mem _ h
      · rw [List.erase_cons_tail (by simpa using hx)] at h
        cases k with
        | zero => cases h
        | succ k =>
            rw [List.take_succ_cons] at h
            rcases List.mem_cons.mp h with rfl | h
            · exact List.mem_cons_self
            · exact List.mem_cons_of_mem _ (ih h)

/-- It was behind only if the other was in front. -/
theorem mem_take_or_of_mem_take_erase {a b : α} :
    ∀ {items : List α} {k : ℕ}, b ∈ (items.erase a).take k →
      b ∈ items.take k ∨ a ∈ items.take k := by
  intro items
  induction items with
  | nil => exact fun h => absurd h (by simp)
  | cons x items ih =>
      intro k h
      cases k with
      | zero => cases h
      | succ k =>
          rw [List.take_succ_cons]
          by_cases hx : x = a
          · exact .inr (hx ▸ List.mem_cons_self)
          · rw [List.erase_cons_tail (by simpa using hx), List.take_succ_cons] at h
            rcases List.mem_cons.mp h with rfl | h
            · exact .inl List.mem_cons_self
            · exact (ih h).imp (List.mem_cons_of_mem _) (List.mem_cons_of_mem _)

end Recency
