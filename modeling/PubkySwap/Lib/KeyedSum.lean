import Mathlib

/-!
# Sums over the entries of a finite map

A ledger keeps a map from keys to what each key holds, together with running
totals.  `AList.sumBy f m` is the total the map itself determines: the sum of
`f key value` over its entries.  The three laws below say how inserting a new
key, dropping a key and leaving a key alone move that total, which is all an
invariant of the form "the running total equals the sum over the map" needs.

Counting is the special case `f = 1`, and the share of one owner is the case
where `f` vanishes on everybody else's entries.
-/

universe u v

namespace AList

variable {K : Type u} {V : Type v}

/-- The sum of `f` over the entries of a finite map. -/
def sumBy (f : K → V → ℕ) (m : AList fun _ : K => V) : ℕ :=
  (m.entries.map fun e => f e.1 e.2).sum

@[simp] theorem sumBy_empty (f : K → V → ℕ) : sumBy f (∅ : AList fun _ : K => V) = 0 := rfl

/-- Pointwise smaller weights have a smaller sum. -/
theorem sumBy_le_sumBy {f g : K → V → ℕ} (m : AList fun _ : K => V)
    (h : ∀ k v, f k v ≤ g k v) : sumBy f m ≤ sumBy g m :=
  List.sum_le_sum fun e _ => h e.1 e.2

variable [DecidableEq K]

theorem sumBy_insert_of_notMem (f : K → V → ℕ) {m : AList fun _ : K => V} {k : K}
    (h : k ∉ m) (v : V) : sumBy f (m.insert k v) = f k v + sumBy f m := by
  rw [sumBy, entries_insert_of_notMem h]
  rfl

/-- The entries of a map are the entry of a key it holds and the rest. -/
theorem entries_perm_cons_erase {m : AList fun _ : K => V} {k : K} {v : V}
    (h : m.lookup k = some v) : m.entries.Perm (⟨k, v⟩ :: (m.erase k).entries) := by
  have hmem : k ∈ m.entries.keys := by
    rw [← AList.keys, ← AList.mem_keys, ← AList.lookup_isSome, h]
    rfl
  obtain ⟨w, l₁, l₂, hnot, hsplit, herase⟩ := List.exists_of_kerase hmem
  have hw : w = v := by
    have hlook : m.entries.dlookup k = some w := by
      rw [hsplit]
      exact List.mem_dlookup (hsplit ▸ m.nodupKeys) (by simp)
    exact Option.some.inj (hlook.symm.trans h)
  subst hw
  show m.entries.Perm (⟨k, w⟩ :: m.entries.kerase k)
  rw [herase]
  conv_lhs => rw [hsplit]
  exact List.perm_middle

/-- Dropping a key takes exactly its own share out of the sum. -/
theorem sumBy_eq_add_erase (f : K → V → ℕ) {m : AList fun _ : K => V} {k : K} {v : V}
    (h : m.lookup k = some v) : sumBy f m = f k v + sumBy f (m.erase k) := by
  have hperm := (entries_perm_cons_erase h).map fun e => f e.1 e.2
  simpa [sumBy] using hperm.sum_eq

theorem sumBy_insert (f : K → V → ℕ) (m : AList fun _ : K => V) (k : K) (v : V) :
    sumBy f (m.insert k v) = f k v + sumBy f (m.erase k) := rfl

/-- A map is the share of a key, which may be a default that weighs nothing, and the rest. -/
theorem sumBy_eq_getD_add_erase (f : K → V → ℕ) (m : AList fun _ : K => V) (k : K) {v : V}
    (h : f k v = 0) : sumBy f m = f k ((m.lookup k).getD v) + sumBy f (m.erase k) := by
  cases hlook : m.lookup k with
  | some held => exact sumBy_eq_add_erase f hlook
  | none =>
      have hnot : k ∉ m := by
        rw [← AList.lookup_isSome, hlook]
        exact Bool.false_ne_true
      have herase : m.erase k = m := AList.ext (List.kerase_of_notMem_keys hnot)
      rw [herase, Option.getD_none, h, Nat.zero_add]

end AList
