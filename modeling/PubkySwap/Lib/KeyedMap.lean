import Mathlib

/-!
# Finite maps as programs use them

What the maps of a standard library do and an association list does not name: keep the
entries that satisfy a condition (`retain`), count entries (`size`), collect a list of
pairs with later ones winning (`collect`), and drop the entry of the lowest key
(`removeLowest`).  Each comes with what a lookup finds afterwards.
-/

universe u v

namespace AList

variable {K : Type u} {V : Type v}

/-- `retain`: the entries that satisfy a condition. -/
def retain (p : K → V → Bool) (m : AList fun _ : K => V) : AList fun _ : K => V where
  entries := m.entries.filter fun e => p e.1 e.2
  nodupKeys := m.nodupKeys.sublist List.filter_sublist

/-- How many entries there are. -/
def size (m : AList fun _ : K => V) : ℕ := m.entries.length

/-- A filtered map is no larger. -/
theorem size_retain_le (p : K → V → Bool) (m : AList fun _ : K => V) :
    (m.retain p).size ≤ m.size :=
  List.length_filter_le _ _

/-- The keys of a map are as many as its entries. -/
theorem length_keys (m : AList fun _ : K => V) : m.keys.length = m.size :=
  List.length_map _

variable [DecidableEq K]

/-- A lookup that succeeds is an entry. -/
theorem lookup_eq_some_iff {m : AList fun _ : K => V} {k : K} {v : V} :
    m.lookup k = some v ↔ (⟨k, v⟩ : Sigma fun _ : K => V) ∈ m.entries :=
  mem_lookup_iff

/-- A filtered map has the entries that pass the filter. -/
theorem lookup_retain {p : K → V → Bool} {m : AList fun _ : K => V} {k : K} {v : V} :
    (m.retain p).lookup k = some v ↔ m.lookup k = some v ∧ p k v = true := by
  rw [lookup_eq_some_iff, lookup_eq_some_iff, retain, List.mem_filter]

/-- A key is in the map exactly when a lookup of it succeeds. -/
theorem mem_iff_lookup {m : AList fun _ : K => V} {k : K} :
    k ∈ m ↔ ∃ v, m.lookup k = some v := by
  rw [← lookup_isSome, Option.isSome_iff_exists]

/-- A key that a lookup finds is in the map. -/
theorem mem_of_lookup {m : AList fun _ : K => V} {k : K} {v : V} (h : m.lookup k = some v) :
    k ∈ m :=
  mem_iff_lookup.mpr ⟨v, h⟩

/-- A key of the filtered map is one of the map. -/
theorem mem_of_mem_retain {p : K → V → Bool} {m : AList fun _ : K => V} {k : K}
    (h : k ∈ m.retain p) : k ∈ m := by
  obtain ⟨v, hv⟩ := mem_iff_lookup.mp h
  exact mem_of_lookup (lookup_retain.mp hv).1

/-- What is left after one key is erased. -/
theorem lookup_erase_eq_some {m : AList fun _ : K => V} {k k' : K} {v : V} :
    (m.erase k).lookup k' = some v ↔ k' ≠ k ∧ m.lookup k' = some v := by
  by_cases h : k' = k
  · subst h
    rw [lookup_erase]
    exact iff_of_false nofun fun h => h.1 rfl
  · rw [lookup_erase_ne h, and_iff_right h]

/-- What a map has after an insertion: the new value at its key, and the old ones
elsewhere. -/
theorem lookup_insert_eq_some {m : AList fun _ : K => V} {k k' : K} {v v' : V} :
    (m.insert k v).lookup k' = some v' ↔
      (k' = k ∧ v = v') ∨ (k' ≠ k ∧ m.lookup k' = some v') := by
  by_cases h : k' = k
  · subst h
    rw [lookup_insert, Option.some.injEq]
    simp
  · rw [lookup_insert_ne h]
    simp [h]

/-- An insertion adds one entry at most. -/
theorem size_insert_le (m : AList fun _ : K => V) (k : K) (v : V) :
    (m.insert k v).size ≤ m.size + 1 := by
  rw [← length_keys, ← length_keys, keys_insert, List.length_cons]
  exact Nat.add_le_add_right (List.length_erase_le ..) 1

/-- Erasing a key of the map takes one entry away. -/
theorem size_erase_of_mem {m : AList fun _ : K => V} {k : K} (h : k ∈ m) :
    (m.erase k).size = m.size - 1 := by
  rw [← length_keys, ← length_keys, keys_erase, List.length_erase_of_mem (mem_keys.mp h)]

/-! ## Collecting -/

/-- `collect`: the pairs of a list, a later one replacing an earlier one of its key. -/
def collect (pairs : List (K × V)) : AList fun _ : K => V :=
  pairs.foldl (fun m pair => m.insert pair.1 pair.2) ∅

/-- Collecting one pair more inserts it last. -/
theorem collect_append (pairs : List (K × V)) (k : K) (v : V) :
    collect (pairs ++ [(k, v)]) = (collect pairs).insert k v := by
  rw [collect, List.foldl_append]
  rfl

/-- What is collected came from the list. -/
theorem mem_of_lookup_collect {pairs : List (K × V)} {k : K} {v : V}
    (h : (collect pairs).lookup k = some v) : (k, v) ∈ pairs := by
  induction pairs using List.reverseRecOn with
  | nil => exact absurd h nofun
  | append_singleton pairs pair ih =>
      rw [collect_append, lookup_insert_eq_some] at h
      rcases h with ⟨rfl, rfl⟩ | ⟨-, h⟩
      · exact List.mem_append_right _ (List.mem_singleton.mpr rfl)
      · exact List.mem_append_left _ (ih h)

/-- Everything listed under a key of its own is found. -/
theorem lookup_collect {pairs : List (K × V)} (hnodup : (pairs.map Prod.fst).Nodup) {k : K}
    {v : V} (h : (k, v) ∈ pairs) : (collect pairs).lookup k = some v := by
  induction pairs using List.reverseRecOn with
  | nil => exact absurd h List.not_mem_nil
  | append_singleton pairs pair ih =>
      rw [List.map_append, List.nodup_append'] at hnodup
      obtain ⟨hpairs, -, hapart⟩ := hnodup
      rw [collect_append, lookup_insert_eq_some]
      rcases List.mem_append.mp h with h | h
      · refine .inr ⟨fun heq => ?_, ih hpairs h⟩
        exact hapart (List.mem_map_of_mem h) (by simp [heq])
      · obtain rfl := List.mem_singleton.mp h
        exact .inl ⟨rfl, rfl⟩

end AList

/-! ## Trimming from below -/

namespace AList

variable {V : Type v}

/-- Distinct keys that are all held are at most as many as there are entries. -/
theorem card_le_size {top : Finset ℕ} {m : AList fun _ : ℕ => V} (hheld : ∀ k ∈ top, k ∈ m) :
    top.card ≤ m.size := by
  rw [← length_keys, ← List.toFinset_card_of_nodup m.keys_nodup]
  exact Finset.card_le_card fun k hk => List.mem_toFinset.mpr (mem_keys.mp (hheld k hk))

/-- Drop the entry of the lowest key. -/
def removeLowest (m : AList fun _ : ℕ => V) : AList fun _ : ℕ => V :=
  match m.keys.min? with
  | some lowest => m.erase lowest
  | none => m

/-- Drop the lowest entries, so many of them. -/
def trim : ℕ → (AList fun _ : ℕ => V) → AList fun _ : ℕ => V
  | 0, m => m
  | excess + 1, m => trim excess m.removeLowest

/-- What is left after the lowest key is removed was there before. -/
theorem lookup_of_lookup_removeLowest {m : AList fun _ : ℕ => V} {k : ℕ} {v : V}
    (h : m.removeLowest.lookup k = some v) : m.lookup k = some v := by
  unfold removeLowest at h
  split at h
  · exact (lookup_erase_eq_some.mp h).2
  · exact h

/-- What is left after any number of lowest keys are removed was there before. -/
theorem lookup_of_lookup_trim {excess : ℕ} {m : AList fun _ : ℕ => V} {k : ℕ} {v : V}
    (h : (trim excess m).lookup k = some v) : m.lookup k = some v := by
  induction excess generalizing m with
  | zero => exact h
  | succ excess ih => exact lookup_of_lookup_removeLowest (ih h)

/-- **Trimming keeps the top**: keys above all others stay, if there are not too many. -/
theorem lookup_trim (top : Finset ℕ) {excess : ℕ} {m : AList fun _ : ℕ => V}
    (hheld : ∀ k ∈ top, k ∈ m) (habove : ∀ k ∈ top, ∀ low ∈ m, low ∉ top → low < k)
    (hfits : top.card + excess ≤ m.size) {k : ℕ} (hk : k ∈ top) :
    (trim excess m).lookup k = m.lookup k := by
  induction excess generalizing m with
  | zero => rfl
  | succ excess ih =>
      -- some key is not at the top, so the lowest one is not
      have hother : ∃ low ∈ m, low ∉ top := by
        by_contra hall
        have hsub : m.keys.toFinset ⊆ top := fun low hlow => by
          by_contra hnot
          exact hall ⟨low, mem_keys.mpr (List.mem_toFinset.mp hlow), hnot⟩
        have hcard := Finset.card_le_card hsub
        rw [List.toFinset_card_of_nodup m.keys_nodup, length_keys] at hcard
        omega
      obtain ⟨other, hother, hnot⟩ := hother
      have hother' : other ∈ m.keys := mem_keys.mp hother
      cases hmin : m.keys.min? with
      | none =>
          rw [List.min?_eq_none_iff.mp hmin] at hother'
          exact absurd hother' List.not_mem_nil
      | some lowest =>
          obtain ⟨hlowest, hleast⟩ := List.min?_eq_some_iff.mp hmin
          have hremoved : m.removeLowest = m.erase lowest := by
            rw [removeLowest, hmin]
          have hout : lowest ∉ top := fun hin =>
            absurd (habove lowest hin other hother hnot) (not_lt.mpr (hleast other hother'))
          have hmem : lowest ∈ m := mem_keys.mpr hlowest
          rw [trim, hremoved, ih]
          · exact lookup_erase_ne fun heq => hout (heq ▸ hk)
          · exact fun k hk => mem_erase.mpr ⟨fun heq => hout (heq ▸ hk), hheld k hk⟩
          · exact fun k hk low hlow => habove k hk low (mem_erase.mp hlow).2
          · rw [size_erase_of_mem hmem]
            omega

end AList
