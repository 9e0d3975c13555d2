import Mathlib

/-!
# Sliding-window limiters

A limiter remembers the instants of what it admitted, forgets those older than
a width, and admits while fewer than a maximum are remembered.  `Covers` is the
invariant such a limiter keeps, whatever it forgets and whenever it does so: the
memory holds every admission that is still recent, so no half-open window of the
width ever holds more admissions than the maximum.

The three rules are the three things a limiter does: let time pass, prune its
memory, and let it in.  Nothing depends on when the pruning happens, which is what a
limiter that prunes lazily needs.
-/

namespace SlidingWindow

/-- The instants less than `width` before `now`. -/
def recent (width now : ℕ) (instants : List ℕ) : List ℕ :=
  instants.filter fun t => now - t < width

/-- The instants in the half-open window of `width` that opens at `start`. -/
def within (width start : ℕ) (instants : List ℕ) : List ℕ :=
  instants.filter fun t => start ≤ t ∧ t < start + width

/-- **The limiter's invariant** at `now`: what it kept covers everything
admitted recently, and no window has been overfilled. -/
structure Covers (width max : ℕ) (admitted kept : List ℕ) (now : ℕ) : Prop where
  kept_le : kept.length ≤ max
  remembers : (recent width now admitted).Sublist kept
  within_le : ∀ start, (within width start admitted).length ≤ max

variable {width max now now' : ℕ} {admitted kept : List ℕ}

theorem covers_nil : Covers width max [] [] now where
  kept_le := Nat.zero_le _
  remembers := List.Sublist.refl _
  within_le _ := Nat.zero_le _

/-- What is recent later was recent before. -/
theorem recent_sublist_recent (hnow : now ≤ now') (instants : List ℕ) :
    (recent width now' instants).Sublist (recent width now instants) := by
  apply List.monotone_filter_right
  intro t ht
  simp only [decide_eq_true_eq] at ht ⊢
  omega

theorem recent_recent (hnow : now ≤ now') (instants : List ℕ) :
    recent width now' (recent width now instants) = recent width now' instants := by
  unfold recent
  rw [List.filter_filter]
  apply List.filter_congr
  intro t _
  simp only [Bool.and_eq_decide, decide_eq_true_eq]
  exact decide_eq_decide.mpr ⟨fun h => h.1, fun h => ⟨h, by omega⟩⟩

/-- Time passing only makes admissions old. -/
theorem Covers.wait (h : Covers width max admitted kept now) (hnow : now ≤ now') :
    Covers width max admitted kept now' where
  kept_le := h.kept_le
  remembers := (recent_sublist_recent hnow admitted).trans h.remembers
  within_le := h.within_le

/-- Pruning forgets only what is no longer recent. -/
theorem Covers.prune (h : Covers width max admitted kept now) (hnow : now ≤ now') :
    Covers width max admitted (recent width now' kept) now' where
  kept_le := (List.filter_sublist.length_le).trans h.kept_le
  remembers := by
    rw [← recent_recent hnow]
    exact h.remembers.filter _
  within_le := h.within_le

/-- A window still open at `now` holds only instants that are recent at `now`, or
later ones. -/
theorem within_sublist_recent {start : ℕ} (hshut : now < start + width)
    (instants : List ℕ) :
    (within width start instants).Sublist (recent width now instants) := by
  apply List.monotone_filter_right
  intro t ht
  simp only [decide_eq_true_eq] at ht ⊢
  omega

/-- **An admission that found room overfills no window.**  The windows that
contain it hold nothing the memory has forgotten. -/
theorem Covers.accept (h : Covers width max admitted kept now) (hnow : now ≤ now')
    (hroom : (recent width now' kept).length < max) :
    Covers width max (admitted ++ [now']) (recent width now' kept ++ [now']) now' where
  kept_le := by
    rw [List.length_append, List.length_singleton]
    exact hroom
  remembers := by
    unfold recent
    rw [List.filter_append]
    exact (h.prune hnow).remembers.append List.filter_sublist
  within_le start := by
    unfold within
    rw [List.filter_append, List.length_append]
    by_cases hin : start ≤ now' ∧ now' < start + width
    · have hrecent := ((within_sublist_recent hin.2 admitted).trans
        (h.prune hnow).remembers).length_le
      have hone : ([now'].filter fun t => decide (start ≤ t ∧ t < start + width)).length ≤ 1 :=
        List.filter_sublist.length_le
      unfold within at hrecent
      omega
    · rw [List.filter_cons_of_neg (by simpa using hin), List.filter_nil]
      exact h.within_le start

end SlidingWindow
