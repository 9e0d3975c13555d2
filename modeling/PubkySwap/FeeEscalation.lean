import PubkySwap.FeeBump

/-!
# The escalation of a fee

A replacement has to pay more than what it replaces, and a spend that races a deadline has
to pay more the closer the deadline is.  `deadlineFeeRateOf` is the rate the fee-bump loop
asks for next, over any estimator; here it is iterated as that loop does, from the rate of
the first broadcast on, with an estimator and a tip of its own for every step.

The rates climb from the floor to the ceiling, strictly until they are there
(`fee_escalation`).  `Escalated` is what a rate of such a sequence is to a configuration: the
rate of the first broadcast, or a step on from another.
-/

namespace PubkySwap

/-! ## One step -/

/-- `deadline_fee_rate`, over any estimator. -/
def deadlineFeeRateOf (tip : ℕ) (deadlineHeight : Option ℕ) (previous : ℕ)
    (estimateFor : ℕ → Option ℕ) (floorSatVb capSatVb : ℕ) : ℕ :=
  let cap := max capSatVb floorSatVb
  let remaining := remainingBlocks tip deadlineHeight
  if remaining ≤ 2 then cap
  else
    let estimated := (estimateFor (targetForRemaining remaining)).getD 0
    min (max estimated (minBump previous floorSatVb)) cap

/-- What the loop asks the chain for is the rate over an estimator that answers as the
chain does. -/
theorem deadlineFeeRate_eq (tip : ℕ) (deadlineHeight : Option ℕ) (previous floor cap : ℕ) :
    deadlineFeeRate tip deadlineHeight previous floor cap =
      if remainingBlocks tip deadlineHeight ≤ 2 then
        .pure (deadlineFeeRateOf tip deadlineHeight previous (fun _ => none) floor cap)
      else
        estimate (targetForRemaining (remainingBlocks tip deadlineHeight)) >>= fun estimated =>
          .pure (deadlineFeeRateOf tip deadlineHeight previous (fun _ => estimated) floor cap) := by
  unfold deadlineFeeRate deadlineFeeRateOf
  dsimp only
  split
  · rfl
  · rfl

section

variable {tip tip' previous floor cap : ℕ} {deadline : Option ℕ} {estimateFor : ℕ → Option ℕ}

theorem le_resolveFeeRate (estimate : Option ℕ) (floor cap : ℕ) :
    floor ≤ resolveFeeRate estimate floor cap :=
  le_min (le_max_right _ _) (le_max_right _ _)

theorem resolveFeeRate_le (estimate : Option ℕ) (floor cap : ℕ) :
    resolveFeeRate estimate floor cap ≤ max cap floor :=
  min_le_right _ _

theorem deadlineFeeRateOf_le :
    deadlineFeeRateOf tip deadline previous estimateFor floor cap ≤ max cap floor := by
  unfold deadlineFeeRateOf
  dsimp only
  split
  · exact le_refl _
  · exact min_le_right _ _

theorem le_deadlineFeeRateOf :
    floor ≤ deadlineFeeRateOf tip deadline previous estimateFor floor cap := by
  unfold deadlineFeeRateOf
  dsimp only
  split
  · exact le_max_right _ _
  · have hbump : floor ≤ minBump previous floor := le_max_right _ _
    exact le_min (hbump.trans (le_max_right _ _)) (le_max_right _ _)

/-- A quarter and one more is more, unless the word is full. -/
theorem lt_minBump (floor : ℕ) (h : previous < Word.maxValue 64) :
    previous < minBump previous floor := by
  have hquarter : previous ≤ Word.saturatingAdd 64 previous (previous / 4) :=
    le_min (Nat.le_add_right _ _) h.le
  have hone : previous < Word.saturatingAdd 64 (Word.saturatingAdd 64 previous (previous / 4)) 1 :=
    lt_min (Nat.lt_succ_of_le hquarter) h
  exact hone.trans_le (le_max_left _ _)

theorem le_minBump (h : previous ≤ Word.maxValue 64) : previous ≤ minBump previous floor := by
  rcases h.lt_or_eq with hlt | rfl
  · exact (lt_minBump floor hlt).le
  · have hquarter : Word.maxValue 64 ≤ Word.saturatingAdd 64 (Word.maxValue 64)
        (Word.maxValue 64 / 4) := le_min (Nat.le_add_right _ _) (le_refl _)
    exact (le_min (hquarter.trans (Nat.le_add_right _ _)) (le_refl _)).trans (le_max_left _ _)

/-- **A step climbs**, unless the ceiling has been reached. -/
theorem lt_deadlineFeeRateOf (hcap : max cap floor ≤ Word.maxValue 64)
    (h : previous < max cap floor) :
    previous < deadlineFeeRateOf tip deadline previous estimateFor floor cap := by
  unfold deadlineFeeRateOf
  dsimp only
  split
  · exact h
  · have hbump := lt_minBump floor (h.trans_le hcap)
    exact lt_min (hbump.trans_le (le_max_right _ _)) h

/-- At the ceiling it stays. -/
theorem deadlineFeeRateOf_ceiling (hcap : max cap floor ≤ Word.maxValue 64) :
    deadlineFeeRateOf tip deadline (max cap floor) estimateFor floor cap = max cap floor := by
  unfold deadlineFeeRateOf
  dsimp only
  split
  · rfl
  · exact min_eq_right ((le_minBump hcap).trans (le_max_right _ _))

/-- Fewer blocks, a tighter target. -/
theorem targetForRemaining_mono : Monotone targetForRemaining := by
  intro a b hab
  unfold targetForRemaining
  split_ifs <;> omega

theorem remainingBlocks_anti (deadline : Option ℕ) (h : tip ≤ tip') :
    remainingBlocks tip' deadline ≤ remainingBlocks tip deadline := by
  cases deadline with
  | none => exact le_refl _
  | some height => exact Nat.sub_le_sub_left h height

/-- **The closer the deadline, the higher the rate**, if the estimator asks more for tighter
targets. -/
theorem deadlineFeeRateOf_mono
    (hestimate : ∀ target target', target ≤ target' →
      (estimateFor target').getD 0 ≤ (estimateFor target).getD 0) (h : tip ≤ tip') :
    deadlineFeeRateOf tip deadline previous estimateFor floor cap ≤
      deadlineFeeRateOf tip' deadline previous estimateFor floor cap := by
  have hremaining := remainingBlocks_anti deadline h
  by_cases hlast : remainingBlocks tip' deadline ≤ 2
  · refine deadlineFeeRateOf_le.trans_eq ?_
    unfold deadlineFeeRateOf
    rw [if_pos hlast]
  · have hearlier : ¬remainingBlocks tip deadline ≤ 2 := fun h => hlast (hremaining.trans h)
    unfold deadlineFeeRateOf
    rw [if_neg hearlier, if_neg hlast]
    refine min_le_min_right _ (max_le_max_right _ ?_)
    exact hestimate _ _ (targetForRemaining_mono hremaining)

end

/-! ## The sequence of steps -/

/-- The rates of a spend: the first as `resolve_fee_rate` has it, each further one a step on
from the one before, at the tip and over the estimator of that step. -/
def feeRates (floor cap : ℕ) (deadline : Option ℕ) (first : Option ℕ)
    (estimateFor : ℕ → ℕ → Option ℕ) (tips : ℕ → ℕ) : ℕ → ℕ
  | 0 => resolveFeeRate first floor cap
  | n + 1 => deadlineFeeRateOf (tips n) deadline
      (feeRates floor cap deadline first estimateFor tips n) (estimateFor n) floor cap

/-- A sequence that climbs until it is at its bound is there after as many steps as the
bound is away. -/
theorem eq_bound_of_climbs {f : ℕ → ℕ} {c : ℕ} (hle : ∀ n, f n ≤ c)
    (hstep : ∀ n, f n < f (n + 1) ∨ f n = c ∧ f (n + 1) = c) :
    ∀ n, c - f 0 ≤ n → f n = c := by
  have hclimb : ∀ n, min (f 0 + n) c ≤ f n := by
    intro n
    induction n with
    | zero => exact min_le_left _ _
    | succ n ih =>
        rcases hstep n with hlt | ⟨-, heq⟩
        · omega
        · rw [heq]
          exact min_le_right _ _
  intro n hn
  refine le_antisymm (hle n) ?_
  have h0 := hle 0
  have hn' := hclimb n
  omega

section

variable (floor cap : ℕ) (deadline first : Option ℕ) (estimateFor : ℕ → ℕ → Option ℕ)
  (tips : ℕ → ℕ)

theorem feeRates_mem (n : ℕ) :
    floor ≤ feeRates floor cap deadline first estimateFor tips n ∧
      feeRates floor cap deadline first estimateFor tips n ≤ max cap floor := by
  cases n with
  | zero => exact ⟨le_resolveFeeRate .., resolveFeeRate_le ..⟩
  | succ n => exact ⟨le_deadlineFeeRateOf, deadlineFeeRateOf_le⟩

theorem feeRates_step (hcap : max cap floor ≤ Word.maxValue 64) (n : ℕ) :
    feeRates floor cap deadline first estimateFor tips n <
        feeRates floor cap deadline first estimateFor tips (n + 1) ∨
      feeRates floor cap deadline first estimateFor tips n = max cap floor ∧
        feeRates floor cap deadline first estimateFor tips (n + 1) = max cap floor := by
  rcases (feeRates_mem floor cap deadline first estimateFor tips n).2.lt_or_eq with hlt | heq
  · exact .inl (lt_deadlineFeeRateOf hcap hlt)
  · refine .inr ⟨heq, ?_⟩
    rw [feeRates, heq]
    exact deadlineFeeRateOf_ceiling hcap

end

/-- **Fee escalation.**  Every rate is between the floor and the ceiling; each is strictly
above the one before, unless that was the ceiling; the ceiling is reached after at most as
many bumps as it is above the floor, and kept; and with an estimator that asks more for
tighter targets, a step from a given rate is the higher the higher the tip. -/
theorem fee_escalation (floor cap : ℕ) (deadline first : Option ℕ)
    (estimateFor : ℕ → ℕ → Option ℕ) (tips : ℕ → ℕ) (hfloor : floor < 2 ^ 64)
    (hcap : cap < 2 ^ 64) :
    let rates := feeRates floor cap deadline first estimateFor tips
    (∀ n, floor ≤ rates n ∧ rates n ≤ max cap floor) ∧
      (∀ n, rates n < rates (n + 1) ∨ rates n = max cap floor) ∧
      (∀ n, max cap floor - floor ≤ n → rates n = max cap floor) ∧
      ∀ estimator : ℕ → Option ℕ,
        (∀ target target', target ≤ target' →
          (estimator target').getD 0 ≤ (estimator target).getD 0) →
        ∀ previous ≤ max cap floor, ∀ tip tip', tip ≤ tip' →
          deadlineFeeRateOf tip deadline previous estimator floor cap ≤
            deadlineFeeRateOf tip' deadline previous estimator floor cap := by
  intro rates
  have hceiling : max cap floor ≤ Word.maxValue 64 := Nat.le_sub_one_of_lt (max_lt hcap hfloor)
  have hmem : ∀ n, floor ≤ rates n ∧ rates n ≤ max cap floor :=
    feeRates_mem floor cap deadline first estimateFor tips
  have hstep := feeRates_step floor cap deadline first estimateFor tips hceiling
  refine ⟨hmem, fun n => (hstep n).imp_right And.left, fun n hn => ?_, ?_⟩
  · refine eq_bound_of_climbs (fun n => (hmem n).2) hstep n (le_trans ?_ hn)
    exact Nat.sub_le_sub_left (hmem 0).1 _
  · intro estimator hestimator previous _ tip tip' htip
    exact deadlineFeeRateOf_mono hestimator htip

/-- The general statement for a claim ten blocks from its deadline, with an estimator that
asks three times as much for the next block. -/
theorem fee_escalation_steep :
    feeRates 2 1000 (some 800010) none (fun _ _ => none) (fun n => 800000 + n) 998 = 1000 ∧
      deadlineFeeRateOf 800000 (some 800010) 8
          (fun target => some (if target ≤ 1 then 90 else 30)) 2 1000 ≤
        deadlineFeeRateOf 800007 (some 800010) 8
          (fun target => some (if target ≤ 1 then 90 else 30)) 2 1000 := by
  obtain ⟨-, -, hreached, hmono⟩ := fee_escalation 2 1000 (some 800010) none (fun _ _ => none)
    (fun n => 800000 + n) (by decide) (by decide)
  refine ⟨hreached 998 (by decide), hmono _ ?_ 8 (by decide) 800000 800007 (by decide)⟩
  intro target target' h
  simp only [Option.getD_some]
  split_ifs <;> omega

/-! ## The rates of a configuration -/

/-- Some escalation of the configuration comes to the rate. -/
def Escalated (cfg : SpendWatchConfig) (rate : ℕ) : Prop :=
  ∃ first estimateFor tips n, rate =
    feeRates cfg.floorRateSatVb cfg.capRateSatVb cfg.deadlineHeight first estimateFor tips n

/-- A rate depends on the steps that led to it. -/
theorem feeRates_congr {floor cap : ℕ} {deadline first : Option ℕ}
    {estimateFor estimateFor' : ℕ → ℕ → Option ℕ} {tips tips' : ℕ → ℕ} :
    ∀ {n : ℕ}, (∀ k < n, estimateFor k = estimateFor' k ∧ tips k = tips' k) →
      feeRates floor cap deadline first estimateFor tips n =
        feeRates floor cap deadline first estimateFor' tips' n := by
  intro n
  induction n with
  | zero => exact fun _ => rfl
  | succ n ih =>
      intro h
      obtain ⟨hestimate, htip⟩ := h n (Nat.lt_succ_self n)
      rw [feeRates, feeRates, ih fun k hk => h k (Nat.lt_succ_of_lt hk), hestimate, htip]

section

variable {cfg : SpendWatchConfig} {rate : ℕ}

theorem escalated_first (first : Option ℕ) :
    Escalated cfg (resolveFeeRate first cfg.floorRateSatVb cfg.capRateSatVb) :=
  ⟨first, fun _ _ => none, fun _ => 0, 0, rfl⟩

/-- A step on from a rate of the configuration is one. -/
theorem Escalated.step (h : Escalated cfg rate) (tip : ℕ) (estimator : ℕ → Option ℕ) :
    Escalated cfg (deadlineFeeRateOf tip cfg.deadlineHeight rate estimator cfg.floorRateSatVb
      cfg.capRateSatVb) := by
  obtain ⟨first, estimateFor, tips, n, rfl⟩ := h
  refine ⟨first, Function.update estimateFor n estimator, Function.update tips n tip, n + 1, ?_⟩
  rw [feeRates, Function.update_self, Function.update_self]
  congr 1
  refine feeRates_congr fun k hk => ?_
  rw [Function.update_of_ne hk.ne, Function.update_of_ne hk.ne]
  exact ⟨rfl, rfl⟩

end

end PubkySwap
