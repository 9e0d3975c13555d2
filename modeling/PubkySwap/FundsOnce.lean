import PubkySwap.DaemonRun

/-!
# The reverse swap is funded once

A run of the reverse driver funds the HTLC only on a record without a mark, an outpoint or
an intent, and right after it has recorded the intent.  The intent is on disk before the
wallet is asked, and no write takes it away without putting the outpoint in its place.  So
whatever the wallet answers, and wherever the process dies, no later run asks it again.
-/

namespace PubkySwap

open Program (Sound OnlyCalls sound_orThrow_bind onlyCalls_orThrow_bind onlyCalls_pure)
open Committing (Advances Safe Commits)

/-- A record on which no run funds. -/
def Resume.Marked (resume : Resume) : Prop := resume.marked = true

section

variable [Crypto] {swap : ReverseSwap} {resume : Resume} {requiredConfirmations poll fuel : ℕ}
  {s : Committing}

/-- On a record with a mark nothing is funded. -/
theorem unfunded_establishFunding (hmarked : resume.marked = true) :
    OnlyCalls (fun op => op.funds = false)
      (establishFunding swap resume requiredConfirmations poll fuel) := by
  have hseeks : OnlyCalls (fun op => op.funds = false) (awaitRecordedFunding swap poll fuel) :=
    calls_awaitRecordedFunding.mono fun op hop => by cases op <;> first
      | rfl
      | cases hop
  unfold establishFunding
  split
  · split
    · trivial
    · refine ⟨rfl, fun answer => onlyCalls_orThrow_bind fun outputs _ => ?_⟩
      split
      · trivial
      · exact hseeks
  case h_2 hnone =>
      refine ⟨rfl, fun answer => onlyCalls_orThrow_bind fun found _ => ?_⟩
      cases found with
      | some utxo => exact ⟨rfl, fun _ => trivial⟩
      | none =>
          have hintent : resume.fundingIntentAtHeight.isSome = true := by
            rw [Resume.marked, hnone] at hmarked
            exact hmarked
          dsimp only
          rw [if_pos hintent]
          exact hseeks

theorem unfunded_watchFunded {outpoint : OutPoint} :
    OnlyCalls (fun op => op.funds = false)
      (watchFunded swap resume outpoint requiredConfirmations poll fuel) :=
  calls_watchFunded.mono fun op hop => by cases op <;> first
    | rfl
    | cases hop

theorem unfunded_awaitAcceptance :
    OnlyCalls (fun op => op.funds = false) (awaitAcceptance swap resume poll fuel) :=
  calls_awaitAcceptance.mono fun op hop => by cases op <;> first
    | rfl
    | cases hop

/-- **The intent first**: it is on disk when the wallet is asked. -/
theorem sound_commitFunding (hs : s.Unmade) (tip : ℕ) :
    Sound (Advances Resume.Marked Op.funds) Safe (fun _ _ => True)
      (commitFunding swap tip poll fuel) s := by
  refine ⟨hs.safe, fun answer intended hmoves => ?_⟩
  have hunmade := hs.moves rfl hmoves
  cases answer with
  | error e =>
      refine Committing.sound_quiet ?_ hunmade.safe
      exact OnlyCalls.bind (fun _ => onlyCalls_pure _) (calls_cancelInvoice rfl)
  | ok _ =>
      have hdurable : intended.durable := by
        obtain ⟨unix, hcopy⟩ := hmoves.copy
        refine hmoves.durable trivial ?_
        rw [hcopy, Resume.Marked, Resume.marked, Bool.or_eq_true]
        exact .inr (by rw [SwapRecord.resume, SwapRecord.reported_fundingIntent]; rfl)
      refine ⟨hunmade.safe, fun answer funded hmoves' => ?_⟩
      have hcount : funded.count = 1 := by
        rw [hmoves'.count, hunmade]
        rfl
      have hsafe : funded.Safe := ⟨hcount.le, fun _ => hmoves'.kept hdurable⟩
      refine Committing.sound_quiet ?_ hsafe
      cases answer with
      | ok outpoint => exact ⟨rfl, fun _ => trivial⟩
      | error e =>
          exact calls_awaitRecordedFunding.mono fun op hop => by cases op <;> first
            | rfl
            | cases hop

theorem sound_establishFunding (hs : s.Unmade) :
    Sound (Advances Resume.Marked Op.funds) Safe (fun _ _ => True)
      (establishFunding swap resume requiredConfirmations poll fuel) s := by
  by_cases hmarked : resume.marked = true
  · exact Committing.sound_quiet (unfunded_establishFunding hmarked) hs.safe
  · have hnone : resume.funding = none ∧ ¬resume.fundingIntentAtHeight.isSome = true := by
      rw [Resume.marked, Bool.or_eq_true, not_or] at hmarked
      exact ⟨Option.not_isSome_iff_eq_none.mp hmarked.1, hmarked.2⟩
    unfold establishFunding
    rw [hnone.1]
    refine ⟨hs.safe, fun answer looked hmoves => ?_⟩
    have hlooked := hs.moves rfl hmoves
    refine sound_orThrow_bind hlooked.safe (fun _ _ => trivial) fun found _ => ?_
    cases found with
    | some utxo => exact Committing.sound_quiet ⟨rfl, fun _ => trivial⟩ hlooked.safe
    | none =>
        dsimp only
        rw [if_neg hnone.2]
        refine ⟨hlooked.safe, fun answer known hmoves => ?_⟩
        have hknown := hlooked.moves rfl hmoves
        refine sound_orThrow_bind hknown.safe (fun _ _ => trivial) fun status _ => ?_
        split
        · refine Committing.sound_quiet ?_ hknown.safe
          exact OnlyCalls.bind (fun _ => onlyCalls_pure _) (calls_cancelInvoice rfl)
        · refine ⟨hknown.safe, fun answer timed hmoves => ?_⟩
          have htimed := hknown.moves rfl hmoves
          refine sound_orThrow_bind htimed.safe (fun _ _ => trivial) fun tip _ => ?_
          split
          · refine Committing.sound_quiet ?_ htimed.safe
            exact OnlyCalls.bind (fun _ => onlyCalls_pure _) (calls_cancelInvoice rfl)
          · exact sound_commitFunding htimed tip

/-- **The reverse driver** asks the wallet once, with the intent on disk. -/
theorem commits_reverseRun (swap : ReverseSwap) (poll : ℕ) :
    Commits Resume.Marked Op.funds (reverseRun swap poll) := by
  intro rec fuel s hcopy hdurable hsafe
  by_cases hmarked : rec.resume.marked = true
  · refine Committing.sound_quiet (OnlyCalls.bind (fun ended => ?_) unfunded_awaitAcceptance) hsafe
    cases ended with
    | some state => trivial
    | none =>
        refine OnlyCalls.bind (fun outcome => ?_) (unfunded_establishFunding hmarked)
        cases outcome with
        | refused state => trivial
        | funded outpoint => exact unfunded_watchFunded
  · have hunmade : s.Unmade := by
      by_contra hmade
      exact hmarked (hdurable (hsafe.durable (Nat.pos_of_ne_zero hmade)))
    refine Sound.bind (fun s ended hs hpost => ?_) (fun _ _ _ _ => trivial)
      (Committing.sound_unmade unfunded_awaitAcceptance hunmade)
    cases ended with
    | some state => exact ⟨hs, trivial⟩
    | none =>
        refine Sound.bind (fun s outcome hs _ => ?_) (fun _ _ _ _ => trivial)
          (sound_establishFunding hpost)
        cases outcome with
        | refused state => exact ⟨hs, trivial⟩
        | funded outpoint => exact Committing.sound_quiet unfunded_watchFunded hs

/-- **A reverse swap never funds twice.**  Through every sequence of runs of its driver, each
started on what the store has or on what the run before has left, with every answer of the
chain, the node and the wallet, with writes that fail, marks of the reorg monitor and crashes
between any two steps and in the middle of any call, the wallet is asked for the funding at
most once. -/
theorem reverse_funds_once (swap : ReverseSwap) (poll : ℕ) (rec : SwapRecord)
    (events : List DaemonEvent) :
    (Daemon.run (reverseRun swap poll) events ⟨rec, none, [], []⟩).made Op.funds ≤ 1 := by
  refine Daemon.made_le_one (commits_reverseRun swap poll) ?_ (fun _ _ _ h => h) ?_ rec events
  · exact fun rec unix op h => Reentry.marked_reported unix op h
  · intro op hop
    cases op <;> first
      | rfl
      | cases hop

end

end PubkySwap
