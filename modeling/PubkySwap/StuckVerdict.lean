import PubkySwap.StuckRun

/-!
# Whether a stuck swap is noticed

The failures of a swap are counted so that its driver is entered again after longer and
longer delays, and so that an operator is called in the end.  A run that reports to the sink
exactly what the run before it has reported should add one to the count
(`Reentry.Climbs`).

The submarine driver's runs do, and whatever they are answered, the swap needs an operator
after finitely many failures.  So do those of the reverse driver, except for one kind: a swap
whose record carries a reorg, and whose recorded output is not at depth any more, looks for
its funding and reports it again, and then observes the claim that spends it
(`Reentry.Reestablished`).  The two reports write two states, so every such run clears the
count twice and leaves it at one.
-/

namespace PubkySwap

open BitcoinScript (Bytes)
open Program (Run Ending Agree)

/-- A call whose answer is the store's to give. -/
def Op.askedOfStore : Op → Bool
  | .fundingIntent _ | .invoicePayStarted | .wantsClaimable => true
  | _ => false

namespace Reentry

variable {drive : SwapRecord → ℕ → Driver DriverError SwapState} (r : Reentry drive) {k : ℕ}

/-- The chain, the Lightning node and the wallet give the same answers in every run. -/
def SameAnswers : Prop :=
  ∀ j k past op (a b : Ans op), op.askedOfStore = false → past ++ [⟨op, a⟩] <+: r.traces j →
    past ++ [⟨op, b⟩] <+: r.traces k → a = b

/-- **Run `k + 1` adds to the count of failures**: none of its writes clears it, it is one
higher afterwards, and the delay is longer, as far as delays grow. -/
structure Climbs (k : ℕ) : Prop where
  kept : ∀ before after, r.traces (k + 1) = before ++ after →
    ((r.records (k + 1)).recordAfter (r.clocks (k + 1)) before).retryCount =
      (r.records (k + 1)).retryCount
  counted : (r.records (k + 2)).retryCount = (r.records (k + 1)).retryCount + 1
  slower : (r.records (k + 1)).retryCount < 8 → r.delays k < r.delays (k + 1)

/-- **The branch that flips the state**: a run on a record that carries a reorg reports its
funding again, and observes a claim. -/
def Reestablished (k : ℕ) : Prop :=
  (r.records k).reorgSeenAtHeight.isSome = true ∧
    (∃ outpoint, Calls (r.traces k) (.funded outpoint)) ∧
      ∃ txid, Calls (r.traces k) (.claimObserved txid)

variable {r}

/-- A run that repeats the one before and writes one state adds to the count. -/
theorem climbs_of_writes {state : SwapState} (hrepeats : r.traces (k + 1) = r.traces k)
    (hwrites : ∀ event ∈ r.traces (k + 1), ∀ s ∈ event.1.stateWritten, s = state)
    (hlt : (r.records (k + 1)).retryCount < Word.maxValue 32) : r.Climbs k := by
  obtain ⟨random, hre⟩ := r.reentered k
  obtain ⟨random', hre'⟩ := r.reentered (k + 1)
  have hsame : ∀ event ∈ r.traces (k + 1), ∀ s ∈ event.1.stateWritten,
      s = (r.records (k + 1)).state := by
    intro event hmem s hs
    rw [hwrites event hmem s hs, hre.state]
    rw [hrepeats] at hmem hwrites
    refine (SwapRecord.recordAfter_state hwrites ⟨event, hmem, ?_⟩).symm
    rw [Option.mem_def.mp hs]
    exact Option.some_ne_none s
  have hcounted : (r.records (k + 2)).retryCount = (r.records (k + 1)).retryCount + 1 := by
    rw [(counted_of_writes rfl hsame).2, Word.saturatingAdd]
    exact min_eq_left hlt
  refine ⟨fun before after hsplit => ?_, hcounted, fun hfew => ?_⟩
  · refine (SwapRecord.recordAfter_kept rfl fun event hmem => hsame event ?_).2
    rw [hsplit]
    exact List.mem_append_left _ hmem
  · rw [hre.delayed, hre'.delayed, hcounted]
    exact backoff_lt_backoff_succ random random' (r.retryCount_pos k) hfew

/-- A count at its maximum stays there. -/
theorem Climbs.lt (h : r.Climbs k) : (r.records (k + 1)).retryCount < Word.maxValue 32 := by
  have hle : (r.records (k + 2)).retryCount ≤ Word.maxValue 32 := r.retryCount_le (k + 1)
  have hcounted := h.counted
  omega

/-- A run that writes another state does not. -/
theorem not_climbs_of_write {event : Event} {state : SwapState} (hmem : event ∈ r.traces (k + 1))
    (hwritten : event.1.stateWritten = some state)
    (hne : state ≠ (r.records (k + 1)).state) : ¬r.Climbs k := by
  intro h
  have hlost : ∃ before after, r.traces (k + 1) = before ++ after ∧
      ((r.records (k + 1)).recordAfter (r.clocks (k + 1)) before).retryCount = 0 :=
    SwapRecord.recordAfter_lost ⟨event, hmem, state, hwritten, hne⟩
  obtain ⟨before, after, hsplit, hzero⟩ := hlost
  have hkept := h.kept before after hsplit
  have hpos := r.retryCount_pos k
  omega

end Reentry

/-! ## The submarine driver -/

section

variable [Crypto] {swap : SubmarineSwap} {poll : ℕ} (r : Reentry (submarineRun swap poll)) {k : ℕ}

theorem submarine_paysOnce {op : Op} (h : Calls (r.traces k) op) :
    (r.records k).resume.PaysOnce (r.records k).invoicePayStartedAtUnix.isSome op := by
  obtain ⟨event, hmem, rfl⟩ := h
  obtain ⟨fuel, hrun⟩ := r.runs k
  exact hrun.calls paysOnce_driveSubmarineSwap event hmem

/-- A payment that has been started has a funding on record. -/
theorem submarine_funded_of_started {j : ℕ} (h : Calls (r.traces j) .invoicePayStarted)
    (hlt : j < k) : (r.records k).resume.funding.isSome = true := by
  obtain ⟨event, hmem, hstarted⟩ := h
  obtain ⟨fuel, hrun⟩ := r.runs j
  have hnext : (r.records (j + 1)).resume.funding.isSome = true := by
    obtain ⟨outpoint, hrecorded | hreported⟩ := pinned_of_invoicePayStarted hrun hmem hstarted
    · exact Reentry.isSome_of_funding (by rw [hrecorded]; rfl)
    · exact Reentry.isSome_of_funded ⟨_, hreported, rfl⟩
  exact Reentry.funding_isSome_of_le hnext hlt

/-- Neither report is made again. -/
theorem submarine_once {j : ℕ} (hlt : j < k) :
    (∀ outpoint outpoint', Calls (r.traces j) (.funded outpoint) →
        ¬Calls (r.traces k) (.funded outpoint')) ∧
      (Calls (r.traces j) .invoicePayStarted → ¬Calls (r.traces k) .invoicePayStarted) := by
  constructor
  · intro outpoint outpoint' hfunded hagain
    have hsome := Reentry.funding_isSome_of_le (Reentry.isSome_of_funded hfunded) hlt
    have hnone : (r.records k).resume.funding = none := submarine_paysOnce r hagain
    rw [hnone] at hsome
    cases hsome
  · intro hstarted hagain
    exact submarine_paysOnce r hagain ⟨submarine_funded_of_started r hstarted hlt,
      Reentry.started_of_invoicePayStarted hstarted hlt⟩

/-- A run without these reports writes one state. -/
theorem submarine_writes (hfunded : ∀ outpoint, ¬Calls (r.traces k) (.funded outpoint))
    (hstarted : ¬Calls (r.traces k) .invoicePayStarted) :
    ∀ event ∈ r.traces k, ∀ s ∈ event.1.stateWritten, s = .invoicePaid := by
  intro event hmem s hs
  have hcalls : (r.records k).resume.PaysOnce (r.records k).invoicePayStartedAtUnix.isSome
      event.1 := submarine_paysOnce r ⟨event, hmem, rfl⟩
  obtain ⟨op, answer⟩ := event
  cases op <;> try cases hs
  · cases hcalls
  · exact absurd ⟨_, hmem, rfl⟩ (hfunded _)
  · exact absurd ⟨_, hmem, rfl⟩ hstarted
  · rfl
  · rfl

/-- From some run on, one state is written. -/
theorem submarine_writesFrom : ∃ start, r.WritesFrom .invoicePaid start := by
  have hfunded : ∃ start, ∀ k, start ≤ k → ∀ outpoint, ¬Calls (r.traces k) (.funded outpoint) := by
    by_cases h : ∃ j outpoint, Calls (r.traces j) (.funded outpoint)
    · obtain ⟨j, outpoint, hj⟩ := h
      exact ⟨j + 1, fun k hk outpoint' => (submarine_once r hk).1 outpoint outpoint' hj⟩
    · exact ⟨0, fun k _ outpoint hk => h ⟨k, outpoint, hk⟩⟩
  have hstarted : ∃ start, ∀ k, start ≤ k → ¬Calls (r.traces k) .invoicePayStarted := by
    by_cases h : ∃ j, Calls (r.traces j) .invoicePayStarted
    · obtain ⟨j, hj⟩ := h
      exact ⟨j + 1, fun k hk => (submarine_once r hk).2 hj⟩
    · exact ⟨0, fun k _ hk => h ⟨k, hk⟩⟩
  obtain ⟨a, ha⟩ := hfunded
  obtain ⟨b, hb⟩ := hstarted
  exact ⟨max a b, fun k hk =>
    submarine_writes r (ha k (le_of_max_le_left hk)) (hb k (le_of_max_le_right hk))⟩

end

/-! ## The reverse driver -/

section

variable [Crypto] {swap : ReverseSwap} {poll : ℕ} (r : Reentry (reverseRun swap poll)) {k : ℕ}

theorem reverse_fundsOnce {op : Op} (h : Calls (r.traces k) op) :
    (r.records k).resume.FundsOnce op := by
  obtain ⟨event, hmem, rfl⟩ := h
  obtain ⟨fuel, hrun⟩ := r.runs k
  exact hrun.calls fundsOnce_driveReverseSwap event hmem

/-- A funding is intended once. -/
theorem reverse_intends_once {j tip : ℕ} (h : Calls (r.traces j) (.fundingIntent tip))
    (hlt : j < k) (tip' : ℕ) : ¬Calls (r.traces k) (.fundingIntent tip') := by
  intro hagain
  have hmarked := Reentry.marked_of_fundingIntent h hlt
  have hunmarked : (r.records k).resume.marked = false := reverse_fundsOnce r hagain
  rw [hunmarked] at hmarked
  cases hmarked

/-- A funding is reported again only on a record that carries a reorg. -/
theorem reverse_reorg_of_funded {j : ℕ} {outpoint outpoint' : OutPoint}
    (h : Calls (r.traces j) (.funded outpoint)) (hlt : j < k)
    (hagain : Calls (r.traces k) (.funded outpoint')) :
    (r.records k).resume.reorgSeenAtHeight.isSome = true := by
  have hsome := Reentry.funding_isSome_of_le (Reentry.isSome_of_funded h) hlt
  have hcases : (r.records k).resume.funding = none ∨
      (r.records k).resume.reorgSeenAtHeight.isSome = true := reverse_fundsOnce r hagain
  refine hcases.resolve_left fun hnone => ?_
  rw [hnone] at hsome
  cases hsome

/-- Without an intent, a run that does not both report a funding and observe a claim writes
one state. -/
theorem reverse_writes (hintent : ∀ tip, ¬Calls (r.traces k) (.fundingIntent tip)) :
    ((∀ outpoint, ¬Calls (r.traces k) (.funded outpoint)) →
        ∀ event ∈ r.traces k, ∀ s ∈ event.1.stateWritten, s = .invoicePaid) ∧
      ((∀ txid, ¬Calls (r.traces k) (.claimObserved txid)) →
        ∀ event ∈ r.traces k, ∀ s ∈ event.1.stateWritten, s = .lockupConfirmed) := by
  have hcalls (event : Event) (hmem : event ∈ r.traces k) :
      (r.records k).resume.FundsOnce event.1 := reverse_fundsOnce r ⟨event, hmem, rfl⟩
  constructor
  · rintro hfunded ⟨op, answer⟩ hmem s hs
    cases op <;> try cases hs
    · exact absurd ⟨_, hmem, rfl⟩ (hintent _)
    · exact absurd ⟨_, hmem, rfl⟩ (hfunded _)
    · cases hcalls _ hmem
    · rfl
    · rfl
  · rintro hclaim ⟨op, answer⟩ hmem s hs
    cases op <;> try cases hs
    · exact absurd ⟨_, hmem, rfl⟩ (hintent _)
    · rfl
    · cases hcalls _ hmem
    · cases hcalls _ hmem
    · exact absurd ⟨_, hmem, rfl⟩ (hclaim _)

/-- **A run that repeats the one before** adds to the count exactly if it does not flip the
state, as long as the count can grow. -/
theorem reverse_climbs_iff (hrepeats : r.traces (k + 1) = r.traces k) :
    r.Climbs k ↔
      ¬r.Reestablished (k + 1) ∧ (r.records (k + 1)).retryCount < Word.maxValue 32 := by
  have hintent (tip : ℕ) : ¬Calls (r.traces (k + 1)) (.fundingIntent tip) := by
    intro hagain
    exact reverse_intends_once r (hrepeats ▸ hagain) (Nat.lt_succ_self k) tip hagain
  constructor
  · refine fun hclimbs => ⟨?_, hclimbs.lt⟩
    rintro ⟨-, ⟨outpoint, event, hmem, hop⟩, txid, event', hmem', hop'⟩
    have hwritten : event.1.stateWritten = some .lockupConfirmed := by rw [hop]; rfl
    have hwritten' : event'.1.stateWritten = some .invoicePaid := by rw [hop']; rfl
    by_cases hstate : (r.records (k + 1)).state = .lockupConfirmed
    · exact Reentry.not_climbs_of_write hmem' hwritten' (by rw [hstate]; nofun) hclimbs
    · exact Reentry.not_climbs_of_write hmem hwritten (Ne.symm hstate) hclimbs
  · rintro ⟨hnot, hlt⟩
    by_cases hfunded : ∃ outpoint, Calls (r.traces (k + 1)) (.funded outpoint)
    · obtain ⟨outpoint, hagain⟩ := hfunded
      have hreorg := reverse_reorg_of_funded r (hrepeats ▸ hagain) (Nat.lt_succ_self k) hagain
      refine Reentry.climbs_of_writes hrepeats ((reverse_writes r hintent).2 ?_) hlt
      exact fun txid hclaim => hnot ⟨hreorg, ⟨outpoint, hagain⟩, txid, hclaim⟩
    · refine Reentry.climbs_of_writes hrepeats ((reverse_writes r hintent).1 ?_) hlt
      exact fun outpoint hagain => hfunded ⟨outpoint, hagain⟩

/-! ### The funding of a swap that carries a reorg -/

/-- The recorded output is at depth, or there is no telling: no funding is reported. -/
def SettledAt (k : ℕ) : Prop :=
  ∃ outpoint answer rest, (r.records k).resume.funding = some outpoint ∧
    r.traces k = ⟨.findOutputs swap.htlcSpk, answer⟩ :: rest ∧
    (∀ event ∈ rest, ∀ outpoint, event.1 ≠ .funded outpoint) ∧
    ∀ outputs, answer = .ok outputs →
      AtDepth (r.records k).requiredConfirmations outpoint outputs

/-- The recorded output is not at depth: the funding is looked for. -/
def SeekingAt (k : ℕ) : Prop :=
  ∃ outpoint outputs rest sought, (r.records k).resume.funding = some outpoint ∧
    r.traces k = ⟨.findOutputs swap.htlcSpk, .ok outputs⟩ :: rest ∧
    ¬AtDepth (r.records k).requiredConfirmations outpoint outputs ∧ SoughtIn swap poll sought rest

variable {r}

theorem settledAt_or_seekingAt (hfunding : (r.records k).resume.funding.isSome = true)
    (hreorg : (r.records k).resume.reorgSeenAtHeight.isSome = true) :
    SettledAt r k ∨ SeekingAt r k := by
  obtain ⟨outpoint, hfunding⟩ := Option.isSome_iff_exists.mp hfunding
  obtain ⟨fuel, hrun⟩ := r.runs k
  obtain ⟨answer, rest, htrace, ⟨hsilent, hdepth⟩ | ⟨⟨outputs, rfl, hdepth⟩, sought, hsought⟩⟩ :=
    run_of_reorg hfunding hreorg hrun
  · exact .inl ⟨outpoint, answer, rest, hfunding, htrace, hsilent, hdepth⟩
  · exact .inr ⟨outpoint, outputs, rest, sought, hfunding, htrace, hdepth, hsought⟩

theorem SettledAt.not_funded (h : SettledAt r k) (outpoint : OutPoint) :
    ¬Calls (r.traces k) (.funded outpoint) := by
  obtain ⟨-, answer, rest, -, htrace, hsilent, -⟩ := h
  rintro ⟨event, hmem, hop⟩
  rw [htrace] at hmem
  rcases List.mem_cons.mp hmem with rfl | hmem
  · cases hop
  · exact hsilent event hmem outpoint hop

/-- With the same answers, what is settled stays settled. -/
theorem SettledAt.succ (h : SettledAt r k) (hsame : r.SameAnswers)
    (hreorg : (r.records (k + 1)).resume.reorgSeenAtHeight.isSome = true) :
    SettledAt r (k + 1) := by
  have hfunding := Reentry.funding_succ h.not_funded
  obtain ⟨outpoint, answer, rest, hrecorded, htrace, -, hdepth⟩ := h
  rw [hrecorded] at hfunding
  refine (settledAt_or_seekingAt (by rw [hfunding]; rfl) hreorg).resolve_right ?_
  rintro ⟨outpoint', outputs, rest', sought, hrecorded', htrace', hshallow, -⟩
  obtain rfl := Option.some.inj (hfunding.symm.trans hrecorded')
  have hanswer : answer = .ok outputs := by
    refine hsame k (k + 1) [] (.findOutputs swap.htlcSpk) _ _ rfl ?_ ?_
    · exact htrace ▸ List.prefix_append [_] rest
    · exact htrace' ▸ List.prefix_append [_] rest'
  rw [Reentry.requiredConfirmations_succ] at hshallow
  exact hshallow (hdepth outputs hanswer)

/-- With the same answers, two searches are the same. -/
theorem SeekingAt.funded {j : ℕ} (hj : SeekingAt r j) (hk : SeekingAt r k)
    (hsame : r.SameAnswers) {outpoint : OutPoint} (h : Calls (r.traces j) (.funded outpoint)) :
    Calls (r.traces k) (.funded outpoint) := by
  obtain ⟨-, outputs, _, sought, -, htrace, -, ⟨fuel, ending, hended, hrun⟩, after, rfl, hafter⟩ :=
    hj
  obtain ⟨-, outputs', _, sought', -, htrace', -, ⟨fuel', ending', hended', hrun'⟩, after', rfl,
    -⟩ := hk
  have hanswer : (.ok outputs : Except SwapError (List FundingUtxo)) = .ok outputs' := by
    refine hsame j k [] (.findOutputs swap.htlcSpk) _ _ rfl ?_ ?_
    · exact htrace ▸ List.prefix_append [_] _
    · exact htrace' ▸ List.prefix_append [_] _
  cases hanswer
  have hagree : Agree sought sought' := by
    intro past op a b ha hb
    have hseeking : op.seeking = true := hrun.calls calls_awaitRecordedFunding ⟨op, a⟩
      (ha.subset (List.mem_append_right _ (List.mem_singleton_self _)))
    refine hsame j k (⟨.findOutputs swap.htlcSpk, .ok outputs⟩ :: past) op a b ?_ ?_ ?_
    · cases op <;> trivial
    · rw [htrace]
      exact List.cons_prefix_cons.mpr ⟨rfl, ha.trans (List.prefix_append _ _)⟩
    · rw [htrace']
      exact List.cons_prefix_cons.mpr ⟨rfl, hb.trans (List.prefix_append _ _)⟩
  have heq : sought = sought' := by
    refine Run.unique hended hended' (hrun.iterate_of_le hended (le_max_left fuel fuel'))
      (hrun'.iterate_of_le hended' (le_max_right fuel fuel')) hagree
  obtain ⟨event, hmem, hop⟩ := h
  rw [htrace] at hmem
  rcases List.mem_cons.mp hmem with rfl | hmem
  · cases hop
  rcases List.mem_append.mp hmem with hmem | hmem
  · refine ⟨event, ?_, hop⟩
    rw [htrace', ← heq]
    exact List.mem_cons_of_mem _ (List.mem_append_left _ hmem)
  · exact absurd hop (hafter event hmem outpoint)

/-- **With the same answers** the driver stops reporting its funding, or does so in every run
from some run on. -/
theorem funded_stable (hsame : r.SameAnswers) : ∃ start,
    (∀ k, start ≤ k → ∀ outpoint, ¬Calls (r.traces k) (.funded outpoint)) ∨
      ∀ k, start ≤ k → (r.records k).resume.reorgSeenAtHeight.isSome = true ∧
        ∃ outpoint, Calls (r.traces k) (.funded outpoint) := by
  by_cases hfunded : ∃ j outpoint, Calls (r.traces j) (.funded outpoint)
  swap
  · exact ⟨0, .inl fun k _ outpoint hk => hfunded ⟨k, outpoint, hk⟩⟩
  obtain ⟨j, outpoint, hj⟩ := hfunded
  have hrecorded (k : ℕ) (hk : j + 1 ≤ k) : (r.records k).resume.funding.isSome = true :=
    Reentry.funding_isSome_of_le (Reentry.isSome_of_funded hj) hk
  by_cases hreorg : (r.records 0).resume.reorgSeenAtHeight.isSome = true
  · have hcarries (k : ℕ) : (r.records k).resume.reorgSeenAtHeight.isSome = true := by
      induction k with
      | zero => exact hreorg
      | succ k ih => rwa [Reentry.reorgSeenAtHeight_succ]
    by_cases hsettled : ∃ k, j + 1 ≤ k ∧ SettledAt r k
    · obtain ⟨k₀, -, hk₀⟩ := hsettled
      refine ⟨k₀, .inl fun k hk => ?_⟩
      have hstays : SettledAt r k := by
        induction k, hk using Nat.le_induction with
        | base => exact hk₀
        | succ k _ ih => exact ih.succ hsame (hcarries _)
      exact hstays.not_funded
    · have hseeking (k : ℕ) (hk : j + 1 ≤ k) : SeekingAt r k :=
        (settledAt_or_seekingAt (hrecorded k hk) (hcarries k)).resolve_left
          fun h => hsettled ⟨k, hk, h⟩
      by_cases hagain : ∃ k outpoint, j + 1 ≤ k ∧ Calls (r.traces k) (.funded outpoint)
      · obtain ⟨k₀, outpoint', hk₀, hcalls⟩ := hagain
        exact ⟨j + 1, .inr fun k hk =>
          ⟨hcarries k, outpoint', (hseeking k₀ hk₀).funded (hseeking k hk) hsame hcalls⟩⟩
      · exact ⟨j + 1, .inl fun k hk outpoint' hcalls => hagain ⟨k, outpoint', hk, hcalls⟩⟩
  · refine ⟨j + 1, .inl fun k hk outpoint' hagain => hreorg ?_⟩
    have hcarries := reverse_reorg_of_funded r hj hk hagain
    clear hagain hk
    induction k with
    | zero => exact hcarries
    | succ k ih => exact ih (by rwa [Reentry.reorgSeenAtHeight_succ] at hcarries)

/-- From some run on, one state is written, if no run flips it. -/
theorem reverse_writesFrom (hsame : r.SameAnswers) (hnot : ∀ k, ¬r.Reestablished k) :
    ∃ state start, r.WritesFrom state start := by
  have hintent : ∃ start, ∀ k, start ≤ k → ∀ tip, ¬Calls (r.traces k) (.fundingIntent tip) := by
    by_cases h : ∃ j tip, Calls (r.traces j) (.fundingIntent tip)
    · obtain ⟨j, tip, hj⟩ := h
      exact ⟨j + 1, fun k hk tip' => reverse_intends_once r hj hk tip'⟩
    · exact ⟨0, fun k _ tip hk => h ⟨k, tip, hk⟩⟩
  obtain ⟨a, ha⟩ := hintent
  obtain ⟨b, hnever | hagain⟩ := funded_stable hsame
  · exact ⟨.invoicePaid, max a b, fun k hk =>
      (reverse_writes r (ha k (le_of_max_le_left hk))).1 (hnever k (le_of_max_le_right hk))⟩
  · refine ⟨.lockupConfirmed, max a b, fun k hk =>
      (reverse_writes r (ha k (le_of_max_le_left hk))).2 fun txid hclaim => ?_⟩
    obtain ⟨hreorg, hfunded⟩ := hagain k (le_of_max_le_right hk)
    exact hnot k ⟨hreorg, hfunded, txid, hclaim⟩

end

/-! ## The count -/

/-- **When the failures of a stuck swap are counted.** -/
theorem counts_failures [Crypto] :
    (∀ (swap : SubmarineSwap) (poll : ℕ) (r : Reentry (submarineRun swap poll)),
      (∀ k, r.traces (k + 1) = r.traces k →
        (r.Climbs k ↔ (r.records (k + 1)).retryCount < Word.maxValue 32)) ∧
      ∃ n, needsRecovery (r.records n) = true) ∧
    (∀ (swap : ReverseSwap) (poll : ℕ) (r : Reentry (reverseRun swap poll)),
      (∀ k, r.traces (k + 1) = r.traces k →
        (r.Climbs k ↔
          ¬r.Reestablished (k + 1) ∧ (r.records (k + 1)).retryCount < Word.maxValue 32)) ∧
      (r.SameAnswers → (∀ k, ¬r.Reestablished k) →
        ∃ n, needsRecovery (r.records n) = true)) := by
  refine ⟨fun swap poll r => ⟨fun k hrepeats => ⟨Reentry.Climbs.lt, ?_⟩, ?_⟩,
    fun swap poll r => ⟨fun k hrepeats => reverse_climbs_iff r hrepeats, ?_⟩⟩
  · intro hlt
    refine Reentry.climbs_of_writes hrepeats (submarine_writes r ?_ ?_) hlt
    · intro outpoint hagain
      exact (submarine_once r (Nat.lt_succ_self k)).1 outpoint outpoint (hrepeats ▸ hagain) hagain
    · intro hagain
      exact (submarine_once r (Nat.lt_succ_self k)).2 (hrepeats ▸ hagain) hagain
  · obtain ⟨start, h⟩ := submarine_writesFrom r
    exact h.needsRecovery
  · intro hsame hnot
    obtain ⟨state, start, h⟩ := reverse_writesFrom hsame hnot
    exact h.needsRecovery

/-! ## Failures that are forgotten -/

namespace ForgottenFailures

local instance tables : Crypto := tableCrypto [(List.replicate 32 0x51, Bytes32.ofNat 81)]

def preimage : Preimage := ⟨List.replicate 32 0x51, rfl⟩

def swap : ReverseSwap where
  paymentHash := Bytes32.ofNat 81
  onchainAmountSat := 100000
  feeRateSatVb := 2
  htlcScript := []
  htlcSpk := []
  taproot := none
  timeoutHeight := 800144
  refundKey := Bytes32.ofNat 1
  timelock := {}

def outpoint : OutPoint := ⟨7, 0⟩

/-- The client's claim. -/
def claim : Transaction :=
  (unsignedSpend outpoint 98000 [] 0).withWitness
    (htlcWitness (.claim preimage) (List.replicate 71 0x30) [])

/-- The HTLC has been funded, and the monitor has seen a reorg since. -/
def funded : SwapRecord where
  requiredConfirmations := 1
  fundingTxid := some 7
  fundingVout := some 0
  state := .lockupConfirmed
  reorgSeenAtHeight := some 800000

def unreachable : SwapError := .transient "connection reset"

/-- The claim has spent the output, and neither the node nor the chain's tip is to be had. -/
def claimed (_ : List Event) : (op : Op) → Ans op
  | .findHistoricalOutputs _ => .ok [⟨outpoint, 100000, 3, some 98000⟩]
  | .findSpend .. => .ok (some claim)
  | .settleHoldInvoice _ => .error (.backend "unreachable")
  | .tipHeight => .error unreachable
  | op => idle op

/-- What the driver exchanges in every run. -/
def trace : List Event := ((reverseRun swap 2 funded 2).play claimed []).1

/-- The record after the first failure. -/
def failedOnce : SwapRecord :=
  ((funded.recordAfter (fun _ => 100) trace).finishDriverRun 100 0 (.error (.swap unreachable))).1

/-- A record with the same marks is resumed in the same way. -/
theorem run_of_play {rec rec' : SwapRecord} {answer : List Event → (op : Op) → Ans op}
    {e : DriverError} (hresume : rec'.resume = rec.resume)
    (hrequired : rec'.requiredConfirmations = rec.requiredConfirmations)
    (hfailed : ((reverseRun swap 2 rec 2).play answer []).2 = .failed e) :
    Run (reverseRun swap 2 rec' 2) ((reverseRun swap 2 rec 2).play answer []).1 (.failed e) := by
  unfold reverseRun at hfailed ⊢
  rw [hresume, hrequired, ← hfailed]
  exact Program.run_play answer _ []

/-- The swap is entered again and again on the record it leaves. -/
def flipping : Reentry (reverseRun swap 2) where
  records _ := failedOnce
  traces _ := trace
  errors _ := .swap unreachable
  delays _ := backoff 0 1
  clocks _ _ := 100
  runs _ := ⟨2, run_of_play (by decide +kernel) (by decide +kernel) (by decide +kernel)⟩
  reenters _ := ⟨100, 0, by decide +kernel⟩

/-- **The count stays at one**: with the same answers in every run, and every run the same,
the swap never needs an operator. -/
theorem count_stays_at_one :
    flipping.SameAnswers ∧ (∀ k, flipping.traces (k + 1) = flipping.traces k) ∧
      (∀ k, ¬flipping.Climbs k) ∧ (∀ k, (flipping.records k).retryCount = 1) ∧
      ∀ n, needsRecovery (flipping.records n) = false := by
  have hone : failedOnce.retryCount = 1 := by decide +kernel
  have hfine : needsRecovery failedOnce = false := by decide +kernel
  refine ⟨?_, fun _ => rfl, fun k h => ?_, fun _ => hone, fun _ => hfine⟩
  · exact fun _ _ past op a b _ ha hb => Agree.refl trace past op a b ha hb
  · have hcounted : failedOnce.retryCount = failedOnce.retryCount + 1 := h.counted
    omega

/-- The chain cannot be reached. -/
def down (_ : List Event) : (op : Op) → Ans op
  | .findSpend .. => .error unreachable
  | op => idle op

/-- The same swap without the reorg. -/
def watched : SwapRecord := { funded with reorgSeenAtHeight := none }

/-- What the driver exchanges while the chain cannot be reached. -/
def outage : List Event := ((reverseRun swap 2 watched 2).play down []).1

/-- The records of the outage. -/
def outageRecords : ℕ → SwapRecord
  | 0 => watched
  | k + 1 => ((outageRecords k).recordFailure 100 0 (.swap unreachable) true).1

/-- The funds stay at risk, and what the driver is resumed with stays the same. -/
theorem outageRecords_kept (k : ℕ) : (outageRecords k).fundsAtRisk = true ∧
    (outageRecords k).resume = watched.resume ∧ (outageRecords k).requiredConfirmations = 1 := by
  induction k with
  | zero => decide +kernel
  | succ k ih =>
      obtain ⟨hrisk, hresume, hrequired⟩ := ih
      have h := SwapRecord.reentered_of_finishDriverRun
        (SwapRecord.finishDriverRun_of_fundsAtRisk hrisk 100 0 (.swap unreachable))
      refine ⟨?_, h.resume.trans hresume, h.requiredConfirmations.trans hrequired⟩
      simp only [outageRecords, SwapRecord.recordFailure, SwapRecord.updated, if_true]
      exact hrisk

def failing : Reentry (reverseRun swap 2) where
  records := outageRecords
  traces _ := outage
  errors _ := .swap unreachable
  delays k := backoff 0 (Word.saturatingAdd 32 (outageRecords k).retryCount 1)
  clocks _ _ := 100
  runs k := ⟨2, run_of_play (outageRecords_kept k).2.1 (outageRecords_kept k).2.2
    (by decide +kernel)⟩
  reenters k := ⟨100, 0,
    SwapRecord.finishDriverRun_of_fundsAtRisk (outageRecords_kept k).1 100 0 (.swap unreachable)⟩

/-- An outage is noticed: its failures are counted. -/
theorem noticed_in_outage :
    failing.Climbs 0 ∧ ∃ n, needsRecovery (failing.records n) = true := by
  have hcalls : outage.map Sigma.fst =
      [.wantsClaimable, .receiveDestination, .findSpend [] outpoint] := by
    decide +kernel
  have hnot (k : ℕ) : ¬failing.Reestablished k := by
    rintro ⟨-, -, txid, event, hmem, hop⟩
    have hmem' : event.1 ∈ outage.map Sigma.fst := List.mem_map_of_mem hmem
    rw [hop, hcalls] at hmem'
    simp at hmem'
  obtain ⟨hclimbs, hnoticed⟩ := counts_failures.2 swap 2 failing
  refine ⟨(hclimbs 0 rfl).mpr ⟨hnot 1, by decide +kernel⟩, hnoticed ?_ hnot⟩
  exact fun _ _ past op a b _ ha hb => Agree.refl outage past op a b ha hb

end ForgottenFailures

end PubkySwap
