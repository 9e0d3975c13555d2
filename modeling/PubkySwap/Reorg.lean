import PubkySwap.Lib.KeyedMap
import PubkySwap.Lib.Word
import PubkySwap.Bitcoin

/-!
# Detecting chain reorganizations

A monitor keeps checkpoints, the hash it last saw at a height, and compares them with
the last blocks of the chain each time it is called.  Checkpoints outlive the window
they were sampled in, are dropped from a fork upward, overwritten by the new sample and
trimmed from below, all in one pass; a reorg it misses is missed silently.

What one call reports is the lowest checkpoint the chain contradicts
(`observe_eq_some`).  What it leaves behind is `Settled`: nothing the chain
contradicts any more, and the hash of every height of the window, because a monitor
that keeps at least a window never trims into it.
-/

namespace PubkySwap

/-- `BlockHash`. -/
abbrev BlockHash : Type := Bytes32

/-- `WATCHED_DEPTH`: how many blocks below the tip a monitor keeps under watch. -/
def watchedDepth : ℕ := 24

/-- What a call reads of the chain: the tip, and the hashes of so many heights from a
first one on. -/
structure ChainView where
  tipHeight : Except SwapError ℕ
  blockHashesFrom : ℕ → ℕ → Except SwapError (List BlockHash)

/-- `ReorgMonitor`. -/
structure ReorgMonitor where
  checkpoints : AList fun _ : ℕ => BlockHash
  maxCheckpoints : ℕ

namespace ReorgMonitor

/-- `new`. -/
def new (maxCheckpoints : ℕ) : ReorgMonitor where
  checkpoints := ∅
  maxCheckpoints := max maxCheckpoints 1

/-- The sample of a call, by height. -/
def sample (start : ℕ) (hashes : List BlockHash) : AList fun _ : ℕ => BlockHash :=
  AList.collect (hashes.zipIdx.map fun entry => (Word.saturatingAdd 32 start entry.2, entry.1))

/-- One checkpoint in the loop of `observe`, and the fork found so far. -/
def compare (tip : ℕ) (observed : AList fun _ : ℕ => BlockHash) (fork : Option ℕ)
    (height : ℕ) (oldHash : BlockHash) : Option ℕ :=
  let lowered := some (match fork with
    | none => height
    | some f => min f height)
  if tip < height then lowered
  else
    match observed.lookup height with
    -- A height below the window is older than what was asked for, and no evidence.
    | none => fork
    | some current => if current ≠ oldHash then lowered else fork

/-- The loop of `observe` over the checkpoints. -/
def findFork (tip : ℕ) (observed : AList fun _ : ℕ => BlockHash)
    (checkpoints : List (Sigma fun _ : ℕ => BlockHash)) : Option ℕ :=
  checkpoints.foldl (fun fork e => compare tip observed fork e.1 e.2) none

/-- The checkpoints a call keeps: those below the fork, under the new sample, as many of
the highest as are allowed. -/
def keep (monitor : ReorgMonitor) (observed : AList fun _ : ℕ => BlockHash) (fork : Option ℕ) :
    AList fun _ : ℕ => BlockHash :=
  let below := match fork with
    | some forkHeight => monitor.checkpoints.retain fun h _ => h < forkHeight
    | none => monitor.checkpoints
  let extended := observed ∪ below
  AList.trim (extended.size - monitor.maxCheckpoints) extended

/-- `observe`: a failed read changes nothing. -/
def observe (monitor : ReorgMonitor) (chain : ChainView) :
    Except SwapError (Option ℕ) × ReorgMonitor :=
  match chain.tipHeight with
  | .error e => (.error e, monitor)
  | .ok tip =>
      let start := tip - (watchedDepth - 1)
      match chain.blockHashesFrom start watchedDepth with
      | .error e => (.error e, monitor)
      | .ok hashes =>
          let observed := sample start hashes
          let fork := findFork tip observed monitor.checkpoints.entries
          (.ok fork, { monitor with checkpoints := monitor.keep observed fork })

/-! ## The loop -/

/-- A checkpoint the sample contradicts: above the tip, or sampled with another hash. -/
def Contradicts (tip : ℕ) (observed : AList fun _ : ℕ => BlockHash) (height : ℕ)
    (oldHash : BlockHash) : Prop :=
  tip < height ∨ ∃ current, observed.lookup height = some current ∧ current ≠ oldHash

theorem compare_eq (tip : ℕ) (observed : AList fun _ : ℕ => BlockHash) (fork : Option ℕ)
    (height : ℕ) (oldHash : BlockHash) :
    (Contradicts tip observed height oldHash ∧
        compare tip observed fork height oldHash =
          some (match fork with
            | none => height
            | some f => min f height)) ∨
      (¬Contradicts tip observed height oldHash ∧
        compare tip observed fork height oldHash = fork) := by
  unfold compare Contradicts
  by_cases htip : tip < height
  · exact .inl ⟨.inl htip, if_pos htip⟩
  · rw [if_neg htip]
    cases hlook : observed.lookup height with
    | none =>
        refine .inr ⟨?_, rfl⟩
        rintro (h | ⟨current, h, -⟩)
        · exact htip h
        · exact absurd h nofun
    | some current =>
        by_cases hsame : current = oldHash
        · refine .inr ⟨?_, if_neg (not_not.mpr hsame)⟩
          rintro (h | ⟨found, h, hne⟩)
          · exact htip h
          · exact hne (Option.some.inj h ▸ hsame)
        · exact .inl ⟨.inr ⟨current, rfl, hsame⟩, if_pos hsame⟩

/-- **The loop finds the lowest contradicted checkpoint.** -/
theorem findFork_eq (tip : ℕ) (observed : AList fun _ : ℕ => BlockHash)
    (checkpoints : List (Sigma fun _ : ℕ => BlockHash)) :
    (∀ f, findFork tip observed checkpoints = some f →
      IsLeast {h | ∃ old, (⟨h, old⟩ : Sigma fun _ : ℕ => BlockHash) ∈ checkpoints ∧
        Contradicts tip observed h old} f) ∧
    (findFork tip observed checkpoints = none →
      ∀ e ∈ checkpoints, ¬Contradicts tip observed e.1 e.2) := by
  induction checkpoints using List.reverseRecOn with
  | nil => exact ⟨nofun, fun _ e he => absurd he List.not_mem_nil⟩
  | append_singleton checkpoints e ih =>
      obtain ⟨hsome, hnone⟩ := ih
      have hlast : findFork tip observed (checkpoints ++ [e]) =
          compare tip observed (findFork tip observed checkpoints) e.1 e.2 := by
        rw [findFork, List.foldl_append]
        rfl
      rw [hlast]
      rcases compare_eq tip observed (findFork tip observed checkpoints) e.1 e.2 with
        ⟨hbad, heq⟩ | ⟨hfine, heq⟩
      · refine ⟨fun f hf => ?_, fun h => absurd (heq.symm.trans h) nofun⟩
        rw [heq] at hf
        cases hfork : findFork tip observed checkpoints with
        | none =>
            rw [hfork] at hf
            obtain rfl : e.1 = f := Option.some.inj hf
            refine ⟨⟨e.2, List.mem_append_right _ (List.mem_singleton.mpr rfl), hbad⟩, ?_⟩
            rintro h ⟨old, hmem, hcontra⟩
            rcases List.mem_append.mp hmem with hmem | hmem
            · exact absurd hcontra (hnone hfork _ hmem)
            · exact (congrArg Sigma.fst (List.mem_singleton.mp hmem)).ge
        | some g =>
            rw [hfork] at hf
            obtain rfl : min g e.1 = f := Option.some.inj hf
            obtain ⟨⟨old, hmem, hcontra⟩, hleast⟩ := hsome g hfork
            refine ⟨?_, ?_⟩
            · rcases min_choice g e.1 with hmin | hmin
              · rw [hmin]
                exact ⟨old, List.mem_append_left _ hmem, hcontra⟩
              · rw [hmin]
                exact ⟨e.2, List.mem_append_right _ (List.mem_singleton.mpr rfl), hbad⟩
            · rintro h ⟨old', hmem', hcontra'⟩
              rcases List.mem_append.mp hmem' with hmem' | hmem'
              · exact (min_le_left _ _).trans (hleast ⟨old', hmem', hcontra'⟩)
              · exact (min_le_right _ _).trans
                  (congrArg Sigma.fst (List.mem_singleton.mp hmem')).ge
      · rw [heq]
        refine ⟨fun f hf => ?_, fun hnil e' he' => ?_⟩
        · obtain ⟨⟨old, hmem, hcontra⟩, hleast⟩ := hsome f hf
          refine ⟨⟨old, List.mem_append_left _ hmem, hcontra⟩, ?_⟩
          rintro h ⟨old', hmem', hcontra'⟩
          rcases List.mem_append.mp hmem' with hmem' | hmem'
          · exact hleast ⟨old', hmem', hcontra'⟩
          · obtain rfl := List.mem_singleton.mp hmem'
            exact absurd hcontra' hfine
        · rcases List.mem_append.mp he' with he' | he'
          · exact hnone hnil e' he'
          · exact List.mem_singleton.mp he' ▸ hfine

end ReorgMonitor

/-! ## Consistent snapshots -/

/-- A chain at one moment: a tip, and the hash of every height up to it. -/
structure Snapshot where
  tip : ℕ
  hashAt : ℕ → BlockHash
  /-- Heights are 32-bit. -/
  tip_lt : tip < 2 ^ 32

namespace Snapshot

/-- What a call reads of a snapshot: the hashes asked for, cut off past the tip. -/
def view (chain : Snapshot) : ChainView where
  tipHeight := .ok chain.tip
  blockHashesFrom start count :=
    .ok ((List.range (min count (chain.tip + 1 - start))).map fun i => chain.hashAt (start + i))

/-- The last `WATCHED_DEPTH` heights. -/
def Watches (chain : Snapshot) (height : ℕ) : Prop :=
  height ≤ chain.tip ∧ chain.tip < height + watchedDepth

/-- The sample of a consistent chain. -/
def sample (chain : Snapshot) : AList fun _ : ℕ => BlockHash :=
  ReorgMonitor.sample (chain.tip - (watchedDepth - 1))
    ((List.range (min watchedDepth (chain.tip + 1 - (chain.tip - (watchedDepth - 1))))).map
      fun i => chain.hashAt (chain.tip - (watchedDepth - 1) + i))

/-- What the sample was collected from. -/
theorem sample_eq (chain : Snapshot) :
    chain.sample = AList.collect ((List.range (min watchedDepth
      (chain.tip + 1 - (chain.tip - (watchedDepth - 1))))).map fun i =>
        (chain.tip - (watchedDepth - 1) + i,
          chain.hashAt (chain.tip - (watchedDepth - 1) + i))) := by
  rw [sample, ReorgMonitor.sample]
  congr 1
  apply List.ext_getElem
  · simp
  · intro i hi hi'
    simp only [List.length_map, List.length_range, List.length_zipIdx] at hi hi'
    have htip := chain.tip_lt
    have hfits : Word.saturatingAdd 32 (chain.tip - (watchedDepth - 1)) i =
        chain.tip - (watchedDepth - 1) + i := by
      unfold Word.saturatingAdd Word.maxValue
      omega
    simp [hfits]

/-- **The sample is the window**, and nothing else. -/
theorem lookup_sample (chain : Snapshot) (height : ℕ) (hash : BlockHash) :
    chain.sample.lookup height = some hash ↔
      chain.Watches height ∧ hash = chain.hashAt height := by
  have hwindow (i : ℕ) : i < min watchedDepth (chain.tip + 1 - (chain.tip - (watchedDepth - 1))) ↔
      chain.Watches (chain.tip - (watchedDepth - 1) + i) := by
    unfold Watches watchedDepth
    omega
  rw [sample_eq]
  constructor
  · intro h
    obtain ⟨i, hi, heq⟩ := List.mem_map.mp (AList.mem_of_lookup_collect h)
    cases heq
    exact ⟨(hwindow i).mp (List.mem_range.mp hi), rfl⟩
  · rintro ⟨hwatched, rfl⟩
    refine AList.lookup_collect ?_ (List.mem_map.mpr
      ⟨height - (chain.tip - (watchedDepth - 1)), List.mem_range.mpr ?_, ?_⟩)
    · rw [List.map_map]
      exact List.nodup_range.map fun i j hij => Nat.add_left_cancel hij
    · rw [hwindow]
      unfold Watches watchedDepth at hwatched ⊢
      omega
    · have hsum : chain.tip - (watchedDepth - 1) + (height - (chain.tip - (watchedDepth - 1))) =
          height := by
        unfold Watches watchedDepth at hwatched
        unfold watchedDepth
        omega
      rw [hsum]

end Snapshot

namespace ReorgMonitor

variable {monitor : ReorgMonitor} {chain : Snapshot}

/-- What a call on a consistent snapshot does. -/
theorem observe_view (monitor : ReorgMonitor) (chain : Snapshot) :
    monitor.observe chain.view =
      (.ok (findFork chain.tip chain.sample monitor.checkpoints.entries),
        { monitor with
          checkpoints := monitor.keep chain.sample
            (findFork chain.tip chain.sample monitor.checkpoints.entries) }) := rfl

/-- A retained checkpoint the chain contradicts: it is above the tip, or lies in the
window with another hash. -/
def Disagrees (monitor : ReorgMonitor) (chain : Snapshot) (height : ℕ) : Prop :=
  ∃ old, monitor.checkpoints.lookup height = some old ∧
    (chain.tip < height ∨ (chain.Watches height ∧ chain.hashAt height ≠ old))

theorem disagrees_iff (height : ℕ) : monitor.Disagrees chain height ↔
    ∃ old, (⟨height, old⟩ : Sigma fun _ : ℕ => BlockHash) ∈ monitor.checkpoints.entries ∧
      Contradicts chain.tip chain.sample height old := by
  refine exists_congr fun old => and_congr AList.lookup_eq_some_iff (or_congr_right ?_)
  constructor
  · rintro ⟨hwatched, hne⟩
    exact ⟨_, (chain.lookup_sample _ _).mpr ⟨hwatched, rfl⟩, hne⟩
  · rintro ⟨current, hlook, hne⟩
    obtain ⟨hwatched, rfl⟩ := (chain.lookup_sample _ _).mp hlook
    exact ⟨hwatched, hne⟩

/-- **The report is the lowest contradicted checkpoint.** -/
theorem observe_eq_some (f : ℕ) : (monitor.observe chain.view).1 = .ok (some f) ↔
    IsLeast {h | monitor.Disagrees chain h} f := by
  obtain ⟨hsome, hnone⟩ := findFork_eq chain.tip chain.sample monitor.checkpoints.entries
  have hset : {h | monitor.Disagrees chain h} =
      {h | ∃ old, (⟨h, old⟩ : Sigma fun _ : ℕ => BlockHash) ∈ monitor.checkpoints.entries ∧
        Contradicts chain.tip chain.sample h old} := by
    ext height
    exact disagrees_iff height
  rw [observe_view, Except.ok.injEq, hset]
  constructor
  · exact hsome f
  · intro hleast
    cases hfork : findFork chain.tip chain.sample monitor.checkpoints.entries with
    | none =>
        obtain ⟨old, hmem, hcontra⟩ := hleast.1
        exact absurd hcontra (hnone hfork _ hmem)
    | some g => rw [(hsome g hfork).unique hleast]

theorem observe_eq_none : (monitor.observe chain.view).1 = .ok none ↔
    ∀ h, ¬monitor.Disagrees chain h := by
  obtain ⟨-, hnone⟩ := findFork_eq chain.tip chain.sample monitor.checkpoints.entries
  constructor
  · intro h height hbad
    obtain ⟨old, hmem, hcontra⟩ := (disagrees_iff height).mp hbad
    exact hnone (Except.ok.inj h) _ hmem hcontra
  · intro h
    cases hfork : findFork chain.tip chain.sample monitor.checkpoints.entries with
    | none => rw [observe_view, hfork]
    | some f =>
        have hreport : (monitor.observe chain.view).1 = .ok (some f) := by
          rw [observe_view, hfork]
        exact absurd ((observe_eq_some f).mp hreport).1 (h f)

/-! ## What a call leaves behind -/

/-- The monitor has nothing against the chain, and knows every hash of its window. -/
structure Settled (monitor : ReorgMonitor) (chain : Snapshot) : Prop where
  agrees : ∀ h, ¬monitor.Disagrees chain h
  window : ∀ h, chain.Watches h → monitor.checkpoints.lookup h = some (chain.hashAt h)

/-- The checkpoints below the fork. -/
theorem lookup_below {fork : Option ℕ} {h : ℕ} {old : BlockHash} :
    ((match fork with
      | some forkHeight => monitor.checkpoints.retain fun h _ => h < forkHeight
      | none => monitor.checkpoints).lookup h = some old) ↔
      monitor.checkpoints.lookup h = some old ∧ ∀ f, fork = some f → h < f := by
  cases fork with
  | none => simp
  | some f => simp [AList.lookup_retain]

/-- **What is kept below the fork the chain does not contradict.** -/
theorem agrees_below {h : ℕ} {old : BlockHash} (hlook : monitor.checkpoints.lookup h = some old)
    (hbelow : ∀ f, findFork chain.tip chain.sample monitor.checkpoints.entries = some f → h < f) :
    h ≤ chain.tip ∧ (chain.Watches h → chain.hashAt h = old) := by
  have hfine : ¬monitor.Disagrees chain h := by
    intro hbad
    cases hfork : findFork chain.tip chain.sample monitor.checkpoints.entries with
    | none =>
        have hnone : (monitor.observe chain.view).1 = .ok none := by rw [observe_view, hfork]
        exact observe_eq_none.mp hnone h hbad
    | some f =>
        have hsome : (monitor.observe chain.view).1 = .ok (some f) := by rw [observe_view, hfork]
        exact absurd (((observe_eq_some f).mp hsome).2 hbad) (not_le.mpr (hbelow f hfork))
  refine ⟨not_lt.mp fun htip => hfine ⟨old, hlook, .inl htip⟩, fun hwatched => ?_⟩
  by_contra hne
  exact hfine ⟨old, hlook, .inr ⟨hwatched, hne⟩⟩

theorem observe_settled (hmax : watchedDepth ≤ monitor.maxCheckpoints) :
    Settled (monitor.observe chain.view).2 chain := by
  rw [observe_view]
  set fork := findFork chain.tip chain.sample monitor.checkpoints.entries with hfork
  set below := match fork with
    | some forkHeight => monitor.checkpoints.retain fun h _ => h < forkHeight
    | none => monitor.checkpoints with hbelow
  -- an entry before the trimming is one of the sample, or an old one below the fork
  have hextended (h : ℕ) (old : BlockHash) (hlook : (chain.sample ∪ below).lookup h = some old) :
      h ≤ chain.tip ∧ (chain.Watches h → chain.hashAt h = old) := by
    rcases AList.lookup_union_eq_some.mp hlook with hlook | ⟨hout, hlook⟩
    · obtain ⟨hwatched, rfl⟩ := (chain.lookup_sample _ _).mp hlook
      exact ⟨hwatched.1, fun _ => rfl⟩
    · obtain ⟨hlook, hlow⟩ := lookup_below.mp hlook
      exact agrees_below hlook hlow
  have hwindow (h : ℕ) (hwatched : chain.Watches h) :
      (chain.sample ∪ below).lookup h = some (chain.hashAt h) :=
    AList.lookup_union_eq_some.mpr (.inl ((chain.lookup_sample _ _).mpr ⟨hwatched, rfl⟩))
  have hheld : ∀ k ∈ Finset.Icc (chain.tip - (watchedDepth - 1)) chain.tip,
      k ∈ chain.sample ∪ below := by
    intro k hk
    refine AList.mem_of_lookup (hwindow k ?_)
    have hk := Finset.mem_Icc.mp hk
    unfold Snapshot.Watches watchedDepth
    unfold watchedDepth at hk
    omega
  constructor
  · rintro h ⟨old, hlook, hbad⟩
    obtain ⟨htip, hsame⟩ := hextended h old (AList.lookup_of_lookup_trim hlook)
    rcases hbad with hbad | ⟨hwatched, hne⟩
    · exact absurd hbad (not_lt.mpr htip)
    · exact hne (hsame hwatched)
  · intro h hwatched
    refine (AList.lookup_trim (Finset.Icc (chain.tip - (watchedDepth - 1)) chain.tip)
      hheld ?_ ?_ ?_).trans (hwindow h hwatched)
    · intro k hk low hlow hout
      obtain ⟨old, hlook⟩ := AList.mem_iff_lookup.mp hlow
      have htip := (hextended low old hlook).1
      have hk := Finset.mem_Icc.mp hk
      rw [Finset.mem_Icc] at hout
      omega
    · have hsize := AList.card_le_size hheld
      have hcard : (Finset.Icc (chain.tip - (watchedDepth - 1)) chain.tip).card ≤ watchedDepth := by
        rw [Nat.card_Icc]
        unfold watchedDepth
        omega
      show _ + ((chain.sample ∪ below).size - monitor.maxCheckpoints) ≤ (chain.sample ∪ below).size
      omega
    · unfold Snapshot.Watches at hwatched
      refine Finset.mem_Icc.mpr ?_
      unfold watchedDepth at hwatched ⊢
      omega

/-! ## Histories -/

/-- The monitor after it has been called on these chains, one after the other. -/
def watch (monitor : ReorgMonitor) (seen : List Snapshot) : ReorgMonitor :=
  seen.foldl (fun monitor chain => (monitor.observe chain.view).2) monitor

theorem maxCheckpoints_watch (monitor : ReorgMonitor) (seen : List Snapshot) :
    (monitor.watch seen).maxCheckpoints = monitor.maxCheckpoints := by
  induction seen generalizing monitor with
  | nil => rfl
  | cons chain seen ih => exact ih (monitor.observe chain.view).2

theorem settled_watch (hmax : watchedDepth ≤ monitor.maxCheckpoints) {seen : List Snapshot}
    {last : Snapshot} (hlast : seen.getLast? = some last) : Settled (monitor.watch seen) last := by
  obtain ⟨before, rfl⟩ := List.getLast?_eq_some_iff.mp hlast
  have hwatch :
      monitor.watch (before ++ [last]) = ((monitor.watch before).observe last.view).2 := by
    rw [watch, List.foldl_append]
    rfl
  rw [hwatch]
  refine observe_settled ?_
  rw [maxCheckpoints_watch]
  exact hmax

/-- **Reorg detection is exact on the watched window.**  After any history of consistent
snapshots, a call reports the lowest retained checkpoint that is above the tip or lies in
the window with another hash, and nothing if there is none; the same chain seen again is
not reported again; and every height of two consecutive windows whose block was replaced
is at or above the reported fork. -/
theorem observe_exact (maxCheckpoints : ℕ) (hmax : watchedDepth ≤ maxCheckpoints)
    (seen : List Snapshot) (next : Snapshot) :
    (∀ f, (((new maxCheckpoints).watch seen).observe next.view).1 = .ok (some f) ↔
      IsLeast {h | ((new maxCheckpoints).watch seen).Disagrees next h} f) ∧
    ((((new maxCheckpoints).watch seen).observe next.view).1 = .ok none ↔
      ∀ h, ¬((new maxCheckpoints).watch seen).Disagrees next h) ∧
    ((((new maxCheckpoints).watch seen).observe next.view).2.observe next.view).1 = .ok none ∧
    ∀ last, seen.getLast? = some last →
      ∀ h, last.Watches h → next.Watches h → last.hashAt h ≠ next.hashAt h →
        ∃ f, (((new maxCheckpoints).watch seen).observe next.view).1 = .ok (some f) ∧ f ≤ h := by
  have hnew : watchedDepth ≤ (new maxCheckpoints).maxCheckpoints := le_max_of_le_left hmax
  have hmonitor : watchedDepth ≤ ((new maxCheckpoints).watch seen).maxCheckpoints := by
    rw [maxCheckpoints_watch]
    exact hnew
  refine ⟨observe_eq_some, observe_eq_none, observe_eq_none.mpr (observe_settled hmonitor).agrees,
    ?_⟩
  intro last hlast h hbefore hafter hreplaced
  have hknown := (settled_watch hnew hlast).window h hbefore
  have hbad : ((new maxCheckpoints).watch seen).Disagrees next h :=
    ⟨_, hknown, .inr ⟨hafter, hreplaced.symm⟩⟩
  cases hreport : (((new maxCheckpoints).watch seen).observe next.view).1 with
  | error e => rw [observe_view] at hreport; cases hreport
  | ok fork =>
      cases fork with
      | none => exact absurd hbad (observe_eq_none.mp hreport h)
      | some f => exact ⟨f, rfl, ((observe_eq_some f).mp hreport).2 hbad⟩

/-- A block two below the tip is replaced while the chain grows. -/
def grown (replaced : Bool) : Snapshot where
  tip := if replaced then 101 else 100
  hashAt h := Bytes32.ofNat (if replaced ∧ 98 ≤ h then h + 1000 else h)
  tip_lt := by cases replaced <;> decide

/-- **The case only a window can see**: the fork is at or below the replaced block. -/
theorem observe_exact_grown :
    ∃ f, (((new 100).watch [grown false]).observe (grown true).view).1 = .ok (some f) ∧ f ≤ 98 := by
  have hbefore : (grown false).Watches 98 := ⟨by decide, by decide⟩
  have hafter : (grown true).Watches 98 := ⟨by decide, by decide⟩
  have hreplaced : (grown false).hashAt 98 ≠ (grown true).hashAt 98 := by decide +kernel
  exact (observe_exact 100 (by decide) [grown false] (grown true)).2.2.2 (grown false) rfl 98
    hbefore hafter hreplaced

end ReorgMonitor

end PubkySwap
