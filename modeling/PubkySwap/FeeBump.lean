import PubkySwap.Environment

/-!
# Driving a spend to confirmation

`confirmOrBump` puts a claim or refund on the wire and watches it against fee
pressure and against a rival.  It ends on one of its own transactions being deep
enough, on a spend it does not recognise as its own, or on a deadline; every
round of the watch asks first who spends the output and only then how deep its
own transaction is.

What it recognises as its own is a set: the transactions an earlier run recorded
and those the chain accepted from it in this call.  `bump_sound` is its
specification in terms of the exchange alone.
-/

namespace PubkySwap

open BitcoinScript (Bytes)
open Program (orThrow iterate Sound Logged OnOk Always RoundMeets OnlyCalls onlyCalls_ask
  sound_logged_call sound_orThrow_bind onlyCalls_pure onlyCalls_orThrow
  onlyCalls_orThrow_bind onOk_ok)

/-! ## Configuration and outcome -/

/-- How a spend should be driven. -/
structure SpendWatchConfig where
  feeTargetBlocks : ℕ
  /-- The operator's floor, both the fallback and the minimum. -/
  floorRateSatVb : ℕ
  capRateSatVb : ℕ
  poll : ℕ
  /-- Depth at which the spend is final. -/
  minConfirmations : ℕ
  /-- The height a claim must confirm by; a refund has none. -/
  deadlineHeight : Option ℕ
  maxWallDuration : ℕ := durationFromSecs (6 * 60 * 60)
  maxIterations : ℕ := 100000
  /-- Spends an earlier run of this swap broadcast. -/
  knownOurs : List Txid := []

/-- `SpendWatchConfig::claim`. -/
def SpendWatchConfig.claim (feeTargetBlocks floorRateSatVb capRateSatVb poll minConfirmations
    deadlineHeight : ℕ) : SpendWatchConfig where
  feeTargetBlocks := feeTargetBlocks
  floorRateSatVb := floorRateSatVb
  capRateSatVb := capRateSatVb
  poll := poll
  minConfirmations := minConfirmations
  deadlineHeight := some deadlineHeight

/-- `SpendWatchConfig::refund`. -/
def SpendWatchConfig.refund (feeTargetBlocks floorRateSatVb capRateSatVb poll
    minConfirmations : ℕ) : SpendWatchConfig where
  feeTargetBlocks := feeTargetBlocks
  floorRateSatVb := floorRateSatVb
  capRateSatVb := capRateSatVb
  poll := poll
  minConfirmations := minConfirmations
  deadlineHeight := none

/-- `with_known_ours`. -/
def SpendWatchConfig.withKnownOurs (cfg : SpendWatchConfig) (txids : List Txid) :
    SpendWatchConfig :=
  { cfg with knownOurs := txids }

/-- How driving a spend ended. -/
inductive SpendOutcome where
  | confirmed (txid : Txid)
  | conflictingSpend (tx : Transaction)
  | deadlineExceeded (lastTxid : Txid) (tip : ℕ)

/-- The arguments of a call: the output, the configuration, and the closures.
`note` is what `on_spend` does to the state it captures, besides reporting the
transaction to the progress sink. -/
structure SpendJob (τ : Type) where
  spk : Bytes
  outpoint : OutPoint
  cfg : SpendWatchConfig
  cpfp : Option (Txid → ℕ → Driver SwapError (Option Txid))
  note : τ → Txid → τ
  build : ℕ → Except SwapError Transaction

/-- Both drivers' fallback: a child of the spend's only output. -/
def walletCpfp (parent : Txid) (rate : ℕ) : Driver SwapError (Option Txid) := do
  match ← cpfpBump ⟨parent, 0⟩ rate with
  | .ok child => pure child
  | .error _ => pure none

/-! ## Fee rates -/

/-- An estimate, a failed call reading as none. -/
def estimate (targetBlocks : ℕ) : Driver SwapError (Option ℕ) := do
  match ← estimateFeeRate targetBlocks with
  | .ok rate => pure rate
  | .error _ => pure none

/-- `deadline_fee_rate`. -/
def deadlineFeeRate (tip : ℕ) (deadlineHeight : Option ℕ) (previous floorSatVb capSatVb : ℕ) :
    Driver SwapError ℕ :=
  let cap := max capSatVb floorSatVb
  let remaining := remainingBlocks tip deadlineHeight
  -- Inside the last few blocks there is nothing left to optimise.
  if remaining ≤ 2 then pure cap
  else do
    let estimated ← estimate (targetForRemaining remaining)
    pure (min (max (estimated.getD 0) (minBump previous floorSatVb)) cap)

/-! ## The watch -/

/-- What the watch carries from round to round. -/
structure Watch (τ : Type) where
  rate : ℕ
  /-- Every transaction of ours that is on the wire. -/
  ours : List Txid
  /-- The one watched at present. -/
  txid : Txid
  iterations : ℕ
  seen : τ

section

variable [Crypto] {τ : Type} (job : SpendJob τ)

/-- Report a transaction, then put it on the wire. -/
def announce (seen : τ) (tx : Transaction) : Driver SwapError (τ × Except SwapError Txid) := do
  spendBroadcast (Crypto.computeTxid tx)
  let answer ← broadcast tx
  pure (job.note seen (Crypto.computeTxid tx), answer)

/-- A spend of an earlier run that is still the live one. -/
def liveSpend : Driver SwapError (Option Txid) :=
  if job.cfg.knownOurs.isEmpty then pure none
  else do
    let spend ← findSpend id job.spk job.outpoint
    pure ((spend.map Crypto.computeTxid).filter (· ∈ job.cfg.knownOurs))

/-- Adopt the live spend or broadcast a first one. -/
def firstSpend (seen : τ) (rate : ℕ) : Option Txid → Driver SwapError (Txid × τ)
  | some txid => pure (txid, seen)
  | none => do
      let initial ← orThrow id (job.build rate)
      let (seen, answer) ← announce job seen initial
      let txid ← orThrow id answer
      pure (txid, seen)

/-- Not in the mempool and not in a block: get it back on the wire. -/
def rebroadcast (w : Watch τ) : Driver SwapError (Watch τ) :=
  match job.build w.rate with
  | .error _ => pure w
  | .ok tx => do
      let (seen, answer) ← announce job w.seen tx
      match answer with
      | .ok txid => pure { w with ours := txid :: w.ours, txid := txid, seen := seen }
      | .error _ => pure { w with seen := seen }

/-- The fallback when a replacement is rejected. -/
def pullIn (parent : Txid) (rate : ℕ) : Driver SwapError (Option Txid) :=
  match job.cpfp with
  | some bump => bump parent rate
  | none => pure none

/-- Unconfirmed: replace it, or pull it in with a child, if the deadline says so. -/
def escalate (tip : ℕ) (w : Watch τ) : Driver SwapError (Watch τ) := do
  let next ← deadlineFeeRate tip job.cfg.deadlineHeight w.rate job.cfg.floorRateSatVb
    job.cfg.capRateSatVb
  if next ≤ w.rate then pure w
  else
    match job.build next with
    -- The fee would dust the output: let the current transaction ride.
    | .error _ => pure w
    | .ok replacement => do
        let (seen, answer) ← announce job w.seen replacement
        match answer with
        | .ok txid =>
            pure { w with ours := txid :: w.ours, txid := txid, rate := next, seen := seen }
        | .error _ =>
            let child ← pullIn job w.txid next
            pure (if child.isSome then { w with rate := next, seen := seen }
              else { w with seen := seen })

/-- The end of a round: a deadline, a ceiling, or another round after a pause. -/
def handBack (started : Instant) (tip : ℕ) (w : Watch τ) :
    Driver SwapError (Watch τ ⊕ (SpendOutcome × τ)) :=
  if job.cfg.deadlineHeight.any (· ≤ tip) then
    pure (.inr (.deadlineExceeded w.txid tip, w.seen))
  else do
    let instant ← now
    if job.cfg.maxWallDuration ≤ instant - started ∨ job.cfg.maxIterations ≤ w.iterations then
      pure (.inr (.deadlineExceeded w.txid tip, w.seen))
    else do
      sleep job.cfg.poll
      pure (.inl w)

/-- How deep our transaction is, and what that calls for. -/
def checkDepth (started : Instant) (tip : ℕ) (w : Watch τ) :
    Driver SwapError (Watch τ ⊕ (SpendOutcome × τ)) := do
  match ← txConfirmations id job.spk w.txid with
  | some confirmations =>
      if job.cfg.minConfirmations ≤ confirmations then
        pure (.inr (.confirmed w.txid, w.seen))
      else if confirmations = 0 then do
        let w ← escalate job tip w
        handBack job started tip w
      else handBack job started tip w
  | none => do
      let w ← rebroadcast job w
      handBack job started tip w

/-- One round: the tip, the spender, the depth. -/
def watchRound (started : Instant) (w : Watch τ) :
    Driver SwapError (Watch τ ⊕ (SpendOutcome × τ)) := do
  let w := { w with iterations := w.iterations + 1 }
  let tip ← tipHeight id
  match ← findSpend id job.spk job.outpoint with
  | some spend =>
      if Crypto.computeTxid spend ∉ w.ours then pure (.inr (.conflictingSpend spend, w.seen))
      else checkDepth job started tip { w with txid := Crypto.computeTxid spend }
  | none => checkDepth job started tip w

/-- `confirm_or_bump`.  Beside the outcome it returns what the closures captured. -/
def confirmOrBump (fuel : ℕ) (seen : τ) : Driver SwapError (SpendOutcome × τ) := do
  let first ← estimate job.cfg.feeTargetBlocks
  let rate := resolveFeeRate first job.cfg.floorRateSatVb job.cfg.capRateSatVb
  let live ← liveSpend job
  let (txid, seen) ← firstSpend job seen rate live
  let started ← now
  iterate (watchRound job started) fuel
    { rate := rate, ours := txid :: job.cfg.knownOurs, txid := txid, iterations := 0,
      seen := seen }

end

/-- What a driver that spends an HTLC is written over: what becomes of a part of it that is
plain, and of a call of the fee-bump loop. -/
structure Bumping (Op' : Type) (Ans' : Op' → Type) where
  lift : {ε α : Type} → Driver ε α → Program Op' Ans' ε α
  bump : {τ : Type} → SpendJob τ → ℕ → τ → Program Op' Ans' SwapError (SpendOutcome × τ)

/-- As the drivers run: a plain part as it is, and `confirm_or_bump` itself. -/
@[reducible] def bumping [Crypto] : Bumping Op Ans where
  lift := fun p => p
  bump := confirmOrBump

/-! ## The calls it makes -/

/-- The calls that driving a job makes all satisfy `P`. -/
structure JobCalls [Crypto] {τ : Type} (job : SpendJob τ) (P : Op → Prop) : Prop where
  tip : P .tipHeight
  rates : ∀ targetBlocks, P (.estimateFeeRate targetBlocks)
  spend : P (.findSpend job.spk job.outpoint)
  depth : ∀ txid, P (.txConfirmations job.spk txid)
  reports : ∀ txid, P (.spendBroadcast txid)
  publishes : ∀ rate tx, job.build rate = .ok tx → P (.broadcast tx)
  pulls : ∀ bump, job.cpfp = some bump → ∀ parent rate, OnlyCalls P (bump parent rate)
  clock : P .now
  pause : P (.sleep job.cfg.poll)

section

variable [Crypto] {τ : Type} {job : SpendJob τ} {P : Op → Prop} (h : JobCalls job P)

include h

theorem JobCalls.calls_estimate (targetBlocks : ℕ) : OnlyCalls P (estimate targetBlocks) := by
  refine OnlyCalls.bind (fun answer => ?_) ((onlyCalls_ask _).mpr (h.rates _))
  cases answer <;> trivial

theorem JobCalls.calls_deadlineFeeRate (tip : ℕ) (deadlineHeight : Option ℕ)
    (previous floor cap : ℕ) :
    OnlyCalls P (deadlineFeeRate tip deadlineHeight previous floor cap) := by
  unfold deadlineFeeRate
  dsimp only
  split
  · trivial
  · exact OnlyCalls.bind (fun _ => onlyCalls_pure _) (h.calls_estimate _)

theorem JobCalls.calls_announce {rate : ℕ} {tx : Transaction} (hbuild : job.build rate = .ok tx)
    (seen : τ) : OnlyCalls P (PubkySwap.announce job seen tx) :=
  ⟨h.reports _, fun _ => ⟨h.publishes rate tx hbuild, fun _ => trivial⟩⟩

theorem JobCalls.calls_firstSpend (seen : τ) (rate : ℕ) (live : Option Txid) :
    OnlyCalls P (firstSpend job seen rate live) := by
  cases live with
  | some txid => trivial
  | none =>
      refine onlyCalls_orThrow_bind fun initial hbuild => ?_
      refine OnlyCalls.bind (fun r => ?_) (h.calls_announce hbuild seen)
      exact OnlyCalls.bind (fun _ => onlyCalls_pure _) (onlyCalls_orThrow _ _)

theorem JobCalls.calls_liveSpend : OnlyCalls P (liveSpend job) := by
  unfold liveSpend
  split
  · trivial
  · refine ⟨h.spend, fun _ => ?_⟩
    exact OnlyCalls.bind (fun _ => onlyCalls_pure _) (onlyCalls_orThrow _ _)

theorem JobCalls.calls_rebroadcast (w : Watch τ) : OnlyCalls P (rebroadcast job w) := by
  unfold rebroadcast
  split
  · trivial
  · rename_i tx hbuild
    refine OnlyCalls.bind (fun r => ?_) (h.calls_announce hbuild _)
    obtain ⟨seen, answer⟩ := r
    cases answer <;> trivial

theorem JobCalls.calls_handBack (started : Instant) (tip : ℕ) (w : Watch τ) :
    OnlyCalls P (handBack job started tip w) := by
  unfold handBack
  split
  · trivial
  · refine ⟨h.clock, fun instant => ?_⟩
    show OnlyCalls P (if _ then _ else _)
    split
    · trivial
    · exact ⟨h.pause, fun _ => trivial⟩

theorem JobCalls.calls_escalate (tip : ℕ) (w : Watch τ) : OnlyCalls P (escalate job tip w) := by
  refine OnlyCalls.bind (fun next => ?_) (h.calls_deadlineFeeRate ..)
  dsimp only
  split
  · trivial
  split
  · trivial
  rename_i tx hbuild
  refine OnlyCalls.bind (fun r => ?_) (h.calls_announce hbuild _)
  obtain ⟨seen, answer⟩ := r
  cases answer with
  | ok txid => trivial
  | error e =>
      refine OnlyCalls.bind (fun _ => onlyCalls_pure _) ?_
      unfold pullIn
      split
      · exact h.pulls _ ‹_› _ _
      · trivial

theorem JobCalls.calls_checkDepth (started : Instant) (tip : ℕ) (w : Watch τ) :
    OnlyCalls P (checkDepth job started tip w) := by
  refine ⟨h.depth _, fun answer => OnlyCalls.bind (fun depth => ?_) (onlyCalls_orThrow _ _)⟩
  cases depth with
  | none => exact OnlyCalls.bind (fun w => h.calls_handBack _ _ w) (h.calls_rebroadcast _)
  | some confirmations =>
      dsimp only
      split
      · trivial
      split
      · exact OnlyCalls.bind (fun w => h.calls_handBack _ _ w) (h.calls_escalate _ _)
      · exact h.calls_handBack _ _ _

/-- **The calls of a call.** -/
theorem JobCalls.calls_confirmOrBump (fuel : ℕ) (seen : τ) :
    OnlyCalls P (confirmOrBump job fuel seen) := by
  refine OnlyCalls.bind (fun first => ?_) (h.calls_estimate _)
  refine OnlyCalls.bind (fun live => ?_) h.calls_liveSpend
  refine OnlyCalls.bind (fun r => ?_) (h.calls_firstSpend _ _ _)
  refine ⟨h.clock, fun started => OnlyCalls.iterate (fun w => ?_) fuel _⟩
  refine ⟨h.tip, fun answer => OnlyCalls.bind (fun tip => ?_) (onlyCalls_orThrow _ _)⟩
  refine ⟨h.spend, fun answer => OnlyCalls.bind (fun spend => ?_) (onlyCalls_orThrow _ _)⟩
  cases spend with
  | none => exact h.calls_checkDepth _ _ _
  | some spend =>
      dsimp only
      split
      · trivial
      · exact h.calls_checkDepth _ _ _

end

/-- Calls that driving a spend makes. -/
def Op.spending : Op → Bool
  | .findSpend .. | .tipHeight | .txConfirmations .. | .broadcast _ | .estimateFeeRate _
  | .cpfpBump .. | .spendBroadcast _ | .now | .sleep _ => true
  | _ => false

/-- A program of such calls only. -/
abbrev Spending {ε α : Type} (p : Driver ε α) : Prop := OnlyCalls (fun op => op.spending = true) p

theorem spending_walletCpfp (parent : Txid) (rate : ℕ) : Spending (walletCpfp parent rate) := by
  refine OnlyCalls.bind (fun answer => ?_) ((onlyCalls_ask _).mpr rfl)
  cases answer <;> trivial

theorem spending_confirmOrBump [Crypto] {τ : Type} {job : SpendJob τ}
    (hcpfp : ∀ bump, job.cpfp = some bump → ∀ txid rate, Spending (bump txid rate)) (fuel : ℕ)
    (seen : τ) : Spending (confirmOrBump job fuel seen) :=
  JobCalls.calls_confirmOrBump (P := fun op => op.spending = true)
    { tip := rfl, rates := fun _ => rfl, spend := rfl, depth := fun _ => rfl,
      reports := fun _ => rfl, publishes := fun _ _ _ => rfl, pulls := hcpfp, clock := rfl,
      pause := rfl } fuel seen

/-! ## What the exchange says about the outcome -/

/-- Calls that put a transaction on the wire. -/
def Op.broadcasts : Op → Bool
  | .broadcast _ => true
  | _ => false

/-- Calls that ask for a fee rate. -/
def Op.estimates : Op → Bool
  | .estimateFeeRate _ => true
  | _ => false

/-- Calls after which a driver that asks for a fee rate is starting a spend. -/
def Op.pauses : Op → Bool
  | .sleep _ => true
  | .receiveDestination => true
  | _ => false

/-- The chain accepted a broadcast under this id. -/
def Accepted (log : List Event) (txid : Txid) : Prop :=
  ∃ tx, (⟨.broadcast tx, .ok txid⟩ : Event) ∈ log

/-- A broadcast was tried, whatever came of it. -/
def Attempted [Crypto] (log : List Event) (txid : Txid) : Prop :=
  ∃ tx answer, (⟨.broadcast tx, answer⟩ : Event) ∈ log ∧ Crypto.computeTxid tx = txid

/-- A spend of the output: the chain accepted it from us, or showed it. -/
def Spotted [Crypto] (spk : Bytes) (outpoint : OutPoint) (log : List Event) (txid : Txid) :
    Prop :=
  (∃ tx, (⟨.broadcast tx, .ok txid⟩ : Event) ∈ log ∧ tx.Spends outpoint) ∨
    ∃ tx, (⟨.findSpend spk outpoint, .ok (some tx)⟩ : Event) ∈ log ∧ Crypto.computeTxid tx = txid

/-- The exchange `t` of a call that was told of `known`, and takes `ours` to be
its own by now. -/
structure Pass (outpoint : OutPoint) (known ours : List Txid) (t : List Event) : Prop where
  begins : ∃ event rest, t = event :: rest ∧ event.1.estimates = true
  unbroken : t.IsChain fun e e' => e.1.pauses = true → e'.1.estimates = false
  spends : ∀ tx answer, (⟨.broadcast tx, answer⟩ : Event) ∈ t → tx.Spends outpoint
  ours : ∀ txid, txid ∈ ours ↔ txid ∈ known ∨ Accepted t txid

section

variable {outpoint : OutPoint} {known ours ours' : List Txid} {t : List Event}

theorem accepted_append {event : Event} {txid : Txid} :
    Accepted (t ++ [event]) txid ↔
      Accepted t txid ∨ ∃ tx, event = ⟨.broadcast tx, .ok txid⟩ := by
  simp only [Accepted, List.mem_append, List.mem_singleton, exists_or, eq_comm]

/-- A call begins by asking for a fee rate. -/
theorem Pass.start {event : Event} (hevent : event.1.estimates = true)
    (hquiet : event.1.broadcasts = false) : Pass outpoint known known [event] := by
  refine ⟨⟨event, [], rfl, hevent⟩, List.isChain_singleton _, ?_, fun txid => ?_⟩
  · intro tx answer hmem
    rw [← List.mem_singleton.mp hmem] at hquiet
    cases hquiet
  · refine ⟨Or.inl, fun h => h.elim id fun ⟨tx, hmem⟩ => ?_⟩
    rw [← List.mem_singleton.mp hmem] at hquiet
    cases hquiet

/-- Any further exchange, but a fee rate asked for right after a pause: a
broadcast has to spend the output, and an accepted one joins what is ours. -/
theorem Pass.snoc (h : Pass outpoint known ours t) {event : Event}
    (hpass : event.1.estimates = true → ∀ e ∈ t.getLast?, e.1.pauses = false)
    (hspends : ∀ tx answer, event = ⟨.broadcast tx, answer⟩ → tx.Spends outpoint)
    (hours : ∀ txid, txid ∈ ours' ↔ txid ∈ ours ∨ ∃ tx, event = ⟨.broadcast tx, .ok txid⟩) :
    Pass outpoint known ours' (t ++ [event]) := by
  obtain ⟨⟨first, rest, rfl, hfirst⟩, hchain, hspend, hknown⟩ := h
  refine ⟨⟨first, rest ++ [event], rfl, hfirst⟩, ?_, ?_, fun txid => ?_⟩
  · refine hchain.append (List.isChain_singleton _) fun e he e' he' hpause => ?_
    obtain rfl : event = e' := Option.mem_some.mp he'
    by_contra hestimates
    rw [hpass (Bool.eq_true_of_not_eq_false hestimates) e he] at hpause
    cases hpause
  · intro tx answer hmem
    rcases List.mem_append.mp hmem with hmem | hmem
    · exact hspend tx answer hmem
    · exact hspends tx answer (List.mem_singleton.mp hmem).symm
  · rw [hours, hknown, accepted_append, or_assoc]

/-- An exchange that puts nothing on the wire leaves what is ours as it is. -/
theorem Pass.quiet (h : Pass outpoint known ours t) {event : Event}
    (hpass : event.1.estimates = true → ∀ e ∈ t.getLast?, e.1.pauses = false)
    (hquiet : event.1.broadcasts = false) : Pass outpoint known ours (t ++ [event]) := by
  refine h.snoc hpass ?_ fun txid => ⟨Or.inl, fun hmem => hmem.elim id ?_⟩
  · rintro tx answer rfl
    cases hquiet
  · rintro ⟨tx, rfl⟩
    cases hquiet

end

section

variable [Crypto] {τ : Type} (job : SpendJob τ)

/-- What a driver tracks in the state the closures capture: only a broadcast
changes it, and one that spends the output by the id it announced. -/
structure Tracks (T : τ → List Event → Prop) : Prop where
  append : ∀ {seen log} {event : Event}, event.1.broadcasts = false → T seen log →
    T seen (log ++ [event])
  announce : ∀ {seen log tx} (answer : Ans (.broadcast tx)), tx.Spends job.outpoint →
    T seen log → T (job.note seen (Crypto.computeTxid tx)) (log ++ [⟨.broadcast tx, answer⟩])

/-- What is known after an exchange `log` that continues `before`. -/
structure Knows (T : τ → List Event → Prop) (before log : List Event) (ours : List Txid)
    (seen : τ) : Prop where
  since : ∃ t, log = before ++ t ∧ Pass job.outpoint job.cfg.knownOurs ours t
  tracked : T seen log

/-- The invariant of the watch. -/
structure Watching (T : τ → List Event → Prop) (before log : List Event) (w : Watch τ) :
    Prop where
  knows : Knows job T before log w.ours w.seen
  watched : w.txid ∈ w.ours
  spotted : Spotted job.spk job.outpoint log w.txid

/-- What an outcome says about the exchange, given what the call takes to be its
own. -/
def OutcomeMeets (ours : List Txid) (log : List Event) : SpendOutcome → Prop
  | .confirmed txid =>
      txid ∈ ours ∧ Spotted job.spk job.outpoint log txid ∧
      ∃ confirmations, job.cfg.minConfirmations ≤ confirmations ∧
        (⟨.txConfirmations job.spk txid, .ok (some confirmations)⟩ : Event) ∈ log
  | .conflictingSpend tx =>
      Crypto.computeTxid tx ∉ ours ∧
      ∃ earlier tip, log = earlier ++ [⟨.tipHeight, .ok tip⟩,
        ⟨.findSpend job.spk job.outpoint, .ok (some tx)⟩]
  | .deadlineExceeded .. => True

/-- What the call owes when it returns. -/
def BumpMeets (T : τ → List Event → Prop) (before : List Event)
    (result : SpendOutcome × τ) (log : List Event) : Prop :=
  ∃ ours, Knows job T before log ours result.2 ∧ OutcomeMeets job ours log result.1

/-- A call that puts nothing on the wire and starts no spend. -/
def Quiet (op : Op) : Prop := op.broadcasts = false ∧ op.estimates = false

/-- What the closures of a call promise. -/
structure JobMeets (T : τ → List Event → Prop) : Prop where
  builds : ∀ {rate tx}, job.build rate = .ok tx → tx.Spends job.outpoint
  quiet : ∀ {bump}, job.cpfp = some bump → ∀ txid rate, OnlyCalls Quiet (bump txid rate)
  tracks : Tracks job T

variable {job} {T : τ → List Event → Prop} {before log : List Event} {w : Watch τ}
  {ours ours' : List Txid} {seen seen' : τ}

/-- An exchange that is no broadcast changes nothing that is known. -/
theorem Knows.append (h : Knows job T before log ours seen) (hT : Tracks job T) {e : Event}
    (hpass : e.1.estimates = true → ∀ last ∈ log.getLast?, last.1.pauses = false)
    (hquiet : e.1.broadcasts = false) : Knows job T before (log ++ [e]) ours seen := by
  obtain ⟨t, rfl, hp⟩ := h.since
  refine ⟨⟨t ++ [e], List.append_assoc _ _ _, hp.quiet (fun hestimates e' he => ?_) hquiet⟩,
    hT.append hquiet h.tracked⟩
  refine hpass hestimates e' ?_
  rw [List.getLast?_append, Option.mem_def.mp he]
  exact rfl

/-- **Announcing and broadcasting** adds an accepted transaction, and only that,
to what is ours. -/
theorem Knows.announce (h : Knows job T before log ours seen) (hT : Tracks job T)
    {tx : Transaction} (hspends : tx.Spends job.outpoint) (answer : Ans (.broadcast tx))
    (hours : ∀ txid, txid ∈ ours' ↔ txid ∈ ours ∨ answer = .ok txid) :
    Knows job T before
      (log ++ [⟨.spendBroadcast (Crypto.computeTxid tx), ()⟩] ++ [⟨.broadcast tx, answer⟩])
      ours' (job.note seen (Crypto.computeTxid tx)) := by
  have h' := h.append hT (e := ⟨.spendBroadcast (Crypto.computeTxid tx), ()⟩) nofun rfl
  obtain ⟨t, ht, hp⟩ := h'.since
  refine ⟨⟨t ++ [⟨.broadcast tx, answer⟩], ?_, hp.snoc nofun ?_ fun txid => ?_⟩,
    hT.announce answer hspends h'.tracked⟩
  · rw [ht, List.append_assoc]
  · rintro tx' answer' ⟨⟩
    exact hspends
  · rw [hours]
    refine or_congr_right ⟨?_, ?_⟩
    · rintro rfl
      exact ⟨tx, rfl⟩
    · rintro ⟨tx', ⟨⟩⟩
      rfl

/-- Calls that put nothing on the wire keep what is known. -/
theorem Knows.quiet {ε α : Type} (h : Knows job T before log ours seen) (hT : Tracks job T)
    {p : Driver ε α} (hp : OnlyCalls Quiet p) :
    Sound Logged Always (OnOk fun _ log => Knows job T before log ours seen) p log := by
  refine Sound.mono (fun _ _ => trivial) ?_
    (OnlyCalls.sound (I := fun log => Knows job T before log ours seen) ?_ hp h)
  · intro s r _ hs
    cases r with
    | ok a => exact hs
    | error e => trivial
  · rintro s op a _ hop hs rfl
    exact hs.append hT (fun hestimates => absurd (hestimates.symm.trans hop.2) nofun) hop.1

/-- The same, for the announcement as a program. -/
theorem Knows.sound_announce (h : Knows job T before log ours seen) (hT : Tracks job T)
    {tx : Transaction} (hspends : tx.Spends job.outpoint) :
    Sound Logged Always
      (OnOk fun (r : τ × Except SwapError Txid) log' => (∃ u, log' = log ++ u) ∧
        (∀ txid, r.2 = .ok txid → Spotted job.spk job.outpoint log' txid) ∧
        ∀ ours', (∀ txid, txid ∈ ours' ↔ txid ∈ ours ∨ r.2 = .ok txid) →
          Knows job T before log' ours' r.1)
      (PubkySwap.announce job seen tx) log := by
  refine (sound_logged_call _ _).mpr ⟨trivial, fun _ => ?_⟩
  refine (sound_logged_call _ _).mpr ⟨trivial, fun answer => ⟨trivial, ?_, ?_, ?_⟩⟩
  · exact ⟨_, List.append_assoc _ _ _⟩
  · rintro txid rfl
    exact Or.inl ⟨tx, List.mem_append_right _ (List.mem_singleton_self _), hspends⟩
  · exact fun ours' hours => h.announce hT hspends answer hours

omit [Crypto] in
/-- An accepted id joins the set. -/
theorem mem_ours_ok (ours : List Txid) (id txid : Txid) :
    txid ∈ id :: ours ↔ txid ∈ ours ∨ (.ok id : Except SwapError Txid) = .ok txid := by
  rw [List.mem_cons, or_comm, Except.ok.injEq, eq_comm]

omit [Crypto] in
/-- A refusal leaves the set as it is. -/
theorem mem_ours_error (ours : List Txid) (e : SwapError) (txid : Txid) :
    txid ∈ ours ↔ txid ∈ ours ∨ (.error e : Except SwapError Txid) = .ok txid :=
  ⟨Or.inl, fun h => h.elim (fun h => h) nofun⟩

/-- What was spotted stays spotted. -/
theorem Spotted.append {spk : Bytes} {outpoint : OutPoint} {txid : Txid}
    (h : Spotted spk outpoint log txid) (u : List Event) :
    Spotted spk outpoint (log ++ u) txid := by
  refine h.imp ?_ ?_
  · rintro ⟨tx, hmem, hspends⟩
    exact ⟨tx, List.mem_append_left _ hmem, hspends⟩
  · rintro ⟨tx, hmem, htxid⟩
    exact ⟨tx, List.mem_append_left _ hmem, htxid⟩

/-! ## The specification -/

omit [Crypto] in
theorem quiet_walletCpfp (parent : Txid) (rate : ℕ) : OnlyCalls Quiet (walletCpfp parent rate) := by
  refine OnlyCalls.bind (fun answer => ?_) ((onlyCalls_ask _).mpr ⟨rfl, rfl⟩)
  cases answer <;> trivial

theorem JobMeets.quiet_pullIn (hjob : JobMeets job T) (parent : Txid) (rate : ℕ) :
    OnlyCalls Quiet (pullIn job parent rate) := by
  unfold pullIn
  split
  · exact hjob.quiet ‹_› _ _
  · trivial

/-- Asking for a fee rate, but not right after a pause, changes nothing. -/
theorem Knows.sound_deadlineFeeRate (h : Knows job T before log ours seen) (hT : Tracks job T)
    (hlast : ∀ e ∈ log.getLast?, e.1.pauses = false) (tip previous : ℕ) :
    Sound Logged Always
      (OnOk fun _ log' => Knows job T before log' ours seen ∧ ∃ u, log' = log ++ u)
      (deadlineFeeRate tip job.cfg.deadlineHeight previous job.cfg.floorRateSatVb
        job.cfg.capRateSatVb) log := by
  unfold deadlineFeeRate
  dsimp only
  split
  · exact ⟨trivial, h, [], (List.append_nil _).symm⟩
  · refine (sound_logged_call _ _).mpr ⟨trivial, fun answer => ?_⟩
    have h' := h.append hT (e := ⟨.estimateFeeRate _, answer⟩) (fun _ => hlast) rfl
    cases answer with
    | ok rate => exact ⟨trivial, h', _, rfl⟩
    | error e => exact ⟨trivial, h', _, rfl⟩

theorem Watching.append (h : Watching job T before log w) (hT : Tracks job T) {e : Event}
    (hquiet : Quiet e.1) : Watching job T before (log ++ [e]) w :=
  ⟨h.knows.append hT (fun hestimates => absurd (hestimates.symm.trans hquiet.2) nofun) hquiet.1,
    h.watched, h.spotted.append _⟩

theorem Watching.sound_rebroadcast (h : Watching job T before log w) (hjob : JobMeets job T) :
    Sound Logged Always (OnOk fun w' log => Watching job T before log w')
      (rebroadcast job w) log := by
  unfold rebroadcast
  split
  · exact ⟨trivial, h⟩
  · rename_i tx hbuild
    refine Sound.andThen (h.knows.sound_announce hjob.tracks (hjob.builds hbuild)) ?_
    rintro log' ⟨seen, answer⟩ ⟨⟨u, rfl⟩, hspotted, hafter⟩
    cases answer with
    | ok txid =>
        exact ⟨trivial, hafter _ (mem_ours_ok _ _), List.mem_cons_self .., hspotted txid rfl⟩
    | error e =>
        exact ⟨trivial, hafter _ (mem_ours_error _ _), h.watched, h.spotted.append _⟩

theorem Watching.sound_escalate (h : Watching job T before log w) (hjob : JobMeets job T)
    (hlast : ∀ e ∈ log.getLast?, e.1.pauses = false) (tip : ℕ) :
    Sound Logged Always (OnOk fun w' log => Watching job T before log w')
      (escalate job tip w) log := by
  refine Sound.andThen (h.knows.sound_deadlineFeeRate hjob.tracks hlast _ _) ?_
  rintro log₁ next ⟨h₁, u₁, rfl⟩
  dsimp only
  split
  · exact ⟨trivial, h₁, h.watched, h.spotted.append _⟩
  split
  · exact ⟨trivial, h₁, h.watched, h.spotted.append _⟩
  rename_i tx hbuild
  refine Sound.andThen (h₁.sound_announce hjob.tracks (hjob.builds hbuild)) ?_
  rintro log₂ ⟨seen, answer⟩ ⟨⟨u₂, rfl⟩, hspotted, hafter⟩
  cases answer with
  | ok txid =>
      exact ⟨trivial, hafter _ (mem_ours_ok _ _), List.mem_cons_self .., hspotted txid rfl⟩
  | error e =>
      -- The replacement was rejected: a child pays, and the set stays as it is.
      have hlost := hafter _ (mem_ours_error _ e)
      refine Sound.andThen (hlost.quiet hjob.tracks (hjob.quiet_pullIn _ _)).extending ?_
      rintro log₃ child ⟨hknows, u₃, rfl⟩
      have hspotted := ((h.spotted.append u₁).append u₂).append u₃
      refine ⟨trivial, ?_⟩
      rw [onOk_ok]
      split
      · exact ⟨hknows, h.watched, hspotted⟩
      · exact ⟨hknows, h.watched, hspotted⟩

/-- The end of a round keeps what the watch knows, or hands back. -/
theorem Watching.sound_handBack (h : Watching job T before log w) (hT : Tracks job T)
    (started : Instant) (tip : ℕ) :
    Sound Logged Always
      (RoundMeets (fun w log => Watching job T before log w) (OnOk (BumpMeets job T before)))
      (handBack job started tip w) log := by
  unfold handBack
  split
  · exact ⟨trivial, _, h.knows, trivial⟩
  · refine (sound_logged_call _ _).mpr ⟨trivial, fun instant => ?_⟩
    have h' := h.append hT (e := ⟨.now, instant⟩) ⟨rfl, rfl⟩
    show Sound _ _ _ (if _ then _ else _) _
    split
    · exact ⟨trivial, _, h'.knows, trivial⟩
    · refine (sound_logged_call _ _).mpr ⟨trivial, fun _ => ⟨trivial, ?_⟩⟩
      exact h'.append hT ⟨rfl, rfl⟩

/-- A depth that suffices ends the watch on a transaction of ours. -/
theorem Watching.sound_checkDepth (h : Watching job T before log w) (hjob : JobMeets job T)
    (started : Instant) (tip : ℕ) :
    Sound Logged Always
      (RoundMeets (fun w log => Watching job T before log w) (OnOk (BumpMeets job T before)))
      (checkDepth job started tip w) log := by
  refine (sound_logged_call _ _).mpr ⟨trivial, fun answer => ?_⟩
  have h' := h.append hjob.tracks (e := ⟨.txConfirmations job.spk w.txid, answer⟩) ⟨rfl, rfl⟩
  refine sound_orThrow_bind trivial (fun _ _ => trivial) fun depth hdepth => ?_
  subst hdepth
  cases depth with
  | none =>
      refine Sound.bind ?_ (fun _ _ _ _ => trivial) (h'.sound_rebroadcast hjob)
      exact fun _ w' _ hw => hw.sound_handBack hjob.tracks started tip
  | some confirmations =>
      dsimp only
      split
      · refine ⟨trivial, _, h'.knows, h'.watched, h'.spotted, confirmations, ‹_›, ?_⟩
        exact List.mem_append_right _ (List.mem_singleton_self _)
      split
      · refine Sound.bind ?_ (fun _ _ _ _ => trivial) (h'.sound_escalate hjob ?_ tip)
        · exact fun _ w' _ hw => hw.sound_handBack hjob.tracks started tip
        · intro e he
          rw [List.getLast?_concat] at he
          obtain rfl := Option.mem_some.mp he
          rfl
      · exact h'.sound_handBack hjob.tracks started tip

/-- One round: either the watch goes on knowing what it knows, or the outcome is
as the exchange says. -/
theorem Watching.sound_round (h : Watching job T before log w) (hjob : JobMeets job T)
    (started : Instant) :
    Sound Logged Always
      (RoundMeets (fun w log => Watching job T before log w) (OnOk (BumpMeets job T before)))
      (watchRound job started w) log := by
  refine (sound_logged_call _ _).mpr ⟨trivial, fun answer => ?_⟩
  have h₁ := h.append hjob.tracks (e := ⟨.tipHeight, answer⟩) ⟨rfl, rfl⟩
  refine sound_orThrow_bind trivial (fun _ _ => trivial) fun tip htip => ?_
  subst htip
  refine (sound_logged_call _ _).mpr ⟨trivial, fun answer' => ?_⟩
  have h₂ := h₁.append hjob.tracks (e := ⟨.findSpend job.spk job.outpoint, answer'⟩)
    ⟨rfl, rfl⟩
  refine sound_orThrow_bind trivial (fun _ _ => trivial) fun spend hspend => ?_
  subst hspend
  cases spend with
  | none =>
      refine Watching.sound_checkDepth ?_ hjob started tip
      exact ⟨h₂.knows, h₂.watched, h₂.spotted⟩
  | some spend =>
      dsimp only
      split
      · rename_i hforeign
        exact ⟨trivial, _, h₂.knows, hforeign, log, tip, List.append_assoc _ _ _⟩
      · rename_i hours
        refine Watching.sound_checkDepth ?_ hjob started tip
        refine ⟨h₂.knows, not_not.mp hours, Or.inr ⟨spend, ?_, rfl⟩⟩
        exact List.mem_append_right _ (List.mem_singleton_self _)

/-- Looking for a live spend of an earlier run finds only a recorded one. -/
theorem Knows.sound_liveSpend (h : Knows job T before log ours seen) (hT : Tracks job T) :
    Sound Logged Always
      (OnOk fun live log => Knows job T before log ours seen ∧
        ∀ txid ∈ live, txid ∈ job.cfg.knownOurs ∧ Spotted job.spk job.outpoint log txid)
      (liveSpend job) log := by
  unfold liveSpend
  split
  · exact ⟨trivial, h, nofun⟩
  · refine (sound_logged_call _ _).mpr ⟨trivial, fun answer => ?_⟩
    refine sound_orThrow_bind trivial (fun _ _ => trivial) fun spend hspend => ?_
    subst hspend
    refine ⟨trivial, h.append hT nofun rfl, fun txid htxid => ?_⟩
    obtain ⟨hfound, hknown⟩ := Option.mem_filter_iff.mp htxid
    obtain ⟨tx, rfl, htx⟩ := Option.map_eq_some_iff.mp hfound
    refine ⟨of_decide_eq_true hknown, Or.inr ⟨tx, ?_, htx⟩⟩
    exact List.mem_append_right _ (List.mem_singleton_self _)

/-- The first spend is one the watch knows. -/
theorem Knows.sound_firstSpend (h : Knows job T before log job.cfg.knownOurs seen)
    (hjob : JobMeets job T) (rate : ℕ) {live : Option Txid}
    (hlive : ∀ txid ∈ live, txid ∈ job.cfg.knownOurs ∧ Spotted job.spk job.outpoint log txid) :
    Sound Logged Always
      (OnOk fun (r : Txid × τ) log =>
        Knows job T before log (r.1 :: job.cfg.knownOurs) r.2 ∧
          Spotted job.spk job.outpoint log r.1)
      (firstSpend job seen rate live) log := by
  cases live with
  | some txid =>
      obtain ⟨hmem, hspotted⟩ := hlive txid rfl
      obtain ⟨t, ht, hp⟩ := h.since
      refine ⟨trivial, ⟨⟨t, ht, { hp with ours := fun id => ?_ }⟩, h.tracked⟩, hspotted⟩
      rw [← hp.ours, List.mem_cons, or_iff_right_iff_imp]
      rintro rfl
      exact hmem
  | none =>
      refine sound_orThrow_bind trivial (fun _ _ => trivial) fun initial hbuild => ?_
      refine Sound.andThen (h.sound_announce hjob.tracks (hjob.builds hbuild)) ?_
      rintro log' ⟨seen', answer⟩ ⟨-, hspotted, hafter⟩
      refine sound_orThrow_bind trivial (fun _ _ => trivial) fun txid htxid => ?_
      exact ⟨trivial, hafter _ (htxid ▸ mem_ours_ok _ _), hspotted txid htxid⟩

/-- **Driving a spend.**  Whatever the chain and the wallet answer, the call
confirms only a transaction it knows as its own and saw deep enough, and reports
a conflict only with one it does not know, at the moment the chain shows it. -/
theorem bump_sound (hjob : JobMeets job T) (fuel : ℕ) (hseen : T seen before) :
    Sound Logged Always (OnOk (BumpMeets job T before)) (confirmOrBump job fuel seen) before := by
  refine Sound.andThen (P := fun _ log => Knows job T before log job.cfg.knownOurs seen) ?_ ?_
  · refine (sound_logged_call _ _).mpr ⟨trivial, fun answer => ?_⟩
    have hstart : Knows job T before (before ++ [⟨.estimateFeeRate _, answer⟩])
        job.cfg.knownOurs seen :=
      ⟨⟨_, rfl, Pass.start rfl rfl⟩, hjob.tracks.append rfl hseen⟩
    cases answer with
    | ok rate => exact ⟨trivial, hstart⟩
    | error e => exact ⟨trivial, hstart⟩
  intro log₁ first h₁
  refine Sound.andThen (h₁.sound_liveSpend hjob.tracks) ?_
  rintro log₂ live ⟨h₂, hlive⟩
  refine Sound.andThen (h₂.sound_firstSpend hjob _ hlive) ?_
  rintro log₃ ⟨txid, seen'⟩ ⟨h₃, hspotted⟩
  refine (sound_logged_call _ _).mpr ⟨trivial, fun started => ?_⟩
  refine Sound.iterate (J := fun w log => Watching job T before log w) (fun _ _ _ => trivial)
    (fun w log hw => hw.sound_round hjob started) fuel ?_
  exact ⟨h₃.append hjob.tracks nofun rfl, List.mem_cons_self .., hspotted.append _⟩

end

end PubkySwap
