import PubkySwap.FeeEscalation

/-!
# What the answers to a call call for

A call of `confirmOrBump` that drives a refund builds a spend when its answers call for one:
a first one, unless the chain shows at once one that is on record; the same again, when the
node no longer knows the one it watches; one at a higher rate, while the one it watches is
unconfirmed and the ceiling has not been reached.

`bidsOf` reads the rates of these spends off the answers alone, and `Bids.owed` the spends
that can be built at them.  What a call reports is exactly that, in that order
(`reports_confirmOrBump`).
-/

namespace PubkySwap

open BitcoinScript (Bytes)
open Program (orThrow iterate Sound Logged OnOk Always RoundMeets sound_logged_call
  sound_orThrow_bind)

/-- What an answer about fee rates is worth: nothing, if it is an error. -/
def estimated : Except SwapError (Option ℕ) → Option ℕ
  | .ok rate => rate
  | .error _ => none

/-- The rate of a replacement.  A refund has no deadline, so the tip does not matter. -/
def bumpedRate (cfg : SpendWatchConfig) (rate : ℕ) (estimate : Option ℕ) : ℕ :=
  deadlineFeeRateOf 0 none rate (fun _ => estimate) cfg.floorRateSatVb cfg.capRateSatVb

/-- What the answers to a call have come to. -/
structure Bids where
  /-- What the watched spend pays, once there has been an estimate. -/
  rate : Option ℕ := none
  /-- Whether a spend on record is being looked for. -/
  entering : Bool := false
  /-- The rates at which the answers called for a spend, the latest last. -/
  offers : List ℕ := []

namespace Bids

/-- A spend is called for. -/
def offer (bids : Bids) (rate : Option ℕ) : Bids :=
  { bids with entering := false, offers := bids.offers ++ rate.toList }

/-- The latest offer is on the wire. -/
def take (bids : Bids) : Bids := { bids with rate := bids.offers.getLast? }

/-- The answer to the question what to pay: at first the rate to begin with, and from then on
the rate of a replacement. -/
def ask (cfg : SpendWatchConfig) (bids : Bids) (estimate : Option ℕ) : Bids :=
  match bids.rate with
  | none =>
      let rate := resolveFeeRate estimate cfg.floorRateSatVb cfg.capRateSatVb
      if cfg.knownOurs.isEmpty then ⟨some rate, false, bids.offers ++ [rate]⟩
      else ⟨some rate, true, bids.offers⟩
  | some rate =>
      let next := bumpedRate cfg rate estimate
      if next ≤ rate then bids else bids.offer (some next)

variable [Crypto]

/-- The answer to the question who spends the output: a spend on record is adopted, if it is
asked for at the beginning. -/
def search (cfg : SpendWatchConfig) (bids : Bids) (spend : Option Transaction) : Bids :=
  if bids.entering then
    match (spend.map Crypto.computeTxid).filter (· ∈ cfg.knownOurs) with
    | some _ => { bids with entering := false }
    | none => bids.offer bids.rate
  else bids

/-- What an answer changes. -/
def step (cfg : SpendWatchConfig) (bids : Bids) : Event → Bids
  | ⟨.estimateFeeRate _, answer⟩ => bids.ask cfg (estimated answer)
  | ⟨.findSpend .., .ok spend⟩ => bids.search cfg spend
  | ⟨.txConfirmations .., .ok none⟩ => bids.offer bids.rate
  | ⟨.broadcast _, .ok _⟩ => bids.take
  | ⟨.cpfpBump .., .ok (some _)⟩ => bids.take
  | _ => bids

/-- The spends that are built at the rates called for. -/
def owed (build : ℕ → Except SwapError Transaction) (offers : List ℕ) : List Txid :=
  offers.filterMap fun rate => (build rate).toOption.map Crypto.computeTxid

end Bids

section

variable [Crypto]

/-- What the answers of an exchange come to. -/
def bidsOf (cfg : SpendWatchConfig) (log : List Event) : Bids := log.foldl (Bids.step cfg) {}

/-- The reports in an exchange. -/
def reportsOf (log : List Event) : List Txid :=
  log.filterMap fun
    | ⟨.spendBroadcast txid, _⟩ => some txid
    | _ => none

@[simp] theorem bidsOf_snoc (cfg : SpendWatchConfig) (log : List Event) (event : Event) :
    bidsOf cfg (log ++ [event]) = (bidsOf cfg log).step cfg event := by
  unfold bidsOf
  rw [List.foldl_append]
  rfl

omit [Crypto] in
theorem mem_reportsOf {log : List Event} {txid : Txid} :
    txid ∈ reportsOf log ↔ (⟨.spendBroadcast txid, ()⟩ : Event) ∈ log := by
  unfold reportsOf
  rw [List.mem_filterMap]
  constructor
  · rintro ⟨⟨op, a⟩, hmem, heq⟩
    cases op <;> cases heq
    exact hmem
  · exact fun hmem => ⟨_, hmem, rfl⟩

omit [Crypto] in
theorem reportsOf_append (log log' : List Event) :
    reportsOf (log ++ log') = reportsOf log ++ reportsOf log' :=
  List.filterMap_append

/-- What is built at one more rate. -/
theorem Bids.owed_append (build : ℕ → Except SwapError Transaction) (offers : List ℕ)
    (rate : ℕ) :
    Bids.owed build (offers ++ [rate]) =
      Bids.owed build offers ++ ((build rate).toOption.map Crypto.computeTxid).toList := by
  unfold Bids.owed
  rw [List.filterMap_append, List.filterMap_cons]
  cases build rate <;> rfl

variable {τ : Type} (job : SpendJob τ)

/-- All that was called for has been reported, and nothing else. -/
def Reconciled (log : List Event) : Prop :=
  reportsOf log = Bids.owed job.build (bidsOf job.cfg log).offers

/-- A spend at this rate is called for, and has not been built yet. -/
def CallsFor (rate : ℕ) (log : List Event) : Prop :=
  ∃ offers, (bidsOf job.cfg log).offers = offers ++ [rate] ∧
    reportsOf log = Bids.owed job.build offers

/-- The answers know what the watch pays. -/
structure Bidding (w : Watch τ) (log : List Event) : Prop where
  rate : (bidsOf job.cfg log).rate = some w.rate
  entered : (bidsOf job.cfg log).entering = false
  reconciled : Reconciled job log

/-- A refund whose fallback is the wallet's. -/
structure Refunding : Prop where
  deadline : job.cfg.deadlineHeight = none
  fallback : job.cpfp = some walletCpfp

variable {job} {log : List Event} {w : Watch τ} {rate : ℕ}

/-- An answer that changes nothing, to a call that is no report. -/
theorem Bidding.quiet (h : Bidding job w log) {event : Event}
    (hstep : (bidsOf job.cfg log).step job.cfg event = bidsOf job.cfg log)
    (hreport : reportsOf [event] = []) : Bidding job w (log ++ [event]) := by
  refine ⟨?_, ?_, ?_⟩
  · rw [bidsOf_snoc, hstep]
    exact h.rate
  · rw [bidsOf_snoc, hstep]
    exact h.entered
  · unfold Reconciled
    rw [bidsOf_snoc, hstep, reportsOf_append, hreport, List.append_nil]
    exact h.reconciled

/-- What cannot be built is not owed. -/
theorem CallsFor.unbuilt (h : CallsFor job rate log) {e : SwapError}
    (hbuild : job.build rate = .error e) : Reconciled job log := by
  obtain ⟨offers, hoffers, hreports⟩ := h
  unfold Reconciled
  rw [hoffers, Bids.owed_append, hbuild, hreports]
  exact (List.append_nil _).symm

/-- What a broadcast makes of the answers. -/
theorem step_broadcast (cfg : SpendWatchConfig) (bids : Bids) (tx : Transaction)
    (answer : Ans (.broadcast tx)) :
    bids.step cfg ⟨.broadcast tx, answer⟩ = if answer.isOk then bids.take else bids := by
  cases answer <;> rfl

/-- The spend that was called for is reported and broadcast. -/
theorem CallsFor.announced (h : CallsFor job rate log) {tx : Transaction}
    (hbuild : job.build rate = .ok tx) (answer : Ans (.broadcast tx)) :
    Reconciled job
      (log ++ [⟨.spendBroadcast (Crypto.computeTxid tx), ()⟩] ++ [⟨.broadcast tx, answer⟩]) := by
  obtain ⟨offers, hoffers, hreports⟩ := h
  have hstep : (bidsOf job.cfg (log ++ [⟨.spendBroadcast (Crypto.computeTxid tx), ()⟩] ++
      [⟨.broadcast tx, answer⟩])).offers = offers ++ [rate] := by
    rw [bidsOf_snoc, bidsOf_snoc, step_broadcast]
    split <;> exact hoffers
  unfold Reconciled
  rw [hstep, Bids.owed_append, hbuild, ← hreports, reportsOf_append, reportsOf_append]
  exact List.append_nil _

/-! ## A call reports what its answers call for -/

omit [Crypto] in
/-- The estimate that `estimate` gives is what the answer is worth. -/
theorem sound_estimate_bind {α : Type} {target : ℕ} {f : Option ℕ → Driver SwapError α}
    {P : α → List Event → Prop}
    (h : ∀ answer, Sound Logged Always (OnOk P) (f (estimated answer))
      (log ++ [⟨.estimateFeeRate target, answer⟩])) :
    Sound Logged Always (OnOk P) (estimate target >>= f) log := by
  refine (sound_logged_call _ _).mpr ⟨trivial, fun answer => ?_⟩
  cases answer with
  | ok rate => exact h (.ok rate)
  | error e => exact h (.error e)

variable (job) in
/-- What is known once the spend that was called for has been announced. -/
structure Announced (rate : ℕ) (before after : List Event) (answer : Except SwapError Txid) :
    Prop where
  reconciled : Reconciled job after
  entered : (bidsOf job.cfg after).entering = (bidsOf job.cfg before).entering
  offered : (bidsOf job.cfg after).offers.getLast? = some rate
  rate : (bidsOf job.cfg after).rate =
    if answer.isOk then some rate else (bidsOf job.cfg before).rate

theorem CallsFor.sound_announce (h : CallsFor job rate log) {tx : Transaction}
    (hbuild : job.build rate = .ok tx) (seen : τ) :
    Sound Logged Always
      (OnOk fun (r : τ × Except SwapError Txid) log' => Announced job rate log log' r.2)
      (announce job seen tx) log := by
  refine (sound_logged_call _ _).mpr ⟨trivial, fun _ => ?_⟩
  refine (sound_logged_call _ _).mpr ⟨trivial, fun answer => ⟨trivial, ?_⟩⟩
  have hreconciled := h.announced hbuild answer
  obtain ⟨offers, hoffers, -⟩ := h
  refine ⟨hreconciled, ?_, ?_, ?_⟩
  · rw [bidsOf_snoc, bidsOf_snoc, step_broadcast]
    split <;> rfl
  · rw [bidsOf_snoc, bidsOf_snoc, step_broadcast]
    have hlast : (bidsOf job.cfg log).offers.getLast? = some rate := by
      rw [hoffers, List.getLast?_concat]
    split <;> exact hlast
  · rw [bidsOf_snoc, bidsOf_snoc, step_broadcast]
    have hlast : (bidsOf job.cfg log).offers.getLast? = some rate := by
      rw [hoffers, List.getLast?_concat]
    show Bids.rate (if answer.isOk then _ else _) = if answer.isOk then _ else _
    split
    · exact hlast
    · rfl

/-- The spend that was lost is built again. -/
theorem sound_rebroadcast_of_callsFor (h : CallsFor job w.rate log)
    (hrate : (bidsOf job.cfg log).rate = some w.rate)
    (hentered : (bidsOf job.cfg log).entering = false) :
    Sound Logged Always (OnOk fun w log => Bidding job w log) (rebroadcast job w) log := by
  unfold rebroadcast
  split
  · rename_i e hbuild
    exact ⟨trivial, hrate, hentered, h.unbuilt hbuild⟩
  · rename_i tx hbuild
    refine (h.sound_announce hbuild w.seen).andThen fun log' r ha => ?_
    obtain ⟨seen, answer⟩ := r
    cases answer with
    | ok txid => exact ⟨trivial, ha.rate, ha.entered.trans hentered, ha.reconciled⟩
    | error e => exact ⟨trivial, ha.rate.trans hrate, ha.entered.trans hentered, ha.reconciled⟩

/-- The wallet's fallback: what it puts on the wire pays the rate that was called for. -/
theorem sound_pullIn (hjob : Refunding job) {parent : Txid} {next : ℕ}
    (hreconciled : Reconciled job log) (hentered : (bidsOf job.cfg log).entering = false)
    (hoffered : (bidsOf job.cfg log).offers.getLast? = some next)
    (hrate : (bidsOf job.cfg log).rate = some w.rate) (seen : τ) :
    Sound Logged Always
      (OnOk fun (child : Option Txid) log =>
        Bidding job (if child.isSome then { w with rate := next, seen := seen }
          else { w with seen := seen }) log)
      (pullIn job parent next) log := by
  unfold pullIn
  rw [hjob.fallback]
  refine (sound_logged_call _ _).mpr ⟨trivial, fun answer => ?_⟩
  have hkept : Bidding job { w with seen := seen } log := ⟨hrate, hentered, hreconciled⟩
  rcases answer with e | _ | child
  · have hrefused : Bidding job { w with seen := seen }
        (log ++ [⟨.cpfpBump ⟨parent, 0⟩ next, .error e⟩]) := hkept.quiet rfl rfl
    exact ⟨trivial, hrefused⟩
  · have hnone : Bidding job { w with seen := seen }
        (log ++ [⟨.cpfpBump ⟨parent, 0⟩ next, .ok none⟩]) := hkept.quiet rfl rfl
    exact ⟨trivial, hnone⟩
  · refine ⟨trivial, ?_, ?_, ?_⟩
    · rw [bidsOf_snoc]
      exact hoffered
    · rw [bidsOf_snoc]
      exact hentered
    · unfold Reconciled
      rw [bidsOf_snoc, reportsOf_append]
      exact (List.append_nil _).trans hreconciled

/-- The next rate: above the one that is paid, it calls for a replacement. -/
theorem Bidding.sound_deadlineFeeRate (h : Bidding job w log) (hjob : Refunding job) (tip : ℕ) :
    Sound Logged Always
      (OnOk fun next log' =>
        (next ≤ w.rate → Bidding job w log') ∧
        (¬next ≤ w.rate → CallsFor job next log' ∧ (bidsOf job.cfg log').rate = some w.rate ∧
          (bidsOf job.cfg log').entering = false))
      (deadlineFeeRate tip job.cfg.deadlineHeight w.rate job.cfg.floorRateSatVb
        job.cfg.capRateSatVb) log := by
  have hremaining : ¬remainingBlocks tip none ≤ 2 := by
    show ¬Word.maxValue 32 ≤ 2
    decide
  rw [hjob.deadline, deadlineFeeRate_eq, if_neg hremaining]
  refine sound_estimate_bind fun answer => ⟨trivial, fun hle => ?_, fun hlt => ?_⟩
  · have hstep : (bidsOf job.cfg log).step job.cfg
        ⟨.estimateFeeRate (targetForRemaining (remainingBlocks tip none)), answer⟩ =
        bidsOf job.cfg log := by
      show Bids.ask _ _ _ = _
      unfold Bids.ask
      rw [h.rate]
      exact if_pos hle
    exact h.quiet hstep rfl
  · have hstep : (bidsOf job.cfg log).step job.cfg
        ⟨.estimateFeeRate (targetForRemaining (remainingBlocks tip none)), answer⟩ =
        (bidsOf job.cfg log).offer
          (some (bumpedRate job.cfg w.rate (estimated answer))) := by
      show Bids.ask _ _ _ = _
      unfold Bids.ask
      rw [h.rate]
      exact if_neg hlt
    refine ⟨⟨(bidsOf job.cfg log).offers, ?_, ?_⟩, ?_, ?_⟩
    · rw [bidsOf_snoc, hstep]
      rfl
    · rw [reportsOf_append]
      exact (List.append_nil _).trans h.reconciled
    · rw [bidsOf_snoc, hstep]
      exact h.rate
    · rw [bidsOf_snoc, hstep]
      rfl

theorem Bidding.sound_escalate (h : Bidding job w log) (hjob : Refunding job) (tip : ℕ) :
    Sound Logged Always (OnOk fun w log => Bidding job w log) (escalate job tip w) log := by
  refine (h.sound_deadlineFeeRate hjob tip).andThen fun log₁ next hnext => ?_
  dsimp only
  split
  · exact ⟨trivial, hnext.1 ‹_›⟩
  rename_i hlt
  obtain ⟨hcalls, hrate, hentered⟩ := hnext.2 hlt
  split
  · rename_i e hbuild
    exact ⟨trivial, hrate, hentered, hcalls.unbuilt hbuild⟩
  rename_i tx hbuild
  refine (hcalls.sound_announce hbuild w.seen).andThen fun log₂ r ha => ?_
  obtain ⟨seen, answer⟩ := r
  cases answer with
  | ok txid => exact ⟨trivial, ha.rate, ha.entered.trans hentered, ha.reconciled⟩
  | error e =>
      refine (sound_pullIn hjob ha.reconciled (ha.entered.trans hentered) ha.offered
        (ha.rate.trans hrate) seen).andThen fun log₃ child hchild => ⟨trivial, hchild⟩

variable (job) in
/-- A round, or the outcome. -/
abbrev BiddingRound (r : Watch τ ⊕ (SpendOutcome × τ)) (log : List Event) : Prop :=
  match r with
  | .inl w => Bidding job w log
  | .inr _ => Reconciled job log

theorem Bidding.sound_handBack (h : Bidding job w log) (started : Instant) (tip : ℕ) :
    Sound Logged Always (OnOk (BiddingRound job)) (handBack job started tip w) log := by
  unfold handBack
  split
  · exact ⟨trivial, h.reconciled⟩
  · refine (sound_logged_call _ _).mpr ⟨trivial, fun instant => ?_⟩
    have h' : Bidding job w (log ++ [⟨.now, instant⟩]) := h.quiet rfl rfl
    show Sound _ _ _ (if _ then _ else _) _
    split
    · exact ⟨trivial, h'.reconciled⟩
    · refine (sound_logged_call _ _).mpr ⟨trivial, fun _ => ⟨trivial, ?_⟩⟩
      have h'' : Bidding job w (log ++ [⟨.now, instant⟩] ++ [⟨.sleep job.cfg.poll, ()⟩]) :=
        h'.quiet rfl rfl
      exact h''

theorem Bidding.sound_checkDepth (h : Bidding job w log) (hjob : Refunding job)
    (started : Instant) (tip : ℕ) :
    Sound Logged Always (OnOk (BiddingRound job)) (checkDepth job started tip w) log := by
  refine (sound_logged_call _ _).mpr ⟨trivial, fun answer => ?_⟩
  refine sound_orThrow_bind trivial (fun _ _ => trivial) fun depth hdepth => ?_
  subst hdepth
  cases depth with
  | none =>
      have hcalls : CallsFor job w.rate (log ++ [⟨.txConfirmations job.spk w.txid, .ok none⟩]) := by
        refine ⟨(bidsOf job.cfg log).offers, ?_, ?_⟩
        · rw [bidsOf_snoc]
          show _ ++ Option.toList (bidsOf job.cfg log).rate = _
          rw [h.rate]
          rfl
        · rw [reportsOf_append]
          exact (List.append_nil _).trans h.reconciled
      refine (sound_rebroadcast_of_callsFor hcalls ?_ ?_).andThen fun _ w' hw =>
        hw.sound_handBack started tip
      · rw [bidsOf_snoc]
        exact h.rate
      · rw [bidsOf_snoc]
        rfl
  | some confirmations =>
      have h' : Bidding job w
          (log ++ [⟨.txConfirmations job.spk w.txid, .ok (some confirmations)⟩]) := h.quiet rfl rfl
      dsimp only
      split
      · exact ⟨trivial, h'.reconciled⟩
      split
      · exact (h'.sound_escalate hjob tip).andThen fun _ w' hw => hw.sound_handBack started tip
      · exact h'.sound_handBack started tip

theorem Bidding.sound_watchRound (h : Bidding job w log) (hjob : Refunding job)
    (started : Instant) :
    Sound Logged Always (OnOk (BiddingRound job)) (watchRound job started w) log := by
  refine (sound_logged_call _ _).mpr ⟨trivial, fun answer => ?_⟩
  have h₁ : Bidding job w (log ++ [⟨.tipHeight, answer⟩]) := h.quiet rfl rfl
  refine sound_orThrow_bind trivial (fun _ _ => trivial) fun tip _ => ?_
  refine (sound_logged_call _ _).mpr ⟨trivial, fun answer' => ?_⟩
  refine sound_orThrow_bind trivial (fun _ _ => trivial) fun spend hspend => ?_
  subst hspend
  have h₂ (w' : Watch τ) (hw : w'.rate = w.rate) : Bidding job w'
      (log ++ [⟨.tipHeight, answer⟩] ++ [⟨.findSpend job.spk job.outpoint, .ok spend⟩]) := by
    refine Bidding.quiet ⟨hw ▸ h₁.rate, h₁.entered, h₁.reconciled⟩ ?_ rfl
    show Bids.search _ _ _ = _
    unfold Bids.search
    rw [h₁.entered]
    rfl
  cases spend with
  | none =>
      exact (h₂ { w with iterations := w.iterations + 1 } rfl).sound_checkDepth hjob started tip
  | some spend =>
      dsimp only
      split
      · exact ⟨trivial, (h₂ w rfl).reconciled⟩
      · exact (h₂ { w with iterations := w.iterations + 1, txid := Crypto.computeTxid spend }
          rfl).sound_checkDepth hjob started tip

variable (job) in
/-- What the answers have come to by the time the first spend is looked for or built. -/
structure Entered (live : Option Txid) (first : ℕ) (log : List Event) : Prop where
  rate : (bidsOf job.cfg log).rate = some first
  entered : (bidsOf job.cfg log).entering = false
  adopted : live.isSome → Reconciled job log
  missing : live = none → CallsFor job first log

/-- The search finds a spend on record, or one is called for. -/
theorem step_search (cfg : SpendWatchConfig) (rate : ℕ) (spk : Bytes) (outpoint : OutPoint)
    (spend : Option Transaction) :
    Bids.step cfg ⟨some rate, true, []⟩ ⟨.findSpend spk outpoint, .ok spend⟩ =
      ⟨some rate, false,
        match (spend.map Crypto.computeTxid).filter (· ∈ cfg.knownOurs) with
        | some _ => []
        | none => [rate]⟩ := by
  show Bids.search cfg ⟨some rate, true, []⟩ spend = _
  unfold Bids.search
  cases (spend.map Crypto.computeTxid).filter (· ∈ cfg.knownOurs) <;> rfl

/-- The first estimate, and the search for a spend on record. -/
theorem sound_liveSpend (target : ℕ) (answer : Except SwapError (Option ℕ)) :
    Sound Logged Always
      (OnOk fun live log => Entered job live (resolveFeeRate (estimated answer)
        job.cfg.floorRateSatVb job.cfg.capRateSatVb) log)
      (liveSpend job) [⟨.estimateFeeRate target, answer⟩] := by
  have hask : bidsOf job.cfg [⟨.estimateFeeRate target, answer⟩] =
      Bids.ask job.cfg {} (estimated answer) := rfl
  unfold liveSpend
  split
  · rename_i hnone
    have hbids := hask.trans (if_pos hnone)
    refine ⟨trivial, ?_, ?_, nofun, fun _ => ⟨[], ?_, rfl⟩⟩ <;> rw [hbids]
  · rename_i hsome
    have hbids := hask.trans (if_neg hsome)
    refine (sound_logged_call _ _).mpr ⟨trivial, fun answer' => ?_⟩
    refine sound_orThrow_bind trivial (fun _ _ => trivial) fun spend hspend => ?_
    subst hspend
    have hstep := bidsOf_snoc job.cfg [⟨.estimateFeeRate target, answer⟩]
      ⟨.findSpend job.spk job.outpoint, .ok spend⟩
    rw [hbids, step_search] at hstep
    refine ⟨trivial, ?_⟩
    cases hlive : (spend.map Crypto.computeTxid).filter (· ∈ job.cfg.knownOurs) with
    | some txid =>
        rw [hlive] at hstep
        refine ⟨by rw [hstep], by rw [hstep], fun _ => ?_, nofun⟩
        unfold Reconciled
        rw [hstep]
        rfl
    | none =>
        rw [hlive] at hstep
        refine ⟨by rw [hstep], by rw [hstep], nofun, fun _ => ⟨[], ?_, rfl⟩⟩
        rw [hstep]
        rfl

/-- The first spend: adopted, or built and announced. -/
theorem Entered.sound_firstSpend {live : Option Txid} {rate : ℕ}
    (h : Entered job live rate log) (seen : τ) :
    Sound Logged Always
      (OnOk fun _ log => (bidsOf job.cfg log).rate = some rate ∧
        (bidsOf job.cfg log).entering = false ∧ Reconciled job log)
      (firstSpend job seen rate live) log := by
  cases live with
  | some txid => exact ⟨trivial, h.rate, h.entered, h.adopted rfl⟩
  | none =>
      refine sound_orThrow_bind trivial (fun _ _ => trivial) fun tx hbuild => ?_
      refine ((h.missing rfl).sound_announce hbuild seen).andThen fun log' r ha => ?_
      obtain ⟨seen', answer⟩ := r
      refine sound_orThrow_bind trivial (fun _ _ => trivial) fun txid htxid => ?_
      cases answer with
      | ok txid' => exact ⟨trivial, ha.rate, ha.entered.trans h.entered, ha.reconciled⟩
      | error e => cases htxid

/-- **A call reports exactly the spends that its answers call for.** -/
theorem reports_confirmOrBump (hjob : Refunding job) (fuel : ℕ) (seen : τ) :
    Sound Logged Always (OnOk fun _ log => Reconciled job log) (confirmOrBump job fuel seen)
      [] := by
  refine sound_estimate_bind fun answer => ?_
  refine (sound_liveSpend _ answer).andThen fun log₁ live h₁ => ?_
  refine (h₁.sound_firstSpend seen).andThen fun log₂ r h₂ => ?_
  obtain ⟨txid, seen'⟩ := r
  obtain ⟨hrate, hentered, hreconciled⟩ := h₂
  refine (sound_logged_call _ _).mpr ⟨trivial, fun started => ?_⟩
  refine Sound.iterate (J := Bidding job) (fun _ _ _ => trivial)
    (fun w log hw => Sound.mono (fun _ _ => trivial) ?_ (hw.sound_watchRound hjob started)) fuel ?_
  · rintro s r - hr
    cases r with
    | error e => trivial
    | ok r => cases r <;> exact hr
  · have hfirst : Bidding job (⟨_, txid :: job.cfg.knownOurs, txid, 0, seen'⟩ : Watch τ) log₂ :=
      ⟨hrate, hentered, hreconciled⟩
    exact hfirst.quiet rfl rfl

end

end PubkySwap
