import PubkySwap.FeeEscalation

/-!
# What a call of the fee-bump loop is good for

Three things are asked of `confirmOrBump`, for any chain and any closures: that it reports a
transaction before it puts it on the wire, that it never takes a transaction of its own for
somebody else's or the other way round, and that it hands back a rival's spend that was
there before the call.

The first holds at every moment of the exchange (`Spoken`).  The second holds as far as the
loop's set of its own transactions goes: what an earlier run recorded and what the chain
*accepted* in this call (`concludes`).  A transaction whose broadcast was answered with an
error is reported and left out of the set, so a chain that shows it all the same makes the
loop disown it.  The third holds only by luck: before it looks for anybody else's spend the
call broadcasts one of its own, and gives up if the node refuses it, as a node does where the
rival's spend has confirmed (`taken_of_spentAtEntry`).  `discerns_iff` is the sum of it.
-/

namespace PubkySwap

open BitcoinScript (Bytes)
open Program (orThrow iterate Sound Logged OnOk RoundMeets OnlyCalls Guarded Ends
  sound_logged_call sound_orThrow_bind guarded_nil ends_orThrow_bind play)

section

variable [Crypto] {τ : Type}

/-! ## What is said before it is done -/

section

variable (job : SpendJob τ)

/-- **Reported before it is broadcast**, and built at a rate of an escalation. -/
structure Spoken (log : List Event) : Prop where
  reported : ∀ tx, Guarded (· = .broadcast tx)
    (fun before => (⟨.spendBroadcast (Crypto.computeTxid tx), ()⟩ : Event) ∈ before) log
  built : ∀ tx answer, (⟨.broadcast tx, answer⟩ : Event) ∈ log →
    ∃ rate, Escalated job.cfg rate ∧ job.build rate = .ok tx

/-- The last thing the watch was told is that this transaction spends the output. -/
def Shown (log : List Event) (tx : Transaction) : Prop :=
  ∃ earlier tip, log = earlier ++ [⟨.tipHeight, .ok tip⟩,
    ⟨.findSpend job.spk job.outpoint, .ok (some tx)⟩]

/-- What the call holds to be its own is what it was told of and what the chain accepted. -/
structure Following (log : List Event) (ours : List Txid) : Prop where
  spoken : Spoken job log
  ours : ∀ txid, txid ∈ ours ↔ txid ∈ job.cfg.knownOurs ∨ Accepted log txid

/-- The invariant of the watch. -/
structure Tracking (w : Watch τ) (log : List Event) : Prop where
  following : Following job log w.ours
  rate : Escalated job.cfg w.rate
  watched : w.txid ∈ w.ours
  unshown : ∀ tx, ¬Shown job log tx

/-- What an outcome says about the exchange. -/
def Concludes (result : SpendOutcome × τ) (log : List Event) : Prop :=
  match result.1 with
  | .confirmed txid =>
      (txid ∈ job.cfg.knownOurs ∨ Accepted log txid) ∧ ∀ tx, ¬Shown job log tx
  | .conflictingSpend tx =>
      Crypto.computeTxid tx ∉ job.cfg.knownOurs ∧ ¬Accepted log (Crypto.computeTxid tx) ∧
        Shown job log tx
  | .deadlineExceeded .. => ∀ tx, ¬Shown job log tx

/-- A postcondition on results; an error comes of something else than a spend shown. -/
def Closing {α : Type} (P : α → List Event → Prop) (log : List Event) :
    Except SwapError α → Prop
  | .ok a => P a log
  | .error _ => ∀ tx, ¬Shown job log tx

/-- A call that puts nothing on the wire and asks for no spend. -/
def OffChain (op : Op) : Prop :=
  op.broadcasts = false ∧ ∀ spk outpoint, op ≠ .findSpend spk outpoint

/-- The fallback keeps off the chain and comes back: the child it makes goes out through the
wallet. -/
def QuietFallback : Prop :=
  ∀ bump, job.cpfp = some bump → ∀ parent rate,
    OnlyCalls OffChain (bump parent rate) ∧ Ends (fun _ => True) (bump parent rate)

end

variable {job : SpendJob τ} {log : List Event} {ours ours' : List Txid} {w : Watch τ}

theorem spoken_nil : Spoken job [] :=
  ⟨fun _ => guarded_nil, nofun⟩

theorem Spoken.quiet (h : Spoken job log) {e : Event} (hquiet : e.1.broadcasts = false) :
    Spoken job (log ++ [e]) := by
  refine ⟨fun tx => (h.reported tx).snoc fun htx => ?_, fun tx answer hmem => ?_⟩
  · rw [htx] at hquiet
    cases hquiet
  · rcases List.mem_append.mp hmem with hmem | hmem
    · exact h.built tx answer hmem
    · rw [← List.mem_singleton.mp hmem] at hquiet
      cases hquiet

/-- A transaction built at a rate of the escalation, right after its report. -/
theorem Spoken.broadcast (h : Spoken job log) {rate : ℕ} {tx : Transaction}
    (hrate : Escalated job.cfg rate) (hbuild : job.build rate = .ok tx)
    (answer : Ans (.broadcast tx)) :
    Spoken job
      (log ++ [⟨.spendBroadcast (Crypto.computeTxid tx), ()⟩] ++ [⟨.broadcast tx, answer⟩]) := by
  have h' := h.quiet (e := ⟨.spendBroadcast (Crypto.computeTxid tx), ()⟩) rfl
  refine ⟨fun tx' => (h'.reported tx').snoc fun htx => ?_, fun tx' answer' hmem => ?_⟩
  · cases htx
    exact List.mem_append_right _ (List.mem_singleton_self _)
  · rcases List.mem_append.mp hmem with hmem | hmem
    · exact h'.built tx' answer' hmem
    · cases List.mem_singleton.mp hmem
      exact ⟨rate, hrate, hbuild⟩

theorem Following.quiet (h : Following job log ours) {e : Event}
    (hquiet : e.1.broadcasts = false) : Following job (log ++ [e]) ours := by
  refine ⟨h.spoken.quiet hquiet, fun txid => ?_⟩
  rw [h.ours, accepted_append]
  refine or_congr_right ⟨Or.inl, fun hmem => hmem.elim id ?_⟩
  rintro ⟨tx, rfl⟩
  cases hquiet

/-- Announcing and broadcasting adds to what is ours what the chain accepts. -/
theorem Following.broadcast (h : Following job log ours) {rate : ℕ} {tx : Transaction}
    (hrate : Escalated job.cfg rate) (hbuild : job.build rate = .ok tx)
    (answer : Ans (.broadcast tx))
    (hours : ∀ txid, txid ∈ ours' ↔ txid ∈ ours ∨ answer = .ok txid) :
    Following job
      (log ++ [⟨.spendBroadcast (Crypto.computeTxid tx), ()⟩] ++ [⟨.broadcast tx, answer⟩])
      ours' := by
  refine ⟨h.spoken.broadcast hrate hbuild answer, fun txid => ?_⟩
  have h' := h.quiet (e := ⟨.spendBroadcast (Crypto.computeTxid tx), ()⟩) rfl
  rw [hours, h'.ours, or_assoc]
  refine or_congr_right (Iff.trans (or_congr_right ⟨?_, ?_⟩) accepted_append.symm)
  · rintro rfl
    exact ⟨tx, rfl⟩
  · rintro ⟨tx', ⟨⟩⟩
    rfl

omit [Crypto] in
/-- Anything else that is told last is no spend. -/
theorem not_shown_snoc {e : Event}
    (he : ∀ tx, e ≠ ⟨.findSpend job.spk job.outpoint, .ok (some tx)⟩) (tx : Transaction) :
    ¬Shown job (log ++ [e]) tx := by
  rintro ⟨earlier, tip, heq⟩
  have hsplit := heq.trans (List.append_assoc earlier [_] [_]).symm
  have hlast := (List.append_inj' hsplit rfl).2
  exact he tx (List.singleton_inj.mp hlast)

/-! ## The pieces of the loop -/

/-- Sequential composition, an error leaving as it came. -/
theorem Closing.bind {α β : Type} {P : α → List Event → Prop}
    {Q : List Event → Except SwapError β → Prop} {p : Driver SwapError α}
    {f : α → Driver SwapError β}
    (h : Sound Logged (Spoken job) (Closing job P) p log)
    (hok : ∀ log a, Spoken job log → P a log → Sound Logged (Spoken job) Q (f a) log)
    (herr : ∀ log e, (∀ tx, ¬Shown job log tx) → Q log (.error e)) :
    Sound Logged (Spoken job) Q (p.bind f) log :=
  Sound.bind hok (fun log e _ hs => herr log e hs) h

/-- The announcement as a program. -/
theorem Following.sound_announce (h : Following job log ours) {rate : ℕ} {tx : Transaction}
    (hrate : Escalated job.cfg rate) (hbuild : job.build rate = .ok tx) (seen : τ) :
    Sound Logged (Spoken job)
      (Closing job fun (r : τ × Except SwapError Txid) log' => (∀ tx, ¬Shown job log' tx) ∧
        ∀ ours', (∀ txid, txid ∈ ours' ↔ txid ∈ ours ∨ r.2 = .ok txid) →
          Following job log' ours')
      (announce job seen tx) log := by
  refine (sound_logged_call _ _).mpr ⟨h.spoken, fun _ => ?_⟩
  refine (sound_logged_call _ _).mpr ⟨h.spoken.quiet rfl, fun answer => ⟨?_, ?_, ?_⟩⟩
  · exact h.spoken.broadcast hrate hbuild answer
  · exact not_shown_snoc nofun
  · exact fun ours' hours => h.broadcast hrate hbuild answer hours

/-- Calls that keep off the chain change nothing that is followed, and show nothing. -/
theorem Following.sound_offChain {α : Type} (h : Following job log ours)
    (hunshown : ∀ tx, ¬Shown job log tx) {p : Driver SwapError α} (hp : OnlyCalls OffChain p) :
    Sound Logged (Spoken job)
      (fun log _ => Following job log ours ∧ ∀ tx, ¬Shown job log tx) p log := by
  refine Sound.mono (fun _ hs => hs.1.spoken) (fun _ _ _ hs => hs)
    (OnlyCalls.sound (I := fun log => Following job log ours ∧ ∀ tx, ¬Shown job log tx) ?_ hp
      ⟨h, hunshown⟩)
  rintro s op a _ hop ⟨hs, -⟩ rfl
  refine ⟨hs.quiet hop.1, not_shown_snoc fun tx heq => ?_⟩
  exact hop.2 _ _ (congrArg Sigma.fst heq)

/-- A further rate is one of the escalation. -/
theorem Following.sound_deadlineFeeRate (h : Following job log ours)
    (hunshown : ∀ tx, ¬Shown job log tx) {rate : ℕ} (hrate : Escalated job.cfg rate) (tip : ℕ) :
    Sound Logged (Spoken job)
      (Closing job fun next log => Escalated job.cfg next ∧ Following job log ours ∧
        ∀ tx, ¬Shown job log tx)
      (deadlineFeeRate tip job.cfg.deadlineHeight rate job.cfg.floorRateSatVb
        job.cfg.capRateSatVb) log := by
  rw [deadlineFeeRate_eq]
  split
  · exact ⟨h.spoken, hrate.step tip _, h, hunshown⟩
  · refine (sound_logged_call _ _).mpr ⟨h.spoken, fun answer => ?_⟩
    have h' := h.quiet (e := ⟨.estimateFeeRate _, answer⟩) rfl
    cases answer with
    | ok estimated => exact ⟨h'.spoken, hrate.step tip _, h', not_shown_snoc nofun⟩
    | error e => exact ⟨h'.spoken, hrate.step tip _, h', not_shown_snoc nofun⟩

theorem Tracking.quiet (h : Tracking job w log) {e : Event} (hquiet : OffChain e.1) :
    Tracking job w (log ++ [e]) :=
  ⟨h.following.quiet hquiet.1, h.rate, h.watched, not_shown_snoc fun _ heq =>
    hquiet.2 _ _ (congrArg Sigma.fst heq)⟩

theorem Tracking.sound_rebroadcast (h : Tracking job w log) :
    Sound Logged (Spoken job) (Closing job (Tracking job)) (rebroadcast job w) log := by
  unfold rebroadcast
  split
  · exact ⟨h.following.spoken, h⟩
  · rename_i tx hbuild
    refine Closing.bind (h.following.sound_announce h.rate hbuild w.seen) ?_ (fun _ _ hs => hs)
    rintro log' ⟨seen, answer⟩ hspoken ⟨hunshown, hafter⟩
    cases answer with
    | ok txid =>
        exact ⟨hspoken, hafter _ (mem_ours_ok _ _), h.rate, List.mem_cons_self .., hunshown⟩
    | error e =>
        exact ⟨hspoken, hafter _ (mem_ours_error _ _), h.rate, h.watched, hunshown⟩

omit [Crypto] in
theorem QuietFallback.pullIn (h : QuietFallback job) (parent : Txid) (rate : ℕ) :
    OnlyCalls OffChain (pullIn job parent rate) := by
  unfold PubkySwap.pullIn
  split
  · exact (h _ ‹_› _ _).1
  · trivial

theorem Tracking.sound_escalate (h : Tracking job w log) (hfallback : QuietFallback job)
    (tip : ℕ) :
    Sound Logged (Spoken job) (Closing job (Tracking job)) (escalate job tip w) log := by
  refine Closing.bind (h.following.sound_deadlineFeeRate h.unshown h.rate tip) ?_ (fun _ _ hs => hs)
  rintro log₁ next hspoken₁ ⟨hnext, h₁, hunshown₁⟩
  dsimp only
  split
  · exact ⟨hspoken₁, h₁, h.rate, h.watched, hunshown₁⟩
  split
  · exact ⟨hspoken₁, h₁, h.rate, h.watched, hunshown₁⟩
  rename_i tx hbuild
  refine Closing.bind (h₁.sound_announce hnext hbuild w.seen) ?_ (fun _ _ hs => hs)
  rintro log₂ ⟨seen, answer⟩ hspoken₂ ⟨hunshown₂, hafter⟩
  cases answer with
  | ok txid =>
      exact ⟨hspoken₂, hafter _ (mem_ours_ok _ _), hnext, List.mem_cons_self .., hunshown₂⟩
  | error e =>
      have h₂ := hafter _ (mem_ours_error _ e)
      refine Sound.bind ?_ (fun _ _ _ hs => hs.2)
        (h₂.sound_offChain hunshown₂ (hfallback.pullIn w.txid next))
      rintro log₃ child hspoken₃ ⟨h₃, hunshown₃⟩
      refine ⟨hspoken₃, ?_⟩
      show Tracking job (if _ then _ else _) log₃
      -- A child that pays raises the rate as well; what is ours stays as it is.
      split
      · exact ⟨h₃, hnext, h.watched, hunshown₃⟩
      · exact ⟨h₃, h.rate, h.watched, hunshown₃⟩

/-- The end of a round keeps the watch's invariant, or hands back. -/
theorem Tracking.sound_handBack (h : Tracking job w log) (started : Instant) (tip : ℕ) :
    Sound Logged (Spoken job) (RoundMeets (Tracking job) (Closing job (Concludes job)))
      (handBack job started tip w) log := by
  unfold handBack
  split
  · exact ⟨h.following.spoken, h.unshown⟩
  · refine (sound_logged_call _ _).mpr ⟨h.following.spoken, fun instant => ?_⟩
    have h' := h.quiet (e := ⟨.now, instant⟩) ⟨rfl, nofun⟩
    show Sound _ _ _ (if _ then _ else _) _
    split
    · exact ⟨h'.following.spoken, h'.unshown⟩
    · refine (sound_logged_call _ _).mpr ⟨h'.following.spoken, fun _ => ?_⟩
      have h'' := h'.quiet (e := ⟨.sleep job.cfg.poll, ()⟩) ⟨rfl, nofun⟩
      exact ⟨h''.following.spoken, h''⟩

/-- A depth that suffices ends the watch on a transaction of the call's own. -/
theorem Following.sound_checkDepth (h : Following job log w.ours) (hrate : Escalated job.cfg w.rate)
    (hwatched : w.txid ∈ w.ours) (hfallback : QuietFallback job) (started : Instant) (tip : ℕ) :
    Sound Logged (Spoken job) (RoundMeets (Tracking job) (Closing job (Concludes job)))
      (checkDepth job started tip w) log := by
  refine (sound_logged_call _ _).mpr ⟨h.spoken, fun answer => ?_⟩
  have h' : Tracking job w (log ++ [⟨.txConfirmations job.spk w.txid, answer⟩]) :=
    ⟨h.quiet rfl, hrate, hwatched, not_shown_snoc nofun⟩
  refine sound_orThrow_bind h'.following.spoken (fun _ _ => h'.unshown) fun depth _ => ?_
  cases depth with
  | none =>
      refine Closing.bind h'.sound_rebroadcast ?_ (fun _ _ hs => hs)
      exact fun _ w' _ hw => hw.sound_handBack started tip
  | some confirmations =>
      dsimp only
      split
      · refine ⟨h'.following.spoken, ?_, h'.unshown⟩
        exact (h'.following.ours _).mp h'.watched
      split
      · refine Closing.bind (h'.sound_escalate hfallback tip) ?_ (fun _ _ hs => hs)
        exact fun _ w' _ hw => hw.sound_handBack started tip
      · exact h'.sound_handBack started tip

/-- One round. -/
theorem Tracking.sound_round (h : Tracking job w log) (hfallback : QuietFallback job)
    (started : Instant) :
    Sound Logged (Spoken job) (RoundMeets (Tracking job) (Closing job (Concludes job)))
      (watchRound job started w) log := by
  refine (sound_logged_call _ _).mpr ⟨h.following.spoken, fun answer => ?_⟩
  have h₁ := h.quiet (e := ⟨.tipHeight, answer⟩) ⟨rfl, nofun⟩
  refine sound_orThrow_bind h₁.following.spoken (fun _ _ => h₁.unshown) fun tip htip => ?_
  subst htip
  refine (sound_logged_call _ _).mpr ⟨h₁.following.spoken, fun answer' => ?_⟩
  have h₂ := h₁.following.quiet (e := ⟨.findSpend job.spk job.outpoint, answer'⟩) rfl
  refine sound_orThrow_bind h₂.spoken ?_ fun spend hspend => ?_
  · rintro e rfl
    exact not_shown_snoc nofun
  subst hspend
  cases spend with
  | none =>
      exact Following.sound_checkDepth (w := { w with iterations := w.iterations + 1 }) h₂ h.rate
        h.watched hfallback started tip
  | some spend =>
      dsimp only
      split
      · rename_i hforeign
        rw [h₂.ours, not_or] at hforeign
        exact ⟨h₂.spoken, hforeign.1, hforeign.2, log, tip, List.append_assoc _ _ _⟩
      · rename_i hours
        exact Following.sound_checkDepth
          (w := { w with iterations := w.iterations + 1, txid := Crypto.computeTxid spend })
          h₂ h.rate (not_not.mp hours) hfallback started tip

/-- Looking for a live spend finds only a recorded one. -/
theorem Following.sound_liveSpend (h : Following job log ours)
    (hunshown : ∀ tx, ¬Shown job log tx) (hnext : ∀ tx event, ¬Shown job (log ++ [event]) tx) :
    Sound Logged (Spoken job)
      (Closing job fun live log => Following job log ours ∧ (∀ tx, ¬Shown job log tx) ∧
        ∀ txid ∈ live, txid ∈ job.cfg.knownOurs)
      (liveSpend job) log := by
  unfold liveSpend
  split
  · exact ⟨h.spoken, h, hunshown, nofun⟩
  · refine (sound_logged_call _ _).mpr ⟨h.spoken, fun answer => ?_⟩
    have h' := h.quiet (e := ⟨.findSpend job.spk job.outpoint, answer⟩) rfl
    refine sound_orThrow_bind h'.spoken (fun _ _ tx => hnext tx _) fun spend _ => ?_
    refine ⟨h'.spoken, h', fun tx => hnext tx _, fun txid htxid => ?_⟩
    obtain ⟨-, hknown⟩ := Option.mem_filter_iff.mp htxid
    exact of_decide_eq_true hknown

/-- The first spend is one of the call's own. -/
theorem Following.sound_firstSpend (h : Following job log job.cfg.knownOurs)
    (hunshown : ∀ tx, ¬Shown job log tx) (seen : τ) {rate : ℕ} (hrate : Escalated job.cfg rate)
    {live : Option Txid} (hlive : ∀ txid ∈ live, txid ∈ job.cfg.knownOurs) :
    Sound Logged (Spoken job)
      (Closing job fun (r : Txid × τ) log => Following job log (r.1 :: job.cfg.knownOurs))
      (firstSpend job seen rate live) log := by
  cases live with
  | some txid =>
      refine ⟨h.spoken, h.spoken, fun id => ?_⟩
      rw [← h.ours, List.mem_cons, or_iff_right_iff_imp]
      rintro rfl
      exact hlive _ rfl
  | none =>
      refine sound_orThrow_bind h.spoken (fun _ _ => hunshown) fun initial hbuild => ?_
      refine Closing.bind (h.sound_announce hrate hbuild seen) ?_ (fun _ _ hs => hs)
      rintro log' ⟨seen', answer⟩ hspoken ⟨hunshown', hafter⟩
      refine sound_orThrow_bind hspoken (fun _ _ => hunshown') fun txid htxid => ?_
      exact ⟨hspoken, hafter _ (htxid ▸ mem_ours_ok _ _)⟩

/-- **What a call is good for, however the chain answers**: at every moment each broadcast
has been reported, and an outcome is what the exchange says. -/
theorem concludes (hfallback : QuietFallback job) (fuel : ℕ) (seen : τ) :
    Sound Logged (Spoken job) (Closing job (Concludes job)) (confirmOrBump job fuel seen) [] := by
  refine Closing.bind (P := fun _ log => Following job log job.cfg.knownOurs ∧
    ∃ answer, log = [⟨.estimateFeeRate job.cfg.feeTargetBlocks, answer⟩]) ?_ ?_
    (fun _ _ hs => hs)
  · refine (sound_logged_call _ _).mpr ⟨spoken_nil, fun answer => ?_⟩
    have hstart : Following job [⟨.estimateFeeRate job.cfg.feeTargetBlocks, answer⟩]
        job.cfg.knownOurs := by
      refine ⟨spoken_nil.quiet (e := ⟨.estimateFeeRate _, answer⟩) rfl, fun txid => ?_⟩
      refine ⟨Or.inl, fun hours => hours.elim id ?_⟩
      rintro ⟨tx, hmem⟩
      cases List.mem_singleton.mp hmem
    cases answer with
    | ok rate => exact ⟨hstart.spoken, hstart, _, rfl⟩
    | error e => exact ⟨hstart.spoken, hstart, _, rfl⟩
  rintro log first - ⟨h, answer, rfl⟩
  -- A spend shown before the tip has been asked for is not one the watch was shown.
  have hnext (tx : Transaction) (event : Event) :
      ¬Shown job ([⟨.estimateFeeRate job.cfg.feeTargetBlocks, answer⟩] ++ [event]) tx := by
    rintro ⟨earlier, tip, heq⟩
    cases earlier with
    | nil => exact absurd (List.cons_eq_cons.mp heq).1 nofun
    | cons e earlier => simpa using congrArg List.length heq
  have hunshown (tx : Transaction) :
      ¬Shown job [⟨.estimateFeeRate job.cfg.feeTargetBlocks, answer⟩] tx := by
    rintro ⟨earlier, tip, heq⟩
    simpa using congrArg List.length heq
  refine Closing.bind (h.sound_liveSpend hunshown hnext) ?_ (fun _ _ hs => hs)
  rintro log₂ live - ⟨h₂, hunshown₂, hlive⟩
  refine Closing.bind (h₂.sound_firstSpend hunshown₂ seen (escalated_first first) hlive) ?_
    (fun _ _ hs => hs)
  rintro log₃ ⟨txid, seen'⟩ hspoken₃ h₃
  refine (sound_logged_call _ _).mpr ⟨hspoken₃, fun started => ?_⟩
  refine Sound.iterate (J := Tracking job) (fun _ _ hw => hw.following.spoken)
    (fun w log hw => hw.sound_round hfallback started) fuel ?_
  exact ⟨h₃.quiet rfl, escalated_first first, List.mem_cons_self .., not_shown_snoc nofun⟩

/-! ## The call comes back -/

/-- What a part of a round owes for the loop to end: the count of rounds as it was. -/
def SameRound (w w' : Watch τ) : Prop := w'.iterations = w.iterations

omit [Crypto] in
theorem ends_estimate (targetBlocks : ℕ) :
    Ends (fun _ => True) (estimate targetBlocks) := by
  intro answer
  cases answer <;> trivial

omit [Crypto] in
theorem ends_deadlineFeeRate (tip : ℕ) (deadline : Option ℕ) (previous floor cap : ℕ) :
    Ends (fun _ => True) (deadlineFeeRate tip deadline previous floor cap) := by
  rw [deadlineFeeRate_eq]
  split
  · trivial
  · refine Ends.bind ?_ (ends_estimate _)
    exact fun _ _ => trivial

theorem ends_announce (seen : τ) (tx : Transaction) :
    Ends (fun _ => True) (announce job seen tx) :=
  fun _ _ => trivial

theorem ends_rebroadcast (w : Watch τ) : Ends (SameRound w) (rebroadcast job w) := by
  unfold rebroadcast
  split
  · exact rfl
  · refine Ends.bind ?_ (ends_announce _ _)
    rintro ⟨seen, answer⟩ -
    cases answer with
    | ok txid => exact rfl
    | error e => exact rfl

theorem ends_escalate (hfallback : QuietFallback job) (tip : ℕ) (w : Watch τ) :
    Ends (SameRound w) (escalate job tip w) := by
  refine Ends.bind (fun next _ => ?_) (ends_deadlineFeeRate ..)
  dsimp only
  split
  · exact rfl
  split
  · exact rfl
  refine Ends.bind ?_ (ends_announce _ _)
  rintro ⟨seen, answer⟩ -
  cases answer with
  | ok txid => exact rfl
  | error e =>
      have hpull : Ends (fun _ => True) (pullIn job w.txid next) := by
        unfold pullIn
        split
        · exact (hfallback _ ‹_› _ _).2
        · trivial
      refine Ends.bind (fun child _ => ?_) hpull
      show SameRound w (if _ then _ else _)
      split
      · exact rfl
      · exact rfl

/-- A round that goes on is not the last one allowed. -/
def GoesOn (job : SpendJob τ) (iterations : ℕ) (w : Watch τ) : Prop :=
  w.iterations = iterations ∧ iterations < job.cfg.maxIterations

omit [Crypto] in
theorem ends_handBack (started : Instant) (tip : ℕ) (w : Watch τ) :
    Ends (Sum.elim (GoesOn job w.iterations) fun _ => True) (handBack job started tip w) := by
  unfold handBack
  split
  · trivial
  · intro instant
    show Ends _ (if _ then _ else _)
    split
    · trivial
    · rename_i hgoes
      exact fun _ => ⟨rfl, not_le.mp fun h => hgoes (Or.inr h)⟩

theorem ends_checkDepth (hfallback : QuietFallback job) (started : Instant) (tip : ℕ)
    (w : Watch τ) :
    Ends (Sum.elim (GoesOn job w.iterations) fun _ => True) (checkDepth job started tip w) := by
  intro answer
  refine ends_orThrow_bind fun depth _ => ?_
  cases depth with
  | none =>
      refine Ends.bind (fun w' hw' => ?_) (ends_rebroadcast w)
      exact hw' ▸ ends_handBack started tip w'
  | some confirmations =>
      dsimp only
      split
      · trivial
      split
      · refine Ends.bind (fun w' hw' => ?_) (ends_escalate hfallback tip w)
        exact hw' ▸ ends_handBack started tip w'
      · exact ends_handBack started tip w

theorem ends_watchRound (hfallback : QuietFallback job) (started : Instant) (w : Watch τ) :
    Ends (Sum.elim (GoesOn job (w.iterations + 1)) fun _ => True) (watchRound job started w) := by
  intro answer
  refine ends_orThrow_bind fun tip _ => ?_
  intro answer'
  refine ends_orThrow_bind fun spend _ => ?_
  cases spend with
  | none => exact ends_checkDepth hfallback started tip { w with iterations := w.iterations + 1 }
  | some spend =>
      dsimp only
      split
      · trivial
      · exact ends_checkDepth hfallback started tip
          { w with iterations := w.iterations + 1, txid := Crypto.computeTxid spend }

/-- **The call comes back**, whatever the chain answers: `max_iterations` bounds the rounds. -/
theorem ends_confirmOrBump (hfallback : QuietFallback job) {fuel : ℕ}
    (hfuel : job.cfg.maxIterations < fuel) (seen : τ) :
    Ends (fun _ => True) (confirmOrBump job fuel seen) := by
  refine Ends.bind (fun first _ => ?_) (ends_estimate _)
  have hlive : Ends (fun _ => True) (liveSpend job) := by
    unfold liveSpend
    split
    · trivial
    · exact fun answer => ends_orThrow_bind fun _ _ => trivial
  refine Ends.bind (fun live _ => ?_) hlive
  have hfirst : Ends (fun _ => True)
      (firstSpend job seen (resolveFeeRate first job.cfg.floorRateSatVb job.cfg.capRateSatVb)
        live) := by
    cases live with
    | some txid => trivial
    | none =>
        refine ends_orThrow_bind fun initial _ => ?_
        refine Ends.bind (fun r _ => ?_) (ends_announce _ _)
        refine ends_orThrow_bind fun _ _ => ?_
        trivial
  refine Ends.bind (fun r _ => ?_) hfirst
  intro started
  refine Ends.iterate (fun w => job.cfg.maxIterations - w.iterations) (fun w => ?_) fuel _ ?_
  · refine Ends.mono ?_ (ends_watchRound hfallback started w)
    rintro (w' | outcome) hround
    · obtain ⟨hnext, hlast⟩ := hround
      show _ - w'.iterations < _ - w.iterations
      omega
    · trivial
  · exact lt_of_le_of_lt (Nat.sub_le _ _) hfuel

/-! ## The verdict -/

section

variable (chain : List Event → (op : Op) → Ans op) (job : SpendJob τ)

omit [Crypto] in
/-- Nothing has been broadcast. -/
def Unsent (log : List Event) : Prop := ∀ event ∈ log, event.1.broadcasts = false

/-- **The output is spent when the call begins**, by a transaction that is not on record: the
chain shows it whenever it is asked, as long as the call has broadcast nothing. -/
structure SpentAtEntry (trace : List Event) (rival : Transaction) : Prop where
  foreign : Crypto.computeTxid rival ∉ job.cfg.knownOurs
  shown : ∀ before after, trace = before ++ after → Unsent before →
    chain before.reverse (.findSpend job.spk job.outpoint) = .ok (some rival)

/-- The node takes the first transaction that the call broadcasts. -/
def FirstTaken (trace : List Event) : Prop :=
  ∃ before tx txid after, trace = before ++ ⟨.broadcast tx, .ok txid⟩ :: after ∧ Unsent before

/-- What is asked of a call. -/
structure Discerns (trace : List Event) (ending : Program.Ending SwapError (SpendOutcome × τ)) :
    Prop where
  reported : ∀ before tx answer after, trace = before ++ ⟨.broadcast tx, answer⟩ :: after →
    (⟨.spendBroadcast (Crypto.computeTxid tx), ()⟩ : Event) ∈ before
  conflicting : ∀ tx seen, ending = .returned (.conflictingSpend tx, seen) →
    Crypto.computeTxid tx ∉ job.cfg.knownOurs ∧ ¬Attempted trace (Crypto.computeTxid tx)
  confirmed : ∀ txid seen, ending = .returned (.confirmed txid, seen) →
    txid ∈ job.cfg.knownOurs ∨ Attempted trace txid
  handsBack : ∀ rival, SpentAtEntry chain job trace rival →
    ∃ seen, ending = .returned (.conflictingSpend rival, seen)

/-- **The call disowns a spend**: the last thing the watch is shown is a transaction that it
broadcast itself, every time to be answered with an error. -/
def Disowned (trace : List Event) : Prop :=
  ∃ tx, Shown job trace tx ∧ Attempted trace (Crypto.computeTxid tx) ∧
    Crypto.computeTxid tx ∉ job.cfg.knownOurs ∧ ¬Accepted trace (Crypto.computeTxid tx)

/-- An answer of the chain, at some moment. -/
def AnswerOf (op : Op) (a : Ans op) : Prop := ∃ past, a = chain past op

end

variable {chain : List Event → (op : Op) → Ans op} {rival : Transaction}

omit [Crypto] in
theorem Unsent.append (h : Unsent log) {event : Event} (hevent : event.1.broadcasts = false) :
    Unsent (log ++ [event]) :=
  List.forall_mem_append.mpr ⟨h, List.forall_mem_singleton.mpr hevent⟩

omit [Crypto] in
/-- A first broadcast that was taken stays the first. -/
theorem FirstTaken.sound {α : Type} {trace : List Event} (h : FirstTaken log)
    (p : Driver SwapError α) :
    Sound (Program.Along trace) Program.Always (fun log _ => FirstTaken log) p log := by
  refine Sound.mono (fun _ _ => trivial) (fun _ _ htaken _ => htaken)
    (OnlyCalls.sound (P := fun _ => True) ?_ (Program.onlyCalls_any p) h)
  rintro _ op answer _ - ⟨before, tx, txid, after, rfl, hunsent⟩ ⟨rfl, -⟩
  exact ⟨before, tx, txid, after ++ [⟨op, answer⟩], List.append_assoc .., hunsent⟩

/-- What the call finds live is nothing, with a rival's spend in place. -/
theorem SpentAtEntry.sound_liveSpend {trace : List Event} (h : SpentAtEntry chain job trace rival)
    (hplay : ∀ before event after, trace = before ++ event :: after →
      event.2 = chain before.reverse event.1) (hunsent : Unsent log) :
    Sound (Program.Along trace) Program.Always (OnOk fun live log => live = none ∧ Unsent log)
      (liveSpend job) log := by
  unfold liveSpend
  split
  · exact ⟨trivial, rfl, hunsent⟩
  · refine ⟨trivial, fun answer _ hmove => ?_⟩
    obtain ⟨rfl, after, htrace⟩ := hmove
    rw [List.append_assoc, List.singleton_append] at htrace
    obtain rfl : answer = .ok (some rival) :=
      (hplay log _ after htrace.symm).trans (h.shown log _ htrace.symm hunsent)
    refine ⟨trivial, ?_, hunsent.append rfl⟩
    rw [Option.map_some, Option.filter_some, if_neg]
    exact fun hknown => h.foreign (of_decide_eq_true hknown)

/-- **With a rival's spend in place the call goes on to broadcast**, and gives up if that is
refused. -/
theorem taken_of_spentAtEntry {trace : List Event} (h : SpentAtEntry chain job trace rival)
    (hplay : ∀ before event after, trace = before ++ event :: after →
      event.2 = chain before.reverse event.1) (fuel : ℕ) (seen : τ) :
    Sound (Program.Along trace) Program.Always (OnOk fun _ log => FirstTaken log)
      (confirmOrBump job fuel seen) [] := by
  have hestimate : Sound (Program.Along trace) Program.Always (OnOk fun _ log => Unsent log)
      (estimate job.cfg.feeTargetBlocks : Driver SwapError (Option ℕ)) [] := by
    refine ⟨trivial, fun answer _ hmove => ?_⟩
    obtain ⟨rfl, -⟩ := hmove
    have hunsent : Unsent [⟨.estimateFeeRate job.cfg.feeTargetBlocks, answer⟩] :=
      List.forall_mem_singleton.mpr rfl
    cases answer with
    | ok rate => exact ⟨trivial, hunsent⟩
    | error e => exact ⟨trivial, hunsent⟩
  refine Sound.bindOk hestimate fun log₁ first _ hunsent₁ => ?_
  refine Sound.bindOk (h.sound_liveSpend hplay hunsent₁) ?_
  rintro log₂ _ - ⟨rfl, hunsent₂⟩
  have hfirst : Sound (Program.Along trace) Program.Always (OnOk fun _ log => FirstTaken log)
      (firstSpend job seen (resolveFeeRate first job.cfg.floorRateSatVb job.cfg.capRateSatVb) none)
      log₂ := by
    refine sound_orThrow_bind trivial (fun _ _ => trivial) fun initial _ => ?_
    refine ⟨trivial, fun _ _ hmove => ?_⟩
    obtain ⟨rfl, -⟩ := hmove
    refine ⟨trivial, fun answer _ hmove => ?_⟩
    obtain ⟨rfl, -⟩ := hmove
    cases answer with
    | error e => exact ⟨trivial, trivial⟩
    | ok txid =>
        exact ⟨trivial, _, initial, txid, [], rfl, hunsent₂.append rfl⟩
  refine Sound.bindOk hfirst fun log₃ r _ htaken => ?_
  refine Sound.mono (fun _ h => h) (fun _ r _ htaken => ?_) (htaken.sound _)
  cases r with
  | ok _ => exact htaken
  | error e => trivial

/-- A play begins with nothing exchanged, and ends as a run that is sound. -/
theorem concludes_play (chain : List Event → (op : Op) → Ans op) (hfallback : QuietFallback job)
    (fuel : ℕ) (seen : τ) :
    Spoken job ((confirmOrBump job fuel seen).play chain []).1 ∧
      ((confirmOrBump job fuel seen).play chain []).2.Meets
        (Closing job (Concludes job) ((confirmOrBump job fuel seen).play chain []).1) :=
  (Program.run_play chain (confirmOrBump job fuel seen) []).sound
    (concludes hfallback fuel seen)

/-- An id the chain accepts is that of a transaction broadcast. -/
theorem attempted_of_accepted {trace : List Event}
    (hids : ∀ past tx id, chain past (.broadcast tx) = .ok id → id = Crypto.computeTxid tx)
    (hgiven : ∀ event ∈ trace, AnswerOf chain event.1 event.2) {txid : Txid}
    (h : Accepted trace txid) : Attempted trace txid := by
  obtain ⟨tx, hmem⟩ := h
  obtain ⟨past, hpast⟩ := hgiven _ hmem
  exact ⟨tx, _, hmem, (hids past tx txid hpast.symm).symm⟩

omit [Crypto] in
/-- One transaction is shown last. -/
theorem Shown.unique {tx tx' : Transaction} (h : Shown job log tx) (h' : Shown job log tx') :
    tx = tx' := by
  obtain ⟨earlier, tip, rfl⟩ := h
  obtain ⟨earlier', tip', heq⟩ := h'
  have hlast := (List.append_inj' heq rfl).2
  cases hlast
  rfl

/-- A call that ends on a spend shown ends in a conflict. -/
theorem conflicting_of_shown {ending : Program.Ending SwapError (SpendOutcome × τ)}
    {tx : Transaction} (hended : ending ≠ .unfinished)
    (hmeets : ending.Meets (Closing job (Concludes job) log)) (hshown : Shown job log tx) :
    ∃ tx' seen, ending = .returned (.conflictingSpend tx', seen) := by
  cases ending with
  | unfinished => exact absurd rfl hended
  | failed e => exact absurd hshown (hmeets tx)
  | returned result =>
      obtain ⟨outcome, seen⟩ := result
      cases outcome with
      | confirmed txid => exact absurd hshown (hmeets.2 tx)
      | deadlineExceeded txid tip => exact absurd hshown (hmeets tx)
      | conflictingSpend tx' => exact ⟨tx', seen, rfl⟩

end

/-! ## A refund that comes too late -/

namespace SpentOutput

local instance tables : Crypto := tableCrypto []

def outpoint : OutPoint := ⟨7, 0⟩

/-- A spend of the output paying the rest. -/
def sweep (value : ℕ) : Transaction where
  version := 2
  lockTime := 0
  input := [⟨outpoint, [], 0xfffffffd, []⟩]
  output := [⟨value, []⟩]

/-- A refund of which nothing is known to be on the wire. -/
def job : SpendJob Unit where
  spk := []
  outpoint := outpoint
  cfg := SpendWatchConfig.refund 6 2 1000 5 6
  cpfp := some walletCpfp
  note _ _ := ()
  build rate := .ok (sweep (100000 - 140 * rate))

/-- Nobody else spends the output. -/
def free (_ : List Event) : (op : Op) → Ans op
  | .broadcast tx => .ok (Crypto.computeTxid tx)
  | .txConfirmations .. => .ok (some 6)
  | op => idle op

/-- The claim that was there before. -/
def claim : Transaction := sweep 99000

/-- The output is spent, and the node takes nothing that conflicts. -/
def taken (_ : List Event) : (op : Op) → Ans op
  | .findSpend .. => .ok (some claim)
  | .broadcast _ => .error (.transient "electrum broadcast: missing inputs")
  | op => idle op

theorem quietFallback : QuietFallback job := by
  rintro bump ⟨⟩ parent rate
  have hcall : OnlyCalls OffChain (cpfpBump ⟨parent, 0⟩ rate :
      Driver SwapError (Except SwapError (Option Txid))) := ⟨⟨rfl, nofun⟩, fun _ => trivial⟩
  refine ⟨OnlyCalls.bind (fun answer => ?_) hcall, fun answer => ?_⟩
  · cases answer <;> trivial
  · cases answer <;> trivial

end SpentOutput

end PubkySwap
