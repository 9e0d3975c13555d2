import PubkySwap.BumpBids
import PubkySwap.OwnSpends
import PubkySwap.ProviderCalls

/-!
# What a driver's calls of the fee-bump loop are told

What a run of a driver keeps about its calls of `confirmOrBump`, from the marks it leaves.
The reverse driver and the client's submarine driver tell every call of the record they were
resumed with (`Passes`); the submarine driver carries what its calls report and tells the
next one of it (`Telling`).

`Orderly` is what all three keep, and what it takes for a call to discern the swap's own
spends (`Orderly.discerned`).  `passes_driveReverseSwap`, `passes_executeSubmarineSwap` and
`telling_driveSubmarineSwap` are the runs.
-/

namespace PubkySwap

open BitcoinScript (Bytes)
open Program (orThrow iterate mark plain erase markEvent Run Ending Event.plain Sound Logged OnOk
  Always RoundMeets OnlyCalls Guarded guarded_nil sound_logged_call sound_orThrow_bind
  onlyCalls_ask onlyCalls_pure onlyCalls_orThrow onlyCalls_orThrow_bind)

/-- Calls that neither report a spend nor put one on the wire. -/
def Op.silent : Op → Bool
  | .broadcast _ | .spendBroadcast _ => false
  | _ => true

/-- A program of such calls. -/
abbrev Silent {ε α : Type} (p : Driver ε α) : Prop := OnlyCalls (fun op => op.silent = true) p

/-! ## What a call writes down -/

section

variable [Crypto]

/-- What was known and what has been reported is in the list. -/
def Noted (known seen : List Txid) (log : List Event) : Prop :=
  ∀ txid, txid ∈ known ∨ (⟨.spendBroadcast txid, ()⟩ : Event) ∈ log → txid ∈ seen

/-- Every report is written down. -/
structure Notes (job : SpendJob (List Txid)) : Prop where
  note : ∀ seen txid, job.note seen txid = seen ++ [txid]
  fallback : ∀ bump, job.cpfp = some bump → ∀ parent rate, Silent (bump parent rate)

variable {job : SpendJob (List Txid)} {known seen : List Txid} {log : List Event}

omit [Crypto] in
/-- A silent call reports no spend, so the list still has what was reported. -/
theorem Noted.silent (h : Noted known seen log) {op : Op} (hop : op.silent = true) (a : Ans op) :
    Noted known seen (log ++ [⟨op, a⟩]) := by
  rintro txid (hknown | hmem)
  · exact h txid (.inl hknown)
  · rcases List.mem_append.mp hmem with hmem | hmem
    · exact h txid (.inr hmem)
    · cases List.mem_singleton.mp hmem
      cases hop

omit [Crypto] in
/-- A program of silent calls keeps the list complete, whatever it is answered. -/
theorem Noted.sound_silent {ε α : Type} (h : Noted known seen log) {p : Driver ε α}
    (hp : Silent p) : Sound Logged Always (OnOk fun _ log => Noted known seen log) p log := by
  refine OnlyCalls.soundOk ?_ hp h
  rintro log op a _ hop hlog rfl
  exact hlog.silent hop a

omit [Crypto] in
/-- A report that is written down. -/
theorem Noted.report (h : Noted known seen log) (txid : Txid) :
    Noted known (seen ++ [txid]) (log ++ [⟨.spendBroadcast txid, ()⟩]) := by
  rintro txid' (hknown | hmem)
  · exact List.mem_append_left _ (h txid' (.inl hknown))
  · rcases List.mem_append.mp hmem with hmem | hmem
    · exact List.mem_append_left _ (h txid' (.inr hmem))
    · cases List.mem_singleton.mp hmem
      exact List.mem_append_right _ (List.mem_singleton_self _)

variable (hjob : Notes job)

include hjob

/-- Announcing a spend notes it before it is broadcast, and the list it leaves has it. -/
theorem Notes.sound_announce (h : Noted known seen log) (tx : Transaction) :
    Sound Logged Always
      (OnOk fun (r : List Txid × Except SwapError Txid) log => Noted known r.1 log)
      (announce job seen tx) log := by
  refine (sound_logged_call _ _).mpr ⟨trivial, fun _ => ?_⟩
  refine (sound_logged_call _ _).mpr ⟨trivial, fun answer => ⟨trivial, ?_⟩⟩
  intro txid hmem
  show txid ∈ job.note seen (Crypto.computeTxid tx)
  rw [hjob.note]
  refine h.report _ txid (hmem.imp_right fun hmem => ?_)
  rcases List.mem_append.mp hmem with hmem | hmem
  · exact hmem
  · cases List.mem_singleton.mp hmem

/-- A rebroadcast notes what it reports, and so leaves a complete list. -/
theorem Notes.sound_rebroadcast {w : Watch (List Txid)} (h : Noted known w.seen log) :
    Sound Logged Always (OnOk fun (w : Watch (List Txid)) log => Noted known w.seen log)
      (rebroadcast job w) log := by
  unfold rebroadcast
  split
  · exact ⟨trivial, h⟩
  · refine (hjob.sound_announce h _).andThen fun log' r hnoted => ?_
    obtain ⟨seen', answer⟩ := r
    cases answer with
    | ok txid => exact ⟨trivial, hnoted⟩
    | error e => exact ⟨trivial, hnoted⟩

omit [Crypto] hjob in
/-- Asking for a fee rate is silent. -/
theorem silent_estimate (targetBlocks : ℕ) : Silent (estimate targetBlocks) := by
  refine OnlyCalls.bind (fun answer => ?_) ((onlyCalls_ask _).mpr rfl)
  cases answer <;> trivial

omit [Crypto] hjob in
/-- Choosing the fee rate for a deadline is silent. -/
theorem silent_deadlineFeeRate (tip : ℕ) (deadline : Option ℕ) (previous floor cap : ℕ) :
    Silent (deadlineFeeRate tip deadline previous floor cap) := by
  unfold deadlineFeeRate
  dsimp only
  split
  · trivial
  · exact OnlyCalls.bind (fun _ => onlyCalls_pure _) (silent_estimate _)

omit [Crypto] in
/-- Pulling the parent in by a child, where the job has such a bump, is silent. -/
theorem Notes.silent_pullIn (parent : Txid) (rate : ℕ) : Silent (pullIn job parent rate) := by
  unfold pullIn
  split
  · exact hjob.fallback _ ‹_› _ _
  · trivial

/-- An escalation announces at most one replacement, and leaves a complete list. -/
theorem Notes.sound_escalate {w : Watch (List Txid)} (h : Noted known w.seen log) (tip : ℕ) :
    Sound Logged Always (OnOk fun (w : Watch (List Txid)) log => Noted known w.seen log)
      (escalate job tip w) log := by
  refine (h.sound_silent (silent_deadlineFeeRate tip _ _ _ _)).andThen fun log₁ next h₁ => ?_
  dsimp only
  split
  · exact ⟨trivial, h₁⟩
  split
  · exact ⟨trivial, h₁⟩
  refine (hjob.sound_announce h₁ _).andThen fun log₂ r h₂ => ?_
  obtain ⟨seen', answer⟩ := r
  cases answer with
  | ok txid => exact ⟨trivial, h₂⟩
  | error e =>
      refine (h₂.sound_silent (hjob.silent_pullIn w.txid next)).andThen fun log₃ child h₃ => ?_
      refine ⟨trivial, ?_⟩
      show Noted known (Watch.seen (if _ then _ else _)) log₃
      split <;> exact h₃

/-- What a round owes: the list goes with the watch, or with the outcome. -/
abbrev NotedRound (known : List Txid) (r : Watch (List Txid) ⊕ (SpendOutcome × List Txid))
    (log : List Event) : Prop :=
  Noted known (r.elim Watch.seen Prod.snd) log

omit [Crypto] hjob in
/-- Handing back is silent, so the list goes with the outcome or with the watch. -/
theorem Noted.sound_handBack {w : Watch (List Txid)} (h : Noted known w.seen log)
    (started : Instant) (tip : ℕ) :
    Sound Logged Always (OnOk (NotedRound known)) (handBack job started tip w) log := by
  unfold handBack
  split
  · exact ⟨trivial, h⟩
  · refine (sound_logged_call _ _).mpr ⟨trivial, fun instant => ?_⟩
    have h' : Noted known w.seen (log ++ [⟨.now, instant⟩]) := h.silent rfl instant
    show Sound _ _ _ (if _ then _ else _) _
    split
    · exact ⟨trivial, h'⟩
    · exact (sound_logged_call _ _).mpr ⟨trivial, fun _ => ⟨trivial, h'.silent rfl _⟩⟩

/-- The look at the depth ends with the list complete, or goes on with it. -/
theorem Notes.sound_checkDepth {w : Watch (List Txid)} (h : Noted known w.seen log)
    (started : Instant) (tip : ℕ) :
    Sound Logged Always (OnOk (NotedRound known)) (checkDepth job started tip w) log := by
  refine (sound_logged_call _ _).mpr ⟨trivial, fun answer => ?_⟩
  have h' : Noted known w.seen (log ++ [⟨.txConfirmations job.spk w.txid, answer⟩]) :=
    h.silent rfl answer
  refine sound_orThrow_bind trivial (fun _ _ => trivial) fun depth _ => ?_
  cases depth with
  | none => exact (hjob.sound_rebroadcast h').andThen fun _ w' hw => hw.sound_handBack started tip
  | some confirmations =>
      dsimp only
      split
      · exact ⟨trivial, h'⟩
      split
      · exact (hjob.sound_escalate h' tip).andThen fun _ w' hw => hw.sound_handBack started tip
      · exact h'.sound_handBack started tip

/-- A round of the loop ends with the list complete, or goes on with it. -/
theorem Notes.sound_watchRound {w : Watch (List Txid)} (h : Noted known w.seen log)
    (started : Instant) :
    Sound Logged Always (OnOk (NotedRound known)) (watchRound job started w) log := by
  refine (sound_logged_call _ _).mpr ⟨trivial, fun answer => ?_⟩
  have h₁ : Noted known w.seen (log ++ [⟨.tipHeight, answer⟩]) := h.silent rfl answer
  refine sound_orThrow_bind trivial (fun _ _ => trivial) fun tip _ => ?_
  refine (sound_logged_call _ _).mpr ⟨trivial, fun answer' => ?_⟩
  have h₂ : Noted known w.seen
      (log ++ [⟨.tipHeight, answer⟩] ++ [⟨.findSpend job.spk job.outpoint, answer'⟩]) :=
    h₁.silent rfl answer'
  refine sound_orThrow_bind trivial (fun _ _ => trivial) fun spend _ => ?_
  cases spend with
  | none =>
      exact hjob.sound_checkDepth (w := { w with iterations := w.iterations + 1 }) h₂ started tip
  | some spend =>
      dsimp only
      split
      · exact ⟨trivial, h₂⟩
      · exact hjob.sound_checkDepth
          (w := { w with iterations := w.iterations + 1, txid := Crypto.computeTxid spend })
          h₂ started tip

/-- **A call writes down every spend it reports.** -/
theorem Notes.sound_confirmOrBump (h : Noted known seen log) (fuel : ℕ) :
    Sound Logged Always (OnOk fun (r : SpendOutcome × List Txid) log => Noted known r.2 log)
      (confirmOrBump job fuel seen) log := by
  refine (h.sound_silent (silent_estimate _)).andThen fun log₁ first h₁ => ?_
  have hlive : Silent (liveSpend job) := by
    unfold liveSpend
    split
    · trivial
    · refine ⟨rfl, fun answer => OnlyCalls.bind (fun _ => onlyCalls_pure _) (onlyCalls_orThrow _ _)⟩
  refine (h₁.sound_silent hlive).andThen fun log₂ live h₂ => ?_
  have hfirst : Sound Logged Always
      (OnOk fun (r : Txid × List Txid) log => Noted known r.2 log)
      (firstSpend job seen (resolveFeeRate first job.cfg.floorRateSatVb job.cfg.capRateSatVb) live)
      log₂ := by
    cases live with
    | some txid => exact ⟨trivial, h₂⟩
    | none =>
        refine sound_orThrow_bind trivial (fun _ _ => trivial) fun initial _ => ?_
        refine (hjob.sound_announce h₂ initial).andThen fun log₃ r h₃ => ?_
        exact sound_orThrow_bind trivial (fun _ _ => trivial) fun txid _ => ⟨trivial, h₃⟩
  refine hfirst.andThen fun log₃ r h₃ => ?_
  refine (sound_logged_call _ _).mpr ⟨trivial, fun started => ?_⟩
  refine Sound.iterate (J := fun w log => Noted known (Watch.seen w) log) (fun _ _ _ => trivial)
    (fun w log hw => Sound.mono (fun _ _ => trivial) ?_ (hjob.sound_watchRound hw started)) fuel
    (h₃.silent rfl started)
  rintro s r - hr
  cases r with
  | error e => trivial
  | ok r => cases r <;> exact hr

end

/-! ## What is asked of a run -/

/-- The swap has reported this spend. -/
def Reported (log : List MarkedEvent) (txid : Txid) : Prop :=
  Event.plain ⟨.spendBroadcast txid, ()⟩ ∈ log

/-- **Every call is told of every spend of the swap**: those on record and those reported
before it. -/
def Told (onRecord : List Txid) (log : List MarkedEvent) : Prop :=
  ∀ cfg build, Guarded (· = .inr (.called cfg build))
    (fun before => ∀ txid, txid ∈ onRecord ∨ Reported before txid → txid ∈ cfg.knownOurs) log

/-- A call with its arguments and its exchange. -/
structure BumpCall where
  cfg : SpendWatchConfig
  build : ℕ → Except SwapError Transaction
  exchange : List Event

/-- The call that is under way, and those that are over. -/
structure BumpCalls where
  current : Option BumpCall := none
  finished : List BumpCall := []

/-- What an exchange makes of the calls. -/
def BumpCalls.step (calls : BumpCalls) : MarkedEvent → BumpCalls
  | ⟨.inr (.called cfg build), _⟩ => { calls with current := some ⟨cfg, build, []⟩ }
  | ⟨.inr (.ended _), _⟩ => ⟨none, calls.finished ++ calls.current.toList⟩
  | ⟨.inl op, a⟩ =>
      { calls with
        current := calls.current.map fun call =>
          { call with exchange := call.exchange ++ [⟨op, a⟩] } }

/-- The calls of a run. -/
def bumpCalls (log : List MarkedEvent) : BumpCalls := log.foldl BumpCalls.step {}

section

variable [Crypto]

/-- The spends that the answers to a call called for. -/
def BumpCall.owed (call : BumpCall) : List Txid :=
  Bids.owed call.build (bidsOf call.cfg call.exchange).offers

/-- **When the loop comes round again, the record has what was called for**: the first spend
at the rate of the first estimate, unless the chain showed one of the record at once; the
same again for every time the node had lost it; a replacement at the next rate for every time
it was unconfirmed below the ceiling. -/
def OnRecordWhenReentered (onRecord : List Txid) (log : List MarkedEvent) : Prop :=
  ∀ cfg build, Guarded (· = .inr (.called cfg build))
    (fun before => ∀ call ∈ (bumpCalls before).finished, ∀ txid ∈ call.owed, txid ∈ onRecord) log

/-- **No spend of the swap is taken for somebody else's.** -/
def Discerned (onRecord : List Txid) (log : List MarkedEvent) : Prop :=
  ∀ tx, Guarded (· = .inr (.ended (.conflictingSpend tx)))
    (fun before => Crypto.computeTxid tx ∉ onRecord ∧ ¬Reported before (Crypto.computeTxid tx)) log

/-- **A chain to be relied on**: it answers a broadcast it accepts with the id of the
transaction, and of what the swap reported it shows only what it accepted. -/
structure FaithfulChain (onRecord : List Txid) (log : List MarkedEvent) : Prop where
  ids : ∀ tx id, Event.plain ⟨.broadcast tx, .ok id⟩ ∈ log → id = Crypto.computeTxid tx
  shows : ∀ before spk outpoint tx after,
    log = before ++ Event.plain ⟨.findSpend spk outpoint, .ok (some tx)⟩ :: after →
    Reported before (Crypto.computeTxid tx) → Crypto.computeTxid tx ∈ onRecord ∨
      ∃ tx', Event.plain ⟨.broadcast tx', .ok (Crypto.computeTxid tx)⟩ ∈ before

/-! ## Calls in a run -/

/-- A call has just ended on a spend it was shown last, of which it was not told and which the
chain has not accepted in the call. -/
def EndsOn (tx : Transaction) (before : List MarkedEvent) : Prop :=
  ∃ start cfg build call spk outpoint,
    before = start ++ markEvent (.called cfg build) :: call.map Event.plain ++
      [Event.plain ⟨.findSpend spk outpoint, .ok (some tx)⟩] ∧
    Crypto.computeTxid tx ∉ cfg.knownOurs ∧ ¬Accepted call (Crypto.computeTxid tx)

/-- What every driver keeps: reports come before their broadcasts, and a conflict comes of a
call that ends on it. -/
structure Orderly (log : List MarkedEvent) : Prop where
  spoken : ∀ tx, Guarded (· = .inl (.broadcast tx))
    (fun before => Reported before (Crypto.computeTxid tx)) log
  concluded : ∀ tx, Guarded (· = .inr (.ended (.conflictingSpend tx))) (EndsOn tx) log

variable {onRecord : List Txid} {log : List MarkedEvent}

/-- **Who is told of everything discerns its own.** -/
theorem Orderly.discerned (h : Orderly log) (htold : Told onRecord log)
    (hchain : FaithfulChain onRecord log) : Discerned onRecord log := by
  rintro tx before event after rfl hevent
  obtain ⟨start, cfg, build, call, spk, outpoint, rfl, hforeign, hrefused⟩ :=
    h.concluded tx before event after rfl hevent
  have hknown : ∀ txid, txid ∈ onRecord ∨ Reported start txid → txid ∈ cfg.knownOurs := by
    refine htold cfg build start (markEvent (.called cfg build)) (call.map Event.plain ++
      [Event.plain ⟨.findSpend spk outpoint, .ok (some tx)⟩] ++ event :: after) ?_ rfl
    simp only [List.append_assoc, List.cons_append]
  have hrecord : Crypto.computeTxid tx ∉ onRecord := fun hmem => hforeign (hknown _ (.inl hmem))
  have hstart : ¬Reported start (Crypto.computeTxid tx) := fun hmem =>
    hforeign (hknown _ (.inr hmem))
  refine ⟨hrecord, fun hreported => ?_⟩
  have hbefore : Reported (start ++ markEvent (.called cfg build) :: call.map Event.plain)
      (Crypto.computeTxid tx) := by
    refine (List.mem_append.mp hreported).resolve_right fun hlast => ?_
    cases List.mem_singleton.mp hlast
  -- The chain showed it, so it had accepted it: in this call, or in one before.
  obtain ⟨tx', haccepted⟩ := (hchain.shows _ spk outpoint tx (event :: after)
    (List.append_assoc _ _ _) hbefore).resolve_left hrecord
  rcases List.mem_append.mp haccepted with hmem | hmem
  · have hid := hchain.ids tx' (Crypto.computeTxid tx)
      (List.mem_append_left _ (List.mem_append_left _ (List.mem_append_left _ hmem)))
    obtain ⟨earlier, later, rfl⟩ := List.append_of_mem hmem
    have hearlier : Reported earlier (Crypto.computeTxid tx') := by
      refine h.spoken tx' earlier
        (Event.plain ⟨.broadcast tx', .ok (Crypto.computeTxid tx)⟩)
        (later ++ markEvent (.called cfg build) :: call.map Event.plain ++
          [Event.plain ⟨.findSpend spk outpoint, .ok (some tx)⟩] ++ event :: after) ?_ rfl
      simp only [List.append_assoc, List.cons_append]
    rw [← hid] at hearlier
    exact hstart (List.mem_append_left _ hearlier)
  · obtain ⟨e, hcall, heq⟩ : ∃ e ∈ call, (Event.plain e : MarkedEvent) =
        Event.plain ⟨.broadcast tx', .ok (Crypto.computeTxid tx)⟩ := by
      refine List.mem_map.mp ((List.mem_cons.mp hmem).resolve_left nofun)
    exact hrefused ⟨tx', Program.Event.plain_injective heq ▸ hcall⟩

/-! ## What keeps a run in order -/

omit [Crypto] in
/-- A run goes on without a mark, a report or a broadcast. -/
theorem sound_plain_silent {ε α : Type} {K : List MarkedEvent → Prop}
    (hK : ∀ log op (a : Ans op), op.silent = true → K log → K (log ++ [Event.plain ⟨op, a⟩]))
    {p : Driver ε α} (hp : Silent p) (h : K log) :
    Sound Logged K (fun log _ => K log) (plain p : MarkedDriver ε α) log := by
  refine OnlyCalls.sound ?_ hp.plain h
  rintro log (op | m) a _ hop hlog rfl
  · exact hK log op a hop hlog
  · exact hop.elim

omit [Crypto] in
/-- What two logs in a row report is what either of them reports. -/
theorem reported_append {log' : List MarkedEvent} {txid : Txid} :
    Reported (log ++ log') txid ↔ Reported log txid ∨ Reported log' txid :=
  List.mem_append

omit [Crypto] in
/-- A mark is no report. -/
theorem not_reported_mark {m : BumpMark} {txid : Txid} : ¬Reported [markEvent m] txid := by
  intro h
  cases List.mem_singleton.mp h

/-- A silent call may come anywhere in an orderly log. -/
theorem Orderly.silent (h : Orderly log) (op : Op) (a : Ans op) (hop : op.silent = true) :
    Orderly (log ++ [Event.plain ⟨op, a⟩]) := by
  refine ⟨fun tx => (h.spoken tx).snoc fun heq => ?_, fun tx => (h.concluded tx).snoc nofun⟩
  cases heq
  cases hop

/-- A report and a mark that is no conflict break no order. -/
theorem Orderly.report (h : Orderly log) (txid : Txid) :
    Orderly (log ++ [Event.plain ⟨.spendBroadcast txid, ()⟩]) :=
  ⟨fun tx => (h.spoken tx).snoc nofun, fun tx => (h.concluded tx).snoc nofun⟩

/-- The mark of a call may follow any orderly log. -/
theorem Orderly.called (h : Orderly log) (cfg : SpendWatchConfig)
    (build : ℕ → Except SwapError Transaction) :
    Orderly (log ++ [markEvent (.called cfg build)]) :=
  ⟨fun tx => (h.spoken tx).snoc nofun, fun tx => (h.concluded tx).snoc nofun⟩

variable {τ : Type} {job : SpendJob τ}

/-- A call under way is in order. -/
theorem Orderly.calling (h : Orderly log) {call : List Event} (hcall : Spoken job call) :
    Orderly (log ++ call.map Event.plain) := by
  refine ⟨fun tx => (h.spoken tx).plain ?_ ?_ (hcall.reported tx), fun tx =>
    (h.concluded tx).plain_of_marks nofun call⟩
  · rintro op ⟨⟩
    rfl
  · exact fun before hmem => List.mem_append_right _ (List.mem_map_of_mem hmem)

/-- A call that has come to its end is in order. -/
theorem Orderly.ended (h : Orderly log) {call : List Event} (hcall : Spoken job call)
    {outcome : SpendOutcome} {seen : τ} (hends : Concludes job (outcome, seen) call) :
    Orderly (log ++ [markEvent (.called job.cfg job.build)] ++ call.map Event.plain ++
      [markEvent (.ended outcome)]) := by
  have h' := (h.called job.cfg job.build).calling hcall
  refine ⟨fun tx => (h'.spoken tx).snoc nofun, fun tx => (h'.concluded tx).snoc fun heq => ?_⟩
  cases heq
  obtain ⟨hforeign, hrefused, earlier, tip, rfl⟩ := hends
  refine ⟨log, job.cfg, job.build, earlier ++ [⟨.tipHeight, .ok tip⟩], job.spk, job.outpoint,
    ?_, hforeign, fun haccepted => hrefused ?_⟩
  · simp
  · obtain ⟨tx', hmem⟩ := haccepted
    exact ⟨tx', by simpa using hmem⟩

/-- **A call between its marks**: what is kept through the call and past its end is kept. -/
theorem sound_markedBump {K : List MarkedEvent → Prop} {P : SpendOutcome × τ → List Event → Prop}
    (hfallback : QuietFallback job) {fuel : ℕ} {seen : τ}
    (hspec : Sound Logged Always (OnOk P) (confirmOrBump job fuel seen) []) (hstart : K log)
    (hcalling : ∀ call, Spoken job call →
      K (log ++ [markEvent (.called job.cfg job.build)] ++ call.map Event.plain))
    (hended : ∀ call result, Spoken job call → Concludes job result call →
      K (log ++ [markEvent (.called job.cfg job.build)] ++ call.map Event.plain ++
        [markEvent (.ended result.1)])) :
    Sound Logged K
      (fun log' r => K log' ∧ ∀ result, r = .ok result → ∃ call, P result call ∧
        log' = log ++ [markEvent (.called job.cfg job.build)] ++ call.map Event.plain ++
          [markEvent (.ended result.1)])
      (markedBump job fuel seen) log := by
  refine (sound_logged_call _ _).mpr ⟨hstart, fun _ => ?_⟩
  have hcall := Sound.mono (fun _ hI => hI.1) (fun _ _ hI hQ => And.intro hI.1 hQ)
    ((concludes hfallback fuel seen).and hspec)
  have hplain := hcall.plain (log ++ [markEvent (.called job.cfg job.build)])
  rw [List.map_nil, List.append_nil] at hplain
  show Sound Logged K _ ((plain (confirmOrBump job fuel seen)).bind _) _
  refine Sound.bind ?_ ?_ (Sound.mono ?_ (fun _ _ _ h => h) hplain)
  · rintro _ ⟨outcome, seen'⟩ hK ⟨call, rfl, hspoken, hends, hP⟩
    refine (sound_logged_call _ _).mpr ⟨hK, fun _ => ?_⟩
    have hlast := hended call (outcome, seen') hspoken hends
    refine ⟨hlast, hlast, ?_⟩
    rintro _ ⟨⟩
    exact ⟨call, hP, rfl⟩
  · exact fun _ e hK _ => ⟨hK, nofun⟩
  · rintro _ ⟨call, rfl, hspoken⟩
    exact hcalling call hspoken

omit [Crypto] in
/-- Both drivers' fallback only talks to the wallet. -/
theorem quietFallback_walletCpfp (h : job.cpfp = some walletCpfp) :
    QuietFallback job := by
  intro bump hbump parent rate
  cases h.symm.trans hbump
  refine ⟨⟨⟨rfl, nofun⟩, fun answer => ?_⟩, fun answer => ?_⟩ <;> cases answer <;> trivial

/-! ## The calls of a run -/

omit [Crypto] in
/-- Reading the calls off a log takes one event at a time, from the left. -/
@[simp] theorem bumpCalls_snoc (log : List MarkedEvent) (event : MarkedEvent) :
    bumpCalls (log ++ [event]) = (bumpCalls log).step event := by
  unfold bumpCalls
  rw [List.foldl_append]
  rfl

omit [Crypto] in
/-- Between two calls an exchange is nobody's. -/
theorem bumpCalls_plain {log : List MarkedEvent} (h : (bumpCalls log).current = none) (op : Op)
    (a : Ans op) : bumpCalls (log ++ [Event.plain ⟨op, a⟩]) = bumpCalls log := by
  rw [bumpCalls_snoc]
  show BumpCalls.mk ((bumpCalls log).current.map _) (bumpCalls log).finished = _
  rw [h]
  cases hcalls : bumpCalls log with
  | mk current finished =>
      rw [hcalls] at h
      cases h
      rfl

omit [Crypto] in
/-- A call under way gets its exchange. -/
theorem bumpCalls_calling (log : List MarkedEvent) (cfg : SpendWatchConfig)
    (build : ℕ → Except SwapError Transaction) (call : List Event) :
    bumpCalls (log ++ [markEvent (.called cfg build)] ++ call.map Event.plain) =
      ⟨some ⟨cfg, build, call⟩, (bumpCalls log).finished⟩ := by
  induction call using List.reverseRecOn with
  | nil =>
      rw [List.map_nil, List.append_nil, bumpCalls_snoc]
      rfl
  | append_singleton call event ih =>
      rw [List.map_append, ← List.append_assoc]
      exact (bumpCalls_snoc _ _).trans (congrArg (BumpCalls.step · (Event.plain event)) ih)

omit [Crypto] in
/-- A call that is over stays over. -/
theorem finished_append (log log' : List MarkedEvent) :
    (bumpCalls log).finished <+: (bumpCalls (log ++ log')).finished := by
  induction log' using List.reverseRecOn with
  | nil => rw [List.append_nil]
  | append_singleton log' event ih =>
      rw [← List.append_assoc, bumpCalls_snoc]
      refine ih.trans ?_
      rcases event with ⟨op | ⟨cfg, build⟩ | outcome, a⟩
      · exact List.prefix_refl _
      · exact List.prefix_refl _
      · exact List.prefix_append _ _

/-- It is enough that all that was called for in the run is on record. -/
theorem onRecord_of_finished
    (h : ∀ call ∈ (bumpCalls log).finished, ∀ txid ∈ call.owed, txid ∈ onRecord) :
    OnRecordWhenReentered onRecord log := by
  rintro cfg build before event after rfl - call hcall
  exact h call ((finished_append before (event :: after)).subset hcall)

/-! ## Drivers that tell every call of the record -/

/-- Every report has been called for by the answers to a call that is over. -/
def Answered (log : List MarkedEvent) : Prop :=
  ∀ txid, Reported log txid ↔ ∃ call ∈ (bumpCalls log).finished, txid ∈ call.owed

/-- Every call is told of the record, and comes when the call before it is over. -/
structure Passes (onRecord : List Txid) (log : List MarkedEvent) : Prop where
  orderly : Orderly log
  known : ∀ cfg build, Guarded (· = .inr (.called cfg build)) (fun _ => cfg.knownOurs = onRecord)
    log
  answered : ∀ cfg build, Guarded (· = .inr (.called cfg build)) Answered log

/-- **When the record is enough**: every call is told of all the spends of the swap if and
only if the record has whatever the answers to the calls before it called for. -/
theorem Passes.told_iff (h : Passes onRecord log) :
    Told onRecord log ↔ OnRecordWhenReentered onRecord log := by
  constructor
  · rintro htold cfg build before event after hsplit hevent call hcall txid howed
    rw [← h.known cfg build before event after hsplit hevent]
    refine htold cfg build before event after hsplit hevent txid (.inr ?_)
    exact (h.answered cfg build before event after hsplit hevent txid).mpr ⟨call, hcall, howed⟩
  · rintro hrecord cfg build before event after hsplit hevent txid hmem
    rw [h.known cfg build before event after hsplit hevent]
    rcases hmem with hmem | hreported
    · exact hmem
    · obtain ⟨call, hcall, howed⟩ :=
        (h.answered cfg build before event after hsplit hevent txid).mp hreported
      exact hrecord cfg build before event after hsplit hevent call hcall txid howed

/-- An event that is no mark completes no call, so the passes before it are all there are. -/
theorem Passes.plain (h : Passes onRecord log) {op : Op} {a : Ans op}
    (horderly : Orderly (log ++ [Event.plain ⟨op, a⟩])) :
    Passes onRecord (log ++ [Event.plain ⟨op, a⟩]) :=
  ⟨horderly, fun cfg build => (h.known cfg build).snoc nofun, fun cfg build =>
    (h.answered cfg build).snoc nofun⟩

/-- Between two calls. -/
structure AtRest (onRecord : List Txid) (log : List MarkedEvent) : Prop where
  passes : Passes onRecord log
  idle : (bumpCalls log).current = none
  answered : Answered log

/-- A run is at rest before its first event. -/
theorem atRest_nil : AtRest onRecord [] := by
  refine ⟨⟨⟨fun _ => guarded_nil, fun _ => guarded_nil⟩, fun _ _ => guarded_nil,
    fun _ _ => guarded_nil⟩, rfl, fun txid => ⟨nofun, ?_⟩⟩
  rintro ⟨call, hcall, -⟩
  cases hcall

/-- A silent call leaves a run at rest. -/
theorem AtRest.silent (h : AtRest onRecord log) (op : Op) (a : Ans op) (hop : op.silent = true) :
    AtRest onRecord (log ++ [Event.plain ⟨op, a⟩]) := by
  have hcalls := bumpCalls_plain h.idle op a
  refine ⟨h.passes.plain (h.passes.orderly.silent op a hop), by rw [hcalls, h.idle], ?_⟩
  intro txid
  rw [hcalls, ← h.answered txid, reported_append]
  refine or_iff_left fun hlast => ?_
  cases List.mem_singleton.mp hlast
  cases hop

/-- A part of a driver between two calls, followed by the rest. -/
theorem AtRest.bind {ε α β : Type} (h : AtRest onRecord log) {p : Driver ε α} (hp : Silent p)
    {f : α → MarkedDriver ε β} {L : List MarkedEvent → Except ε β → Prop}
    (hf : ∀ log a, AtRest onRecord log → Sound Logged (Passes onRecord) L (f a) log)
    (herr : ∀ log e, Passes onRecord log → L log (.error e)) :
    Sound Logged (Passes onRecord) L ((Program.plain p).bind f) log := by
  refine Sound.bind (Q := fun log _ => AtRest onRecord log) ?_ ?_ (Sound.mono ?_ ?_
    (sound_plain_silent (K := AtRest onRecord) (fun _ op a hop hlog => hlog.silent op a hop) hp h))
  · exact fun log a _ hrest => hf log a hrest
  · exact fun log e _ hrest => herr log e hrest.passes
  · exact fun _ hrest => hrest.passes
  · exact fun _ _ hrest _ => hrest

/-- The end of a driver, or of a round. -/
theorem AtRest.sound_plain {ε α : Type} (h : AtRest onRecord log) {p : Driver ε α}
    (hp : Silent p) :
    Sound Logged (Passes onRecord) (fun log _ => AtRest onRecord log)
      (Program.plain p : MarkedDriver ε α) log := by
  refine Sound.mono (fun _ hrest => hrest.passes) (fun _ _ _ hrest => hrest)
    (sound_plain_silent (K := AtRest onRecord) (fun _ op a hop hlog => hlog.silent op a hop) hp h)

/-- A call that has come to its end has reported what its answers called for. -/
theorem AtRest.answered_ended (h : AtRest onRecord log) {call : List Event}
    (hreconciled : Reconciled job call) (outcome : SpendOutcome) :
    Answered (log ++ [markEvent (.called job.cfg job.build)] ++ call.map Event.plain ++
      [markEvent (.ended outcome)]) := by
  intro txid
  have hfinished : (bumpCalls (log ++ [markEvent (.called job.cfg job.build)] ++
      call.map Event.plain ++ [markEvent (.ended outcome)])).finished =
        (bumpCalls log).finished ++ [⟨job.cfg, job.build, call⟩] := by
    rw [bumpCalls_snoc, bumpCalls_calling]
    rfl
  have hcall : Reported (call.map Event.plain) txid ↔
      txid ∈ BumpCall.owed ⟨job.cfg, job.build, call⟩ := by
    show _ ↔ txid ∈ Bids.owed job.build (bidsOf job.cfg call).offers
    rw [← hreconciled, mem_reportsOf]
    exact List.mem_map_of_injective Program.Event.plain_injective
  rw [hfinished, reported_append, reported_append, reported_append, hcall, h.answered txid]
  constructor
  · rintro (((⟨c, hc, howed⟩ | hmark) | howed) | hmark)
    · exact ⟨c, List.mem_append_left _ hc, howed⟩
    · exact absurd hmark not_reported_mark
    · exact ⟨_, List.mem_append_right _ (List.mem_singleton_self _), howed⟩
    · exact absurd hmark not_reported_mark
  · rintro ⟨c, hc, howed⟩
    rcases List.mem_append.mp hc with hc | hc
    · exact .inl (.inl (.inl ⟨c, hc, howed⟩))
    · cases List.mem_singleton.mp hc
      exact .inl (.inr howed)

/-- **A call that is told of the record.** -/
theorem AtRest.sound_markedBump (h : AtRest onRecord log) (hknown : job.cfg.knownOurs = onRecord)
    (hjob : Refunding job) (fuel : ℕ) (seen : τ) :
    Sound Logged (Passes onRecord)
      (fun log r => Passes onRecord log ∧ ∀ result, r = .ok result → AtRest onRecord log)
      (markedBump job fuel seen) log := by
  have hcalled : Passes onRecord (log ++ [markEvent (.called job.cfg job.build)]) := by
    refine ⟨h.passes.orderly.called _ _, fun cfg build => (h.passes.known cfg build).snoc ?_,
      fun cfg build => (h.passes.answered cfg build).snoc fun _ => h.answered⟩
    rintro ⟨⟩
    exact hknown
  have hcalling (call : List Event) (hcall : Spoken job call) : Passes onRecord
      (log ++ [markEvent (.called job.cfg job.build)] ++ call.map Event.plain) :=
    ⟨hcalled.orderly.calling hcall,
      fun cfg build => (hcalled.known cfg build).plain_of_marks nofun call,
      fun cfg build => (hcalled.answered cfg build).plain_of_marks nofun call⟩
  refine Sound.mono (fun _ hI => hI) ?_ (PubkySwap.sound_markedBump
    (quietFallback_walletCpfp hjob.fallback) (reports_confirmOrBump hjob fuel seen) h.passes
    hcalling ?_)
  · rintro log' r hpasses ⟨-, hresult⟩
    refine ⟨hpasses, fun result hr => ?_⟩
    obtain ⟨call, hreconciled, rfl⟩ := hresult result hr
    refine ⟨hpasses, ?_, h.answered_ended hreconciled _⟩
    rw [bumpCalls_snoc]
    rfl
  · rintro call ⟨outcome, seen'⟩ hcall hends
    have hpasses := hcalling call hcall
    exact ⟨h.passes.orderly.ended hcall hends,
      fun cfg build => (hpasses.known cfg build).snoc nofun,
      fun cfg build => (hpasses.answered cfg build).snoc nofun⟩

end

/-! ## The reverse driver -/

section

variable {ε : Type}

/-- Looking for a spend is silent. -/
theorem silent_findSpend (convert : SwapError → ε) (spk : Bytes) (outpoint : OutPoint) :
    Silent (findSpend convert spk outpoint) :=
  ⟨rfl, fun _ => onlyCalls_orThrow _ _⟩

/-- Reading the tip is silent. -/
theorem silent_tipHeight (convert : SwapError → ε) : Silent (tipHeight convert) :=
  ⟨rfl, fun _ => onlyCalls_orThrow _ _⟩

/-- Asking whether the peer wants to be told of a claimable funding is silent. -/
theorem silent_wantsClaimable : Silent (wantsClaimable : Driver ε Bool) := ⟨rfl, fun _ => trivial⟩

/-- Asking the wallet for a destination is silent. -/
theorem silent_receiveDestination : Silent (receiveDestination : Driver ε Bytes) :=
  ⟨rfl, fun _ => trivial⟩

/-- Asking for the state of an invoice is silent. -/
theorem silent_invoiceState (hash : PaymentHash) :
    Silent (invoiceState hash : Driver ε (Except LightningError InvoiceState)) :=
  ⟨rfl, fun _ => trivial⟩

end

section

variable [Crypto] {swap : ReverseSwap} {resume : Resume} {outpoint : OutPoint} {dest : Bytes}
  {requiredConfirmations poll fuel : ℕ} {log : List MarkedEvent}

omit [Crypto] in
/-- The calls of a search for the funding are silent. -/
theorem Op.silent_of_searches {op : Op} (h : op.searches = true) : op.silent = true := by
  cases op <;> first
    | rfl
    | cases h

omit [Crypto] in
/-- Cancelling the hold invoice is silent. -/
theorem silent_cancelInvoice (hash : PaymentHash) : Silent (cancelInvoice hash) :=
  ⟨rfl, fun _ => trivial⟩

/-- The provider finds or makes its funding without a spend of it. -/
theorem silent_establishFunding :
    Silent (establishFunding swap resume requiredConfirmations poll fuel) :=
  calls_establishFunding.mono fun op hop => by cases op <;> trivial

/-- The wait for the client's payment is silent. -/
theorem silent_awaitAcceptance : Silent (awaitAcceptance swap resume poll fuel) :=
  calls_awaitAcceptance.mono fun op hop => by cases op <;> trivial

/-- The hint to the client is silent. -/
theorem silent_hintClaimable (spend : Option Transaction) (hintDue : Bool) :
    Silent (hintClaimable swap outpoint requiredConfirmations spend hintDue) :=
  (calls_hintClaimable spend hintDue).mono fun op hop => by cases op <;> trivial

/-- Settling the invoice with the preimage of a claim is silent. -/
theorem silent_collect (settled : Bool) (spend : Option Transaction) :
    Silent (collect swap outpoint settled spend) :=
  (calls_collect settled spend).mono fun op hop => by cases op <;> trivial

/-- A driver that is at rest may go on, end or fail. -/
theorem AtRest.roundMeets {σ β ε : Type} (h : AtRest onRecord log) (r : Except ε (σ ⊕ β)) :
    RoundMeets (fun _ => AtRest onRecord) (fun log _ => Passes onRecord log) log r := by
  rcases r with e | x | b
  · exact h.passes
  · exact h
  · exact h.passes

/-- The end of a round. -/
theorem AtRest.sound_last {σ β ε : Type} (h : AtRest onRecord log) {p : Driver ε (σ ⊕ β)}
    (hp : Silent p) :
    Sound Logged (Passes onRecord)
      (RoundMeets (fun _ => AtRest onRecord) fun log _ => Passes onRecord log)
      (plain p : MarkedDriver ε (σ ⊕ β)) log :=
  Sound.mono (fun _ hI => hI) (fun _ r _ hrest => hrest.roundMeets r) (h.sound_plain hp)

/-- A round of the provider's refund calls the loop at most once, told of what is on record,
and goes on at rest. -/
theorem AtRest.sound_refundRound (h : AtRest resume.ourSpends log) (w : ClaimWatch) :
    Sound Logged (Passes resume.ourSpends)
      (RoundMeets (fun _ => AtRest resume.ourSpends) fun log _ => Passes resume.ourSpends log)
      (refundRoundOver swap marking resume outpoint dest poll fuel w) log := by
  unfold refundRoundOver
  split
  · exact h.sound_last ⟨rfl, fun _ => trivial⟩
  · have hknown : (refundJob swap resume outpoint dest poll).cfg.knownOurs = resume.ourSpends := rfl
    have hcall := h.sound_markedBump hknown ⟨rfl, rfl⟩ fuel ()
    refine Sound.bind (Q := fun log r => Passes resume.ourSpends log ∧
      ∀ result, r = .ok result → AtRest resume.ourSpends log) ?_ (fun _ _ hI _ => hI) ?_
    · rintro log' ⟨outcome, _⟩ - ⟨-, hrest⟩
      have hrest' := hrest _ rfl
      cases outcome with
      | confirmed txid =>
          exact hrest'.sound_last
            (OnlyCalls.bind (fun _ => onlyCalls_pure _) (silent_cancelInvoice _))
      | conflictingSpend tx => exact hrest'.sound_last ⟨rfl, fun _ => trivial⟩
      | deadlineExceeded txid tip => exact hrest'.sound_last ⟨rfl, fun _ => trivial⟩
    · refine Sound.mapError ?_ ?_ hcall
      · rintro log' result - ⟨hpasses, hrest⟩
        exact ⟨hpasses, fun _ _ => hrest result rfl⟩
      · exact fun _ _ hpasses _ => ⟨hpasses, nofun⟩

/-- A round of the watch for the client's claim is silent up to its refund. -/
theorem AtRest.sound_claimWatchRound (h : AtRest resume.ourSpends log) (w : ClaimWatch) :
    Sound Logged (Passes resume.ourSpends)
      (RoundMeets (fun _ => AtRest resume.ourSpends) fun log _ => Passes resume.ourSpends log)
      (claimWatchRoundOver swap marking resume outpoint dest requiredConfirmations poll fuel w)
        log := by
  refine h.bind (silent_findSpend _ _ _) (fun log₁ spend h₁ => ?_) fun _ _ hp => hp
  refine h₁.bind (silent_hintClaimable _ _) (fun log₂ hintDue h₂ => ?_) fun _ _ hp => hp
  refine h₂.bind (silent_collect _ _) (fun log₃ r h₃ => ?_) fun _ _ hp => hp
  obtain ⟨settled, buried⟩ := r
  show Sound _ _ _ (if _ then _ else _) _
  split
  · exact ⟨h₃.passes, h₃.passes⟩
  · refine h₃.bind (silent_tipHeight _) (fun log₄ tip h₄ => ?_) fun _ _ hp => hp
    show Sound _ _ _ (if _ then _ else _) _
    split
    · exact h₄.sound_refundRound _
    · exact h₄.sound_last ⟨rfl, fun _ => trivial⟩

/-- **A run of the reverse driver** tells every call of the record. -/
theorem passes_driveReverseSwap : Sound Logged (Passes resume.ourSpends)
    (fun log _ => Passes resume.ourSpends log)
    (markedDriveReverseSwap swap requiredConfirmations poll resume fuel) [] := by
  refine atRest_nil.bind silent_awaitAcceptance (fun log₁ accepted h₁ => ?_) fun _ _ hp => hp
  cases accepted with
  | some state => exact ⟨h₁.passes, h₁.passes⟩
  | none =>
      refine h₁.bind silent_establishFunding (fun log₂ outcome h₂ => ?_) fun _ _ hp => hp
      cases outcome with
      | refused state => exact ⟨h₂.passes, h₂.passes⟩
      | funded outpoint =>
          refine h₂.bind silent_wantsClaimable (fun log₃ hintDue h₃ => ?_) fun _ _ hp => hp
          refine h₃.bind silent_receiveDestination (fun log₄ dest h₄ => ?_) fun _ _ hp => hp
          exact Sound.iterate (J := fun _ => AtRest resume.ourSpends)
            (fun _ _ hrest => hrest.passes)
            (fun w _ hrest => hrest.sound_claimWatchRound w) fuel h₄

end

/-! ## The client's submarine driver -/

section

variable [Crypto] {funding : SubmarineFunding} {resume : Resume} {outpoint : OutPoint}
  {poll fuel : ℕ} {log : List MarkedEvent}

/-- The client waits for a recorded funding in silence. -/
theorem silent_clientAwaitRecordedFunding : Silent (funding.awaitRecordedFunding poll fuel) := by
  refine OnlyCalls.iterate (fun _ => ?_) fuel ()
  refine ⟨rfl, fun answer => onlyCalls_orThrow_bind fun found _ => ?_⟩
  cases found with
  | some utxo => exact ⟨rfl, fun _ => trivial⟩
  | none =>
      refine ⟨rfl, fun answer => onlyCalls_orThrow_bind fun history _ => ?_⟩
      refine OnlyCalls.bind (fun chosen => ?_) (OnlyCalls.mapError
        ((searches_selectRecordedFunding ..).mono fun _ => Op.silent_of_searches))
      cases chosen with
      | some outpoint => exact ⟨rfl, fun _ => trivial⟩
      | none =>
          refine ⟨rfl, fun answer => onlyCalls_orThrow_bind fun tip _ => ?_⟩
          split
          · trivial
          · exact ⟨rfl, fun _ => trivial⟩

/-- The client finds or makes its funding without a spend of it. -/
theorem silent_clientEstablishFunding : Silent (funding.establishFunding resume poll fuel) := by
  unfold SubmarineFunding.establishFunding
  split
  · trivial
  refine ⟨rfl, fun answer => onlyCalls_orThrow_bind fun found _ => ?_⟩
  cases found with
  | some utxo => exact ⟨rfl, fun _ => trivial⟩
  | none =>
      dsimp only
      split
      · exact silent_clientAwaitRecordedFunding
      · refine ⟨rfl, fun answer => onlyCalls_orThrow_bind fun tip _ => ?_⟩
        split
        · refine ⟨rfl, fun answer => onlyCalls_orThrow_bind fun _ _ => ⟨rfl, fun answer => ?_⟩⟩
          cases answer with
          | ok outpoint => exact ⟨rfl, fun _ => trivial⟩
          | error e => exact silent_clientAwaitRecordedFunding
        · trivial

/-- The client's refund calls the loop once, told of what is on record, and goes on at
rest. -/
theorem AtRest.sound_driveRefund (h : AtRest resume.ourSpends log) :
    Sound Logged (Passes resume.ourSpends)
      (RoundMeets (fun _ => AtRest resume.ourSpends) fun log _ => Passes resume.ourSpends log)
      (funding.driveRefundOver marking resume outpoint poll fuel) log := by
  refine h.bind silent_receiveDestination (fun log₁ dest h₁ => ?_) fun _ _ hp => hp
  have hknown : (funding.refundJob resume outpoint dest poll).cfg.knownOurs = resume.ourSpends :=
    rfl
  have hcall := h₁.sound_markedBump hknown ⟨rfl, rfl⟩ fuel ()
  refine Sound.bind (Q := fun log r => Passes resume.ourSpends log ∧
    ∀ result, r = .ok result → AtRest resume.ourSpends log) ?_ (fun _ _ hI _ => hI) ?_
  · rintro log' ⟨outcome, _⟩ - ⟨hpasses, hrest⟩
    cases outcome with
    | confirmed txid => exact ⟨hpasses, hpasses⟩
    | deadlineExceeded txid tip => exact ⟨hpasses, hrest _ rfl⟩
    | conflictingSpend tx =>
        show Sound _ _ _ (if _ then _ else _) _
        split
        · exact ⟨hpasses, hpasses⟩
        · refine (sound_logged_call _ _).mpr ⟨hpasses, fun _ => ?_⟩
          have hreport := hpasses.plain (hpasses.orderly.report (Crypto.computeTxid tx))
          exact ⟨hreport, hreport⟩
  · refine Sound.mapError ?_ ?_ hcall
    · rintro log' result - ⟨hpasses, hrest⟩
      exact ⟨hpasses, fun _ _ => hrest result rfl⟩
    · exact fun _ _ hpasses _ => ⟨hpasses, nofun⟩

/-- A round of the client's settlement is silent up to its refund. -/
theorem AtRest.sound_settlementRound (h : AtRest resume.ourSpends log) :
    Sound Logged (Passes resume.ourSpends)
      (RoundMeets (fun _ => AtRest resume.ourSpends) fun log _ => Passes resume.ourSpends log)
      (funding.settlementRoundOver marking resume outpoint poll fuel) log := by
  refine h.bind (silent_invoiceState _) (fun log₁ answer h₁ => ?_) fun _ _ hp => hp
  refine h₁.bind (onlyCalls_orThrow _ _) (fun log₂ state h₂ => ?_) fun _ _ hp => hp
  show Sound _ _ _ (if _ then _ else _) _
  split
  · exact ⟨h₂.passes, h₂.passes⟩
  refine h₂.bind (silent_tipHeight _) (fun log₃ tip h₃ => ?_) fun _ _ hp => hp
  show Sound _ _ _ (if _ then _ else _) _
  split
  · refine h₃.bind (silent_findSpend _ _ _) (fun log₄ spend h₄ => ?_) fun _ _ hp => hp
    cases spend with
    | none => exact h₄.sound_driveRefund
    | some spend =>
        show Sound _ _ _ (if _ then _ else _) _
        split
        · exact ⟨h₄.passes, h₄.passes⟩
        · exact h₄.sound_driveRefund
  · exact h₃.sound_last ⟨rfl, fun _ => trivial⟩

/-- **A run of the client's driver** tells every call of the record. -/
theorem passes_executeSubmarineSwap : Sound Logged (Passes resume.ourSpends)
    (fun log _ => Passes resume.ourSpends log)
    (markedExecuteSubmarineSwap funding poll resume fuel) [] := by
  refine atRest_nil.bind silent_clientEstablishFunding (fun log₁ established h₁ => ?_)
    fun _ _ hp => hp
  cases established with
  | none => exact ⟨h₁.passes, h₁.passes⟩
  | some outpoint =>
      exact Sound.iterate (J := fun _ => AtRest resume.ourSpends) (fun _ _ hrest => hrest.passes)
        (fun _ _ hrest => hrest.sound_settlementRound) fuel h₁

end

/-! ## The submarine driver -/

section

variable [Crypto] {swap : SubmarineSwap} {resume : Resume} {outpoint : OutPoint}
  {preimage : Preimage} {dest : Bytes} {requiredConfirmations poll fuel fundingValueSat : ℕ}
  {alreadyAttempted : Bool} {onRecord ours : List Txid} {log : List MarkedEvent}

/-- The search for the client's funding is silent. -/
theorem silent_locateFunding :
    Silent (locateFunding swap resume requiredConfirmations poll fuel) :=
  calls_locateFunding.mono fun op hop => by cases op <;> trivial

/-- The reorg guard is silent. -/
theorem silent_measureFunding :
    Silent (measureFunding swap alreadyAttempted outpoint requiredConfirmations poll) :=
  calls_measureFunding.mono fun op hop => by cases op <;> trivial

/-- Obtaining the payment is silent. -/
theorem silent_obtainPayment : Silent (obtainPayment swap resume alreadyAttempted poll) :=
  calls_obtainPayment.mono fun op hop => by cases op <;> trivial

/-- What the submarine driver keeps. -/
structure Telling (onRecord : List Txid) (log : List MarkedEvent) : Prop where
  orderly : Orderly log
  told : Told onRecord log

/-- The driver carries every spend of the swap. -/
structure Carrying (onRecord ours : List Txid) (log : List MarkedEvent) : Prop where
  telling : Telling onRecord log
  carried : ∀ txid, txid ∈ onRecord ∨ Reported log txid → txid ∈ ours

/-- An event that is no mark completes no call, so what was told before is all that was. -/
theorem Telling.plain (h : Telling onRecord log) {op : Op} {a : Ans op}
    (horderly : Orderly (log ++ [Event.plain ⟨op, a⟩])) :
    Telling onRecord (log ++ [Event.plain ⟨op, a⟩]) :=
  ⟨horderly, fun cfg build => (h.told cfg build).snoc nofun⟩

/-- A silent call leaves the list carried from call to call complete. -/
theorem Carrying.silent (h : Carrying onRecord ours log) (op : Op) (a : Ans op)
    (hop : op.silent = true) : Carrying onRecord ours (log ++ [Event.plain ⟨op, a⟩]) := by
  refine ⟨h.telling.plain (h.telling.orderly.silent op a hop), fun txid hmem =>
    h.carried txid (hmem.imp_right fun hreported => ?_)⟩
  refine (reported_append.mp hreported).resolve_right fun hlast => ?_
  cases List.mem_singleton.mp hlast
  cases hop

/-- At the start the list is the one on record. -/
theorem carrying_nil : Carrying onRecord onRecord [] :=
  ⟨⟨⟨fun _ => guarded_nil, fun _ => guarded_nil⟩, fun _ _ => guarded_nil⟩, fun _ hmem =>
    hmem.resolve_right List.not_mem_nil⟩

/-- A part of the driver that spends nothing, followed by the rest. -/
theorem Carrying.bind {ε α β : Type} (h : Carrying onRecord ours log) {p : Driver ε α}
    (hp : Silent p) {f : α → MarkedDriver ε β} {L : List MarkedEvent → Except ε β → Prop}
    (hf : ∀ log a, Carrying onRecord ours log → Sound Logged (Telling onRecord) L (f a) log)
    (herr : ∀ log e, Telling onRecord log → L log (.error e)) :
    Sound Logged (Telling onRecord) L ((Program.plain p).bind f) log := by
  refine Sound.bind (Q := fun log _ => Carrying onRecord ours log) ?_ ?_ (Sound.mono ?_ ?_
    (sound_plain_silent (K := Carrying onRecord ours) (fun _ op a hop hlog => hlog.silent op a hop)
      hp h))
  · exact fun log a _ hcarrying => hf log a hcarrying
  · exact fun log e _ hcarrying => herr log e hcarrying.telling
  · exact fun _ hcarrying => hcarrying.telling
  · exact fun _ _ hcarrying _ => hcarrying

/-- The provider's claim notes every spend it reports. -/
theorem notes_claimJob :
    Notes (claimJob swap outpoint fundingValueSat preimage dest poll ours) := by
  refine ⟨fun _ _ => rfl, ?_⟩
  rintro _ ⟨⟩ parent rate
  refine ⟨rfl, fun answer => ?_⟩
  cases answer <;> trivial

/-- **A call that is told of what the driver carries**, and adds to it what it reports. -/
theorem Carrying.sound_markedBump {job : SpendJob (List Txid)} (h : Carrying onRecord ours log)
    (hknown : job.cfg.knownOurs = ours) (hjob : Notes job) (hfallback : QuietFallback job)
    (fuel : ℕ) :
    Sound Logged (Telling onRecord)
      (fun log r => Telling onRecord log ∧
        ∀ result, r = .ok result → Carrying onRecord result.2 log)
      (markedBump job fuel ours) log := by
  have hcalled : Telling onRecord (log ++ [markEvent (.called job.cfg job.build)]) := by
    refine ⟨h.telling.orderly.called _ _, fun cfg build => (h.telling.told cfg build).snoc ?_⟩
    rintro ⟨⟩
    rw [hknown]
    exact h.carried
  have hcalling (call : List Event) (hcall : Spoken job call) : Telling onRecord
      (log ++ [markEvent (.called job.cfg job.build)] ++ call.map Event.plain) :=
    ⟨hcalled.orderly.calling hcall,
      fun cfg build => (hcalled.told cfg build).plain_of_marks nofun call⟩
  have hstart : Noted ours ours [] := fun txid hmem => hmem.resolve_right List.not_mem_nil
  refine Sound.mono (fun _ hI => hI) ?_ (PubkySwap.sound_markedBump hfallback
    (hjob.sound_confirmOrBump hstart fuel) h.telling hcalling ?_)
  · rintro log' r htelling ⟨-, hresult⟩
    refine ⟨htelling, fun result hr => ?_⟩
    obtain ⟨call, hnoted, rfl⟩ := hresult result hr
    refine ⟨htelling, fun txid hmem => hnoted txid ?_⟩
    rcases hmem with hmem | hreported
    · exact .inl (h.carried txid (.inl hmem))
    · rcases reported_append.mp hreported with hreported | hlast
      · rcases reported_append.mp hreported with hreported | hin
        · refine .inl (h.carried txid (.inr ?_))
          exact (reported_append.mp hreported).resolve_right not_reported_mark
        · obtain ⟨event, hevent, heq⟩ := List.mem_map.mp hin
          exact .inr (Program.Event.plain_injective heq ▸ hevent)
      · exact absurd hlast not_reported_mark
  · rintro call ⟨outcome, seen⟩ hcall hends
    exact ⟨h.telling.orderly.ended hcall hends, fun cfg build =>
      ((hcalling call hcall).told cfg build).snoc nofun⟩

/-- A pass of the claim. -/
theorem Carrying.sound_claimPass (h : Carrying onRecord ours log) :
    Sound Logged (Telling onRecord)
      (RoundMeets (Carrying onRecord) fun log _ => Telling onRecord log)
      (claimPassOver swap marking outpoint fundingValueSat preimage dest poll fuel ours) log := by
  have hknown : (claimJob swap outpoint fundingValueSat preimage dest poll ours).cfg.knownOurs =
      ours := rfl
  have hcall := h.sound_markedBump hknown notes_claimJob (quietFallback_walletCpfp rfl) fuel
  refine Sound.bind (Q := fun log r => Telling onRecord log ∧
    ∀ result, r = .ok result → Carrying onRecord result.2 log) ?_ (fun _ _ hI _ => hI) ?_
  · rintro log' ⟨outcome, ours'⟩ - ⟨htelling, hcarried⟩
    cases outcome with
    | confirmed txid => exact ⟨htelling, htelling⟩
    | conflictingSpend tx => exact ⟨htelling, htelling⟩
    | deadlineExceeded txid tip =>
        have hcarrying := hcarried _ rfl
        refine (sound_logged_call _ _).mpr ⟨htelling, fun _ => ?_⟩
        have hslept := hcarrying.silent (.sleep poll) () rfl
        exact ⟨hslept.telling, hslept⟩
  · refine Sound.mapError ?_ ?_ hcall
    · rintro log' result - ⟨htelling, hcarried⟩
      refine ⟨htelling, ?_⟩
      rintro _ ⟨⟩
      exact hcarried result rfl
    · exact fun _ _ htelling _ => ⟨htelling, nofun⟩

/-- **A run of the submarine driver** tells every call of all that the swap has reported. -/
theorem telling_driveSubmarineSwap : Sound Logged (Telling resume.ourSpends)
    (fun log _ => Telling resume.ourSpends log)
    (markedDriveSubmarineSwap swap requiredConfirmations poll resume alreadyAttempted fuel) [] := by
  refine carrying_nil.bind silent_locateFunding (fun log₁ located h₁ => ?_) fun _ _ ht => ht
  cases located with
  | inl state => exact ⟨h₁.telling, h₁.telling⟩
  | inr outpoint =>
      refine h₁.bind silent_measureFunding (fun log₂ measured h₂ => ?_) fun _ _ ht => ht
      cases measured with
      | inl state => exact ⟨h₂.telling, h₂.telling⟩
      | inr fundingValueSat =>
          refine h₂.bind silent_obtainPayment (fun log₃ paid h₃ => ?_) fun _ _ ht => ht
          cases paid with
          | inl state => exact ⟨h₃.telling, h₃.telling⟩
          | inr payment =>
              show Sound _ _ _ (if _ then _ else _) _
              split
              · exact ⟨h₃.telling, h₃.telling⟩
              · refine h₃.bind silent_receiveDestination (fun log₄ dest h₄ => ?_) fun _ _ ht => ht
                exact Sound.iterate (J := Carrying resume.ourSpends)
                  (fun _ _ hcarrying => hcarrying.telling)
                  (fun ours _ hcarrying => hcarrying.sound_claimPass) fuel h₄

end

end PubkySwap
