import PubkySwap.Reverse

/-!
# One run of the reverse driver

Once a run has established the funding outpoint it lets go of it in two ways
only: it has settled the hold invoice and the claim is buried, or its own refund
is.  And from then on it cancels the hold invoice only in the second case.

`Adopted` says when an outpoint is established, and `CancelSafe` what holds at
the moment of a cancellation.  `driveReverseSwap_sound` proves both of a whole
run, from one specification for each part of the driver.
-/

namespace PubkySwap

open BitcoinScript (Bytes)
open Program (orThrow iterate Run Ending Sound Logged OnOk Always RoundMeets OnlyCalls
  onlyCalls_ask sound_logged_call sound_orThrow_bind onlyCalls_pure onOk_ok onlyCalls_call
  onlyCalls_orThrow onlyCalls_throw)

/-- Cancelling the hold invoice. -/
def Op.cancels : Op → Bool
  | .cancelHoldInvoice _ => true
  | _ => false

/-- Calls whose answers can establish an outpoint. -/
def Op.adopts : Op → Bool
  | .fundHtlc .. | .findFunding .. | .funded _ | .findOutputs _ => true
  | _ => false

/-- An exchange that establishes nothing. -/
def Idle (event : Event) : Prop :=
  madeKnown event = none ∧ ∀ spk, event.1 ≠ .findOutputs spk

theorem idle_of_adopts {op : Op} (h : op.adopts = false) (answer : Ans op) :
    Idle ⟨op, answer⟩ := by
  refine ⟨?_, ?_⟩
  · cases op <;> first
      | rfl
      | cases h
  · rintro spk rfl
    cases h

variable [Crypto]

/-! ## What a run knows -/

/-- **The funding outpoint is established**: this run has funded it or found it on
chain, or an earlier run recorded it and either no reorg was seen since or the
chain still shows it at depth. -/
def Adopted (swap : ReverseSwap) (resume : Resume) (requiredConfirmations : ℕ)
    (log : List Event) (outpoint : OutPoint) : Prop :=
  (∃ event ∈ log, madeKnown event = some outpoint) ∨
    (resume.funding = some outpoint ∧ (resume.reorgSeenAtHeight = none ∨
      ∃ outputs, (⟨.findOutputs swap.htlcSpk, .ok outputs⟩ : Event) ∈ log ∧
        ∃ u ∈ outputs, u.outpoint = outpoint ∧ requiredConfirmations ≤ u.confirmations))

/-- A transaction was seen at final depth. -/
def SeenBuried (swap : ReverseSwap) (log : List Event) (txid : Txid) : Prop :=
  ∃ confirmations, finalityDepth ≤ confirmations ∧
    (⟨.txConfirmations swap.htlcSpk txid, .ok (some confirmations)⟩ : Event) ∈ log

/-- The chain reported this spend, and it reveals this preimage. -/
def Revealed (swap : ReverseSwap) (outpoint : OutPoint) (log : List Event) (tx : Transaction)
    (preimage : Preimage) : Prop :=
  (⟨.findSpend swap.htlcSpk outpoint, .ok (some tx)⟩ : Event) ∈ log ∧
    extractPreimage tx outpoint swap.paymentHash = some preimage

/-- The hold invoice was settled with this preimage, which a spend of the
outpoint reveals. -/
def SettledWith (swap : ReverseSwap) (outpoint : OutPoint) (log : List Event)
    (preimage : Preimage) : Prop :=
  (∃ tx, Revealed swap outpoint log tx preimage) ∧
    (⟨.settleHoldInvoice preimage, .ok ()⟩ : Event) ∈ log

/-- The hold invoice was settled. -/
def Settled (swap : ReverseSwap) (outpoint : OutPoint) (log : List Event) : Prop :=
  ∃ preimage, SettledWith swap outpoint log preimage

/-- A refund of the swap's own is buried: one an earlier run recorded or one the
chain accepted in this run. -/
def RefundBuried (swap : ReverseSwap) (resume : Resume) (outpoint : OutPoint)
    (log : List Event) : Prop :=
  ∃ txid, (txid ∈ resume.ourSpends ∨ Accepted log txid) ∧
    Spotted swap.htlcSpk outpoint log txid ∧ SeenBuried swap log txid

/-- A claim is buried, and the invoice settled with a preimage of the same hash. -/
def ClaimCollected (swap : ReverseSwap) (outpoint : OutPoint) (log : List Event) : Prop :=
  ∃ tx preimage, Revealed swap outpoint log tx preimage ∧
    SeenBuried swap log (Crypto.computeTxid tx) ∧
    ∃ settled, SettledWith swap outpoint log settled ∧ paymentHash settled = paymentHash preimage

/-- How a run may let go of an established outpoint. -/
def LetGo (swap : ReverseSwap) (resume : Resume) (outpoint : OutPoint) :
    SwapState → List Event → Prop
  | .claimed, log => ClaimCollected swap outpoint log
  | .refunded, log => RefundBuried swap resume outpoint log
  | _, _ => False

/-- If the last exchange cancels the invoice, a refund of every established
outpoint was buried before. -/
def CancelSafe (swap : ReverseSwap) (resume : Resume) (requiredConfirmations : ℕ)
    (log : List Event) : Prop :=
  ∀ before hash answer, log = before ++ [⟨.cancelHoldInvoice hash, answer⟩] →
    ∀ outpoint, Adopted swap resume requiredConfirmations before outpoint →
      RefundBuried swap resume outpoint before

variable {swap : ReverseSwap} {resume : Resume} {requiredConfirmations poll : ℕ}
  {log : List Event} {outpoint : OutPoint}

/-- No outpoint is established yet. -/
def Unadopted (swap : ReverseSwap) (resume : Resume) (requiredConfirmations : ℕ)
    (log : List Event) : Prop :=
  ∀ outpoint, ¬ Adopted swap resume requiredConfirmations log outpoint

/-- One outpoint is established, and no other. -/
def AdoptedOnly (swap : ReverseSwap) (resume : Resume) (requiredConfirmations : ℕ)
    (outpoint : OutPoint) (log : List Event) : Prop :=
  ∀ other, Adopted swap resume requiredConfirmations log other ↔ other = outpoint

/-- Other exchanges establish nothing. -/
theorem adopted_append {t : List Event} (ht : ∀ e ∈ t, Idle e) :
    Adopted swap resume requiredConfirmations (log ++ t) outpoint ↔
      Adopted swap resume requiredConfirmations log outpoint := by
  refine or_congr ⟨?_, ?_⟩ (and_congr_right fun _ => or_congr_right ?_)
  · rintro ⟨event, hmem, hknown⟩
    rcases List.mem_append.mp hmem with hmem | hmem
    · exact ⟨event, hmem, hknown⟩
    · rw [(ht event hmem).1] at hknown
      cases hknown
  · rintro ⟨event, hmem, hknown⟩
    exact ⟨event, List.mem_append_left _ hmem, hknown⟩
  · refine exists_congr fun outputs => and_congr_left fun _ => ?_
    rw [List.mem_append, or_iff_left_iff_imp]
    intro hmem
    exact absurd rfl ((ht _ hmem).2 swap.htlcSpk)

/-- Making an outpoint known establishes it. -/
theorem adopted_append_known {event : Event} (hknown : madeKnown event = some outpoint)
    {other : OutPoint} :
    Adopted swap resume requiredConfirmations (log ++ [event]) other ↔
      Adopted swap resume requiredConfirmations log other ∨ other = outpoint := by
  have hsearch {outputs : List FundingUtxo} :
      (⟨.findOutputs swap.htlcSpk, .ok outputs⟩ : Event) ≠ event := by
    rintro rfl
    cases hknown
  simp only [Adopted, List.mem_append, List.mem_singleton, or_and_right, exists_or,
    exists_eq_left, hknown, Option.some_inj, hsearch, or_false, eq_comm (a := outpoint)]
  exact or_right_comm

theorem Unadopted.append (h : Unadopted swap resume requiredConfirmations log) {t : List Event}
    (ht : ∀ e ∈ t, Idle e) : Unadopted swap resume requiredConfirmations (log ++ t) :=
  fun outpoint hadopted => h outpoint ((adopted_append ht).mp hadopted)

theorem AdoptedOnly.append (h : AdoptedOnly swap resume requiredConfirmations outpoint log)
    {t : List Event} (ht : ∀ e ∈ t, Idle e) :
    AdoptedOnly swap resume requiredConfirmations outpoint (log ++ t) :=
  fun other => (adopted_append ht).trans (h other)

theorem Unadopted.known (h : Unadopted swap resume requiredConfirmations log) {event : Event}
    (hknown : madeKnown event = some outpoint) :
    AdoptedOnly swap resume requiredConfirmations outpoint (log ++ [event]) :=
  fun other => (adopted_append_known hknown).trans (or_iff_right (h other))

/-- Making it known again changes nothing. -/
theorem AdoptedOnly.known (h : AdoptedOnly swap resume requiredConfirmations outpoint log)
    {event : Event} (hknown : madeKnown event = some outpoint) :
    AdoptedOnly swap resume requiredConfirmations outpoint (log ++ [event]) :=
  fun other => (adopted_append_known hknown).trans ((or_congr_left (h other)).trans (or_self_iff))

/-! ## Cancelling -/

/-- Other calls cancel nothing. -/
theorem cancelSafe_append {event : Event} (hevent : event.1.cancels = false) :
    CancelSafe swap resume requiredConfirmations (log ++ [event]) := by
  intro before hash answer heq
  obtain ⟨-, hlast⟩ := List.append_inj' heq rfl
  rw [List.singleton_inj.mp hlast] at hevent
  cases hevent

/-- Before an outpoint is established, the invoice can be cancelled. -/
theorem Unadopted.cancelSafe (h : Unadopted swap resume requiredConfirmations log)
    (hash : PaymentHash)
    (answer : Ans (.cancelHoldInvoice hash)) :
    CancelSafe swap resume requiredConfirmations (log ++ [⟨.cancelHoldInvoice hash, answer⟩]) := by
  intro before _ _ heq outpoint hadopted
  obtain ⟨rfl, -⟩ := List.append_inj' heq rfl
  exact absurd hadopted (h outpoint)

/-! ## The hold invoice -/

/-- How the wait for the client's payment ends. -/
def AcceptMeets (swap : ReverseSwap) (resume : Resume) (requiredConfirmations : ℕ) :
    Option SwapState → List Event → Prop
  | none, log => ∀ e ∈ log, Idle e
  | some _, log => Unadopted swap resume requiredConfirmations log

/-- Without a recorded outpoint and without a report there is none established. -/
theorem unadopted_of_calls (hfresh : resume.funding = none)
    (hlog : ∀ e ∈ log, Idle e) : Unadopted swap resume requiredConfirmations log := by
  rintro outpoint (⟨event, hmem, hknown⟩ | ⟨hfunding, -⟩)
  · rw [(hlog event hmem).1] at hknown
    cases hknown
  · rw [hfresh] at hfunding
    cases hfunding

theorem invoiceRound_sound (hfresh : resume.funding = none)
    (hlog : ∀ e ∈ log, Idle e)
    (hsafe : CancelSafe swap resume requiredConfirmations log) :
    Sound Logged (CancelSafe swap resume requiredConfirmations)
      (RoundMeets (fun _ log => (∀ e ∈ log, Idle e) ∧
          CancelSafe swap resume requiredConfirmations log)
        (OnOk (AcceptMeets swap resume requiredConfirmations)))
      (invoiceRound swap poll) log := by
  refine (sound_logged_call _ _).mpr ⟨hsafe, fun answer => ?_⟩
  have h₁ : ∀ e ∈ log ++ [⟨.invoiceState swap.paymentHash, answer⟩], Idle e :=
    List.forall_mem_append.mpr ⟨hlog, List.forall_mem_singleton.mpr (idle_of_adopts rfl _)⟩
  have hsafe₁ : CancelSafe swap resume requiredConfirmations
      (log ++ [⟨.invoiceState swap.paymentHash, answer⟩]) := cancelSafe_append rfl
  refine sound_orThrow_bind hsafe₁ (fun _ _ => trivial) fun state _ => ?_
  cases state with
  | accepted => exact ⟨hsafe₁, h₁⟩
  | settled => exact ⟨hsafe₁, unadopted_of_calls hfresh h₁⟩
  | cancelled => exact ⟨hsafe₁, unadopted_of_calls hfresh h₁⟩
  | opened =>
      refine (sound_logged_call _ _).mpr ⟨hsafe₁, fun answer => ?_⟩
      have h₂ : ∀ e ∈ log ++ [_] ++ [⟨.tipHeight, answer⟩], Idle e :=
        List.forall_mem_append.mpr ⟨h₁, List.forall_mem_singleton.mpr (idle_of_adopts rfl _)⟩
      have hunadopted : Unadopted swap resume requiredConfirmations _ :=
        unadopted_of_calls hfresh h₂
      refine sound_orThrow_bind (cancelSafe_append rfl) (fun _ _ => trivial) fun tip _ => ?_
      split
      · refine (sound_logged_call _ _).mpr ⟨cancelSafe_append rfl, fun answer =>
          ⟨hunadopted.cancelSafe _ answer, ?_⟩⟩
        exact hunadopted.append (List.forall_mem_singleton.mpr (idle_of_adopts rfl _))
      · refine (sound_logged_call _ _).mpr ⟨cancelSafe_append rfl, fun _ =>
          ⟨cancelSafe_append rfl, ?_, cancelSafe_append rfl⟩⟩
        exact List.forall_mem_append.mpr
          ⟨h₂, List.forall_mem_singleton.mpr (idle_of_adopts rfl _)⟩

theorem awaitAcceptance_sound (fuel : ℕ) :
    Sound Logged (CancelSafe swap resume requiredConfirmations)
      (OnOk (AcceptMeets swap resume requiredConfirmations))
      (awaitAcceptance swap resume poll fuel) [] := by
  have hsafe : CancelSafe swap resume requiredConfirmations [] := by
    intro before hash answer heq
    cases before <;> cases heq
  unfold awaitAcceptance
  split
  · exact ⟨hsafe, nofun⟩
  · rename_i hfresh
    have hnone : resume.funding = none := Option.not_isSome_iff_eq_none.mp (not_or.mp hfresh).1
    exact Sound.iterate (fun _ _ h => h.2)
      (fun _ log h => invoiceRound_sound hnone h.1 h.2) fuel ⟨nofun, hsafe⟩

/-! ## The funding -/

/-- How establishing the funding ends. -/
def FundingMeets (swap : ReverseSwap) (resume : Resume) (requiredConfirmations : ℕ) :
    FundingOutcome → List Event → Prop
  | .funded outpoint, log => AdoptedOnly swap resume requiredConfirmations outpoint log
  | .refused _, log => Unadopted swap resume requiredConfirmations log

/-- What is known while the run looks for an outpoint. -/
structure Seeking (swap : ReverseSwap) (resume : Resume) (requiredConfirmations : ℕ)
    (log : List Event) : Prop where
  unadopted : Unadopted swap resume requiredConfirmations log
  safe : CancelSafe swap resume requiredConfirmations log

theorem Seeking.skip (h : Seeking swap resume requiredConfirmations log) {e : Event}
    (hidle : Idle e) (hcancels : e.1.cancels = false) :
    Seeking swap resume requiredConfirmations (log ++ [e]) :=
  ⟨h.unadopted.append (List.forall_mem_singleton.mpr hidle), cancelSafe_append hcancels⟩

theorem Seeking.append (h : Seeking swap resume requiredConfirmations log) {e : Event}
    (hadopts : e.1.adopts = false) (hcancels : e.1.cancels = false) :
    Seeking swap resume requiredConfirmations (log ++ [e]) :=
  h.skip (idle_of_adopts hadopts e.2) hcancels

/-- A search among the recorded outputs keeps looking. -/
theorem Seeking.sound_searches {ε α : Type} {p : Driver ε α}
    (h : Seeking swap resume requiredConfirmations log)
    (hp : OnlyCalls (fun op => op.searches = true) p) :
    Sound Logged (CancelSafe swap resume requiredConfirmations)
      (OnOk fun _ log => Seeking swap resume requiredConfirmations log) p log := by
  refine Sound.mono (fun _ h => h.safe) ?_
    (OnlyCalls.sound (I := Seeking swap resume requiredConfirmations) ?_ hp h)
  · intro log' r hseeking _
    cases r with
    | ok a => exact hseeking
    | error e => trivial
  · rintro log' op answer _ hop hseeking rfl
    refine hseeking.append ?_ ?_
    · cases op <;> first
        | rfl
        | cases hop
    · cases op <;> first
        | rfl
        | cases hop

/-- An outpoint the run reports stays the only one. -/
theorem AdoptedOnly.sound_funded {β : Type} {Q : List Event → Except DriverError β → Prop}
    (h : AdoptedOnly swap resume requiredConfirmations outpoint log)
    (hsafe : CancelSafe swap resume requiredConfirmations log) (b : β)
    (hQ : ∀ log, AdoptedOnly swap resume requiredConfirmations outpoint log → Q log (.ok b)) :
    Sound Logged (CancelSafe swap resume requiredConfirmations) Q
      (.call (.funded outpoint) fun _ => .pure b) log :=
  (sound_logged_call _ _).mpr
    ⟨hsafe, fun _ => ⟨cancelSafe_append rfl, hQ _ (h.known rfl)⟩⟩

/-- Reporting an outpoint establishes it. -/
theorem Seeking.sound_funded {β : Type} {Q : List Event → Except DriverError β → Prop}
    (h : Seeking swap resume requiredConfirmations log) (outpoint : OutPoint) (b : β)
    (hQ : ∀ log, AdoptedOnly swap resume requiredConfirmations outpoint log → Q log (.ok b)) :
    Sound Logged (CancelSafe swap resume requiredConfirmations) Q
      (.call (.funded outpoint) fun _ => .pure b) log :=
  (sound_logged_call _ _).mpr
    ⟨h.safe, fun _ => ⟨cancelSafe_append rfl, hQ _ (h.unadopted.known rfl)⟩⟩

/-- Giving up cancels the invoice, and nothing is established then. -/
theorem Seeking.sound_cancel {β : Type} {Q : List Event → Except DriverError β → Prop}
    (h : Seeking swap resume requiredConfirmations log) (hash : PaymentHash) (b : β)
    (hQ : ∀ log, Unadopted swap resume requiredConfirmations log → Q log (.ok b)) :
    Sound Logged (CancelSafe swap resume requiredConfirmations) Q
      (.call (.cancelHoldInvoice hash) fun _ => .pure b) log :=
  (sound_logged_call _ _).mpr ⟨h.safe, fun answer => ⟨h.unadopted.cancelSafe hash answer,
    hQ _ (h.unadopted.append (List.forall_mem_singleton.mpr (idle_of_adopts rfl _)))⟩⟩

/-- The chain either shows the funding, and the run adopts it, or shows none. -/
theorem Seeking.sound_findFunding {β : Type} {Q : List Event → Except DriverError β → Prop}
    (h : Seeking swap resume requiredConfirmations log) {expected : ℕ}
    {next : Option FundingUtxo → Driver DriverError β}
    (herror : ∀ log e, Q log (.error e))
    (hfound : ∀ utxo log, AdoptedOnly swap resume requiredConfirmations utxo.outpoint log →
      CancelSafe swap resume requiredConfirmations log →
      Sound Logged (CancelSafe swap resume requiredConfirmations) Q (next (some utxo)) log)
    (hnone : ∀ log, Seeking swap resume requiredConfirmations log →
      Sound Logged (CancelSafe swap resume requiredConfirmations) Q (next none) log) :
    Sound Logged (CancelSafe swap resume requiredConfirmations) Q
      ((findFunding .swap swap.htlcSpk expected).bind next) log := by
  refine (sound_logged_call _ _).mpr ⟨h.safe, fun answer => ?_⟩
  rcases answer with e | found
  · exact ⟨cancelSafe_append rfl, herror _ _⟩
  cases found with
  | some utxo => exact hfound utxo _ (h.unadopted.known rfl) (cancelSafe_append rfl)
  | none => exact hnone _ (h.skip ⟨rfl, nofun⟩ rfl)

theorem awaitRound_sound (watchPoll : ℕ) (h : Seeking swap resume requiredConfirmations log) :
    Sound Logged (CancelSafe swap resume requiredConfirmations)
      (RoundMeets (fun _ log => Seeking swap resume requiredConfirmations log)
        (OnOk (FundingMeets swap resume requiredConfirmations)))
      (awaitRound swap watchPoll) log := by
  refine h.sound_findFunding (fun _ _ => trivial) ?_ ?_
  · exact fun utxo log honly hsafe => honly.sound_funded hsafe _ fun _ hadopted => hadopted
  intro log₁ h₁
  refine (sound_logged_call _ _).mpr ⟨h₁.safe, fun answer => ?_⟩
  have h₂ := h₁.append (e := ⟨.findHistoricalOutputs swap.htlcSpk, answer⟩) rfl rfl
  refine sound_orThrow_bind h₂.safe (fun _ _ => trivial) fun history _ => ?_
  refine Sound.bind ?_ (fun _ _ _ _ => trivial)
    (h₂.sound_searches (searches_selectRecordedFunding ..))
  rintro log₃ found - h₃
  cases found with
  | some outpoint => exact h₃.sound_funded _ _ fun _ hadopted => hadopted
  | none =>
      refine (sound_logged_call _ _).mpr ⟨h₃.safe, fun answer => ?_⟩
      have h₄ := h₃.append (e := ⟨.tipHeight, answer⟩) rfl rfl
      refine sound_orThrow_bind h₄.safe (fun _ _ => trivial) fun tip _ => ?_
      split
      · exact h₄.sound_cancel _ _ fun _ hunadopted => hunadopted
      · refine (sound_logged_call _ _).mpr ⟨h₄.safe, fun _ => ?_⟩
        have h₅ := h₄.append (e := ⟨.sleep watchPoll, ()⟩) rfl rfl
        exact ⟨h₅.safe, h₅⟩

theorem awaitRecordedFunding_sound (fuel : ℕ)
    (h : Seeking swap resume requiredConfirmations log) :
    Sound Logged (CancelSafe swap resume requiredConfirmations)
      (OnOk (FundingMeets swap resume requiredConfirmations))
      (awaitRecordedFunding swap poll fuel) log :=
  Sound.iterate (fun _ _ h => h.safe) (fun _ _ h => awaitRound_sound _ h) fuel h

theorem commitFunding_sound (tip fuel : ℕ)
    (h : Seeking swap resume requiredConfirmations log) :
    Sound Logged (CancelSafe swap resume requiredConfirmations)
      (OnOk (FundingMeets swap resume requiredConfirmations))
      (commitFunding swap tip poll fuel) log := by
  refine (sound_logged_call _ _).mpr ⟨h.safe, fun answer => ?_⟩
  have h₁ := h.append (e := ⟨.fundingIntent tip, answer⟩) rfl rfl
  cases answer with
  | error e => exact h₁.sound_cancel _ _ fun _ hunadopted => hunadopted
  | ok _ =>
      refine (sound_logged_call _ _).mpr ⟨h₁.safe, fun answer => ?_⟩
      cases answer with
      | ok outpoint =>
          refine AdoptedOnly.sound_funded ?_ (cancelSafe_append rfl) _ fun _ hadopted => hadopted
          exact h₁.unadopted.known rfl
      | error e => exact awaitRecordedFunding_sound fuel (h₁.skip ⟨rfl, nofun⟩ rfl)

theorem fundWithinTimelocks_sound (fuel : ℕ)
    (h : Seeking swap resume requiredConfirmations log) :
    Sound Logged (CancelSafe swap resume requiredConfirmations)
      (OnOk (FundingMeets swap resume requiredConfirmations))
      (fundWithinTimelocks swap poll fuel) log := by
  refine (sound_logged_call _ _).mpr ⟨h.safe, fun answer => ?_⟩
  have h₁ := h.append (e := ⟨.invoiceStatus swap.paymentHash, answer⟩) rfl rfl
  refine sound_orThrow_bind h₁.safe (fun _ _ => trivial) fun status _ => ?_
  split
  · exact h₁.sound_cancel _ _ fun _ hunadopted => hunadopted
  · refine (sound_logged_call _ _).mpr ⟨h₁.safe, fun answer => ?_⟩
    have h₂ := h₁.append (e := ⟨.tipHeight, answer⟩) rfl rfl
    refine sound_orThrow_bind h₂.safe (fun _ _ => trivial) fun tip _ => ?_
    split
    · exact h₂.sound_cancel _ _ fun _ hunadopted => hunadopted
    · exact commitFunding_sound tip fuel h₂

/-- After a reorg, one look at the outputs decides whether the record still
counts. -/
theorem adopted_append_outputs (swap : ReverseSwap) (requiredConfirmations : ℕ) {fork : ℕ}
    (hlog : ∀ e ∈ log, Idle e) (hfunding : resume.funding = some outpoint)
    (hreorg : resume.reorgSeenAtHeight = some fork) (outputs : List FundingUtxo)
    (other : OutPoint) :
    Adopted swap resume requiredConfirmations
        (log ++ [⟨.findOutputs swap.htlcSpk, .ok outputs⟩]) other ↔
      other = outpoint ∧ (outputs.any fun u =>
        u.outpoint = outpoint ∧ requiredConfirmations ≤ u.confirmations) = true := by
  constructor
  · rintro (⟨event, hmem, hknown⟩ | ⟨hother, hnone | ⟨seen, hmem, u, hu, hop, hdeep⟩⟩)
    · rcases List.mem_append.mp hmem with hmem | hmem
      · rw [(hlog event hmem).1] at hknown
        cases hknown
      · rw [List.mem_singleton.mp hmem] at hknown
        cases hknown
    · rw [hreorg] at hnone
      cases hnone
    · obtain rfl : outpoint = other := Option.some_inj.mp (hfunding.symm.trans hother)
      rcases List.mem_append.mp hmem with hmem | hmem
      · exact absurd rfl ((hlog _ hmem).2 swap.htlcSpk)
      · cases List.mem_singleton.mp hmem
        exact ⟨rfl, List.any_eq_true.mpr ⟨u, hu, decide_eq_true ⟨hop, hdeep⟩⟩⟩
  · rintro ⟨rfl, hany⟩
    obtain ⟨u, hu, hshown⟩ := List.any_eq_true.mp hany
    refine Or.inr ⟨hfunding, Or.inr ⟨outputs, ?_, u, hu, of_decide_eq_true hshown⟩⟩
    exact List.mem_append_right _ (List.mem_singleton_self _)

/-- **Establishing the funding** ends with one outpoint, or without any. -/
theorem establishFunding_sound (fuel : ℕ) (hlog : ∀ e ∈ log, Idle e)
    (hsafe : CancelSafe swap resume requiredConfirmations log) :
    Sound Logged (CancelSafe swap resume requiredConfirmations)
      (OnOk (FundingMeets swap resume requiredConfirmations))
      (establishFunding swap resume requiredConfirmations poll fuel) log := by
  unfold establishFunding
  split
  · rename_i outpoint hfunding
    split
    · rename_i hreorg
      refine ⟨hsafe, fun other => ⟨?_, ?_⟩⟩
      · rintro (⟨event, hmem, hknown⟩ | ⟨hother, -⟩)
        · rw [(hlog event hmem).1] at hknown
          cases hknown
        · exact Option.some_inj.mp (hother.symm.trans hfunding)
      · rintro rfl
        exact Or.inr ⟨hfunding, Or.inl hreorg⟩
    · rename_i fork hreorg
      refine (sound_logged_call _ _).mpr ⟨hsafe, fun answer => ?_⟩
      have hsafe₁ : CancelSafe swap resume requiredConfirmations
          (log ++ [⟨.findOutputs swap.htlcSpk, answer⟩]) := cancelSafe_append rfl
      refine sound_orThrow_bind hsafe₁ (fun _ _ => trivial) fun outputs houtputs => ?_
      subst houtputs
      have hadopted :=
        adopted_append_outputs swap requiredConfirmations hlog hfunding hreorg outputs
      split
      · rename_i hdeep
        exact ⟨hsafe₁, fun other => (hadopted other).trans (and_iff_left hdeep)⟩
      · rename_i hshallow
        refine awaitRecordedFunding_sound fuel ⟨fun other hother => ?_, hsafe₁⟩
        exact hshallow ((hadopted other).mp hother).2
  · rename_i hnone
    have h : Seeking swap resume requiredConfirmations log :=
      ⟨unadopted_of_calls hnone hlog, hsafe⟩
    refine h.sound_findFunding (fun _ _ => trivial) ?_ ?_
    · exact fun utxo log honly hsafe => honly.sound_funded hsafe _ fun _ hadopted => hadopted
    intro log₁ h₁
    dsimp only
    split
    · exact awaitRecordedFunding_sound fuel h₁
    · exact fundWithinTimelocks_sound fuel h₁

/-! ## The watch -/

theorem SeenBuried.append {txid : Txid} (h : SeenBuried swap log txid) (t : List Event) :
    SeenBuried swap (log ++ t) txid := by
  obtain ⟨confirmations, hdeep, hmem⟩ := h
  exact ⟨confirmations, hdeep, List.mem_append_left _ hmem⟩

theorem Revealed.append {tx : Transaction} {preimage : Preimage}
    (h : Revealed swap outpoint log tx preimage) (t : List Event) :
    Revealed swap outpoint (log ++ t) tx preimage :=
  ⟨List.mem_append_left _ h.1, h.2⟩

theorem Settled.append (h : Settled swap outpoint log) (t : List Event) :
    Settled swap outpoint (log ++ t) := by
  obtain ⟨preimage, ⟨tx, hrevealed⟩, hsettled⟩ := h
  exact ⟨preimage, ⟨tx, hrevealed.append t⟩, List.mem_append_left _ hsettled⟩

/-- A revealed preimage is one of the swap's payment hash. -/
theorem Revealed.hash {tx : Transaction} {preimage : Preimage}
    (h : Revealed swap outpoint log tx preimage) : paymentHash preimage = swap.paymentHash :=
  (extractPreimage_eq_some h.2).2

/-- A buried claim, once the invoice is settled. -/
theorem Settled.collected (h : Settled swap outpoint log) {tx : Transaction}
    {preimage : Preimage} (hrevealed : Revealed swap outpoint log tx preimage)
    (hburied : SeenBuried swap log (Crypto.computeTxid tx)) : ClaimCollected swap outpoint log := by
  obtain ⟨settled, ⟨tx', hrevealed'⟩, hmem⟩ := h
  exact ⟨tx, preimage, hrevealed, hburied, settled, ⟨⟨tx', hrevealed'⟩, hmem⟩,
    hrevealed'.hash.trans hrevealed.hash.symm⟩

theorem RefundBuried.append (h : RefundBuried swap resume outpoint log) (t : List Event) :
    RefundBuried swap resume outpoint (log ++ t) := by
  obtain ⟨txid, hown, hspotted, hburied⟩ := h
  refine ⟨txid, hown.imp_right ?_, hspotted.append t, hburied.append t⟩
  rintro ⟨tx, hmem⟩
  exact ⟨tx, List.mem_append_left _ hmem⟩

/-- What is known while the run watches a funded output. -/
structure Holding (swap : ReverseSwap) (resume : Resume) (requiredConfirmations : ℕ)
    (outpoint : OutPoint) (settled : Bool) (log : List Event) : Prop where
  only : AdoptedOnly swap resume requiredConfirmations outpoint log
  safe : CancelSafe swap resume requiredConfirmations log
  settled : settled = true → Settled swap outpoint log

/-- Calls of the watch that neither establish an outpoint nor cancel. -/
def Op.watching (op : Op) : Bool := !op.adopts && !op.cancels

theorem Holding.append {settled : Bool}
    (h : Holding swap resume requiredConfirmations outpoint settled log) {e : Event}
    (hwatching : e.1.watching = true) :
    Holding swap resume requiredConfirmations outpoint settled (log ++ [e]) := by
  rw [Op.watching, Bool.and_eq_true, Bool.not_eq_true', Bool.not_eq_true'] at hwatching
  exact ⟨h.only.append (List.forall_mem_singleton.mpr (idle_of_adopts hwatching.1 e.2)),
    cancelSafe_append hwatching.2, fun hsettled => (h.settled hsettled).append _⟩

/-- Once a refund is buried the invoice can be cancelled. -/
theorem Holding.cancelSafe {settled : Bool}
    (h : Holding swap resume requiredConfirmations outpoint settled log)
    (hburied : RefundBuried swap resume outpoint log) (hash : PaymentHash)
    (answer : Ans (.cancelHoldInvoice hash)) :
    CancelSafe swap resume requiredConfirmations (log ++ [⟨.cancelHoldInvoice hash, answer⟩]) := by
  intro before _ _ heq other hadopted
  obtain ⟨rfl, -⟩ := List.append_inj' heq rfl
  rwa [(h.only other).mp hadopted]

/-- A part of the watch that only looks. -/
theorem Holding.sound_calls {ε α : Type} {p : Driver ε α} {settled : Bool}
    (h : Holding swap resume requiredConfirmations outpoint settled log)
    (hp : OnlyCalls (fun op => op.watching = true) p) :
    Sound Logged (CancelSafe swap resume requiredConfirmations)
      (OnOk fun _ log' => Holding swap resume requiredConfirmations outpoint settled log' ∧
        ∃ t, log' = log ++ t) p log := by
  have hkept : Sound Logged (Holding swap resume requiredConfirmations outpoint settled)
      (fun log _ => Holding swap resume requiredConfirmations outpoint settled log) p log := by
    refine OnlyCalls.sound ?_ hp h
    rintro log' op answer _ hop hholding rfl
    exact hholding.append hop
  refine Sound.mono (fun _ h => h.1.safe) ?_
    (hkept.and (Program.sound_grows p ⟨[], (List.append_nil _).symm⟩))
  rintro log' r - ⟨hholding, hgrown⟩
  cases r with
  | ok a => exact ⟨hholding, hgrown⟩
  | error e => trivial

theorem watching_hintClaimable (spend : Option Transaction) (hintDue : Bool) :
    OnlyCalls (fun op => op.watching = true)
      (hintClaimable swap outpoint requiredConfirmations spend hintDue) := by
  unfold hintClaimable
  split
  · refine ⟨rfl, fun answer => ?_⟩
    rcases answer with e | _ | confirmations
    · trivial
    · trivial
    · show OnlyCalls _ (if _ then _ else _)
      split
      · exact ⟨rfl, fun _ => trivial⟩
      · trivial
  · trivial

theorem settleOnce_sound {settled : Bool} {spend : Transaction} {preimage : Preimage}
    (h : Holding swap resume requiredConfirmations outpoint settled log)
    (hrevealed : Revealed swap outpoint log spend preimage) :
    Sound Logged (CancelSafe swap resume requiredConfirmations)
      (OnOk fun settled' log' => Holding swap resume requiredConfirmations outpoint settled' log' ∧
        Revealed swap outpoint log' spend preimage)
      (settleOnce spend preimage settled) log := by
  cases settled with
  | true => exact ⟨h.safe, h, hrevealed⟩
  | false =>
      refine (sound_logged_call _ _).mpr ⟨h.safe, fun _ => ?_⟩
      have h₁ := h.append (e := ⟨.claimObserved (Crypto.computeTxid spend), ()⟩) rfl
      refine (sound_logged_call _ _).mpr ⟨h₁.safe, fun answer => ?_⟩
      have h₂ := h₁.append (e := ⟨.settleHoldInvoice preimage, answer⟩) rfl
      cases answer with
      | ok _ =>
          refine ⟨h₂.safe, ⟨h₂.only, h₂.safe, fun _ => ⟨preimage,
            ⟨spend, (hrevealed.append _).append _⟩, ?_⟩⟩, (hrevealed.append _).append _⟩
          exact List.mem_append_right _ (List.mem_singleton_self _)
      | error e => exact ⟨h₂.safe, h₂, (hrevealed.append _).append _⟩

/-- What a reported spend is worth, and what has been seen for it. -/
theorem collect_sound {settled : Bool} {spend : Option Transaction}
    (h : Holding swap resume requiredConfirmations outpoint settled log)
    (hspend : ∀ tx, spend = some tx →
      (⟨.findSpend swap.htlcSpk outpoint, .ok (some tx)⟩ : Event) ∈ log) :
    Sound Logged (CancelSafe swap resume requiredConfirmations)
      (OnOk fun r log' => Holding swap resume requiredConfirmations outpoint r.1 log' ∧
        (r.2 = true → ClaimCollected swap outpoint log'))
      (collect swap outpoint settled spend) log := by
  cases spend with
  | none => exact ⟨h.safe, h, nofun⟩
  | some tx =>
      unfold collect
      dsimp only
      split
      · exact ⟨h.safe, h, nofun⟩
      · rename_i preimage hextract
        refine Sound.bindOk (settleOnce_sound h ⟨hspend tx rfl, hextract⟩) ?_
        rintro log₁ settled' - ⟨h₁, hrevealed⟩
        split
        · rename_i hsettled
          subst hsettled
          refine (sound_logged_call _ _).mpr ⟨h₁.safe, fun answer => ?_⟩
          have h₂ := h₁.append (e := ⟨.txConfirmations swap.htlcSpk (Crypto.computeTxid tx),
            answer⟩) rfl
          refine sound_orThrow_bind h₂.safe (fun _ _ => trivial) fun depth hdepth => ?_
          subst hdepth
          refine ⟨h₂.safe, h₂, fun hburied => (h₂.settled rfl).collected (hrevealed.append _) ?_⟩
          obtain ⟨confirmations, rfl, hdeep⟩ := (Option.any_eq_true _ _).mp hburied
          exact ⟨confirmations, of_decide_eq_true hdeep,
            List.mem_append_right _ (List.mem_singleton_self _)⟩
        · rename_i hunsettled
          rw [Bool.not_eq_true] at hunsettled
          subst hunsettled
          exact ⟨h₁.safe, h₁, nofun⟩

/-! ## The refund -/

/-- A refund transaction spends the output it is built for. -/
theorem refundJob_builds {dest : Bytes} {rate : ℕ} {tx : Transaction}
    (h : (refundJob swap resume outpoint dest poll).build rate = .ok tx) : tx.Spends outpoint := by
  simp only [refundJob] at h
  split at h
  · exact BoltzTaprootSwap.spendTx_spends h
  · exact buildHtlcSpend_spends h

/-- The refund's closures carry nothing. -/
theorem refundJob_meets (swap : ReverseSwap) (resume : Resume) (outpoint : OutPoint)
    (dest : Bytes) (poll : ℕ) :
    JobMeets (refundJob swap resume outpoint dest poll) fun _ _ => True := by
  refine ⟨refundJob_builds, ?_, ⟨fun _ _ => trivial, fun _ _ _ => trivial⟩⟩
  rintro _ ⟨⟩
  exact quiet_walletCpfp

omit [Crypto] in
theorem watching_of_spending {op : Op} (h : op.spending = true) : op.watching = true := by
  cases op <;> first
    | rfl
    | cases h

theorem refundJob_watching (swap : ReverseSwap) (resume : Resume) (outpoint : OutPoint)
    (dest : Bytes) (poll fuel : ℕ) :
    OnlyCalls (fun op => op.watching = true)
      (confirmOrBump (refundJob swap resume outpoint dest poll) fuel ()) := by
  refine OnlyCalls.mono (fun _ => watching_of_spending) (spending_confirmOrBump ?_ fuel ())
  rintro _ ⟨⟩
  exact spending_walletCpfp

/-- How a round of the watch ends the run. -/
def WatchMeets (swap : ReverseSwap) (resume : Resume) (requiredConfirmations : ℕ)
    (outpoint : OutPoint) (state : SwapState) (log : List Event) : Prop :=
  AdoptedOnly swap resume requiredConfirmations outpoint log ∧
    LetGo swap resume outpoint state log

/-- **The refund**: the run ends with it only once it is buried, and cancels the
invoice only then. -/
theorem refundRound_sound (dest : Bytes) (fuel : ℕ) {w : ClaimWatch}
    (h : Holding swap resume requiredConfirmations outpoint w.settled log) :
    Sound Logged (CancelSafe swap resume requiredConfirmations)
      (RoundMeets (fun (w : ClaimWatch) log =>
          Holding swap resume requiredConfirmations outpoint w.settled log)
        (OnOk (WatchMeets swap resume requiredConfirmations outpoint)))
      (refundRound swap resume outpoint dest poll fuel w) log := by
  have hpause {log : List Event}
      (h : Holding swap resume requiredConfirmations outpoint w.settled log) :
      Sound Logged (CancelSafe swap resume requiredConfirmations)
        (RoundMeets (fun (w : ClaimWatch) log =>
            Holding swap resume requiredConfirmations outpoint w.settled log)
          (OnOk (WatchMeets swap resume requiredConfirmations outpoint)))
        (.call (.sleep poll) fun _ => .pure (.inl w) : Driver DriverError _) log := by
    refine (sound_logged_call _ _).mpr ⟨h.safe, fun _ => ?_⟩
    have h₁ := h.append (e := ⟨.sleep poll, ()⟩) rfl
    exact ⟨h₁.safe, h₁⟩
  unfold refundRound refundRoundOver
  split
  · exact hpause h
  have hbump := (h.sound_calls (refundJob_watching swap resume outpoint dest poll fuel)).andOk
    (bump_sound (refundJob_meets swap resume outpoint dest poll) fuel trivial)
  refine Sound.bind ?_ (fun _ _ _ _ => trivial) hbump.mapErrorOk
  rintro log' ⟨outcome, ⟨⟩⟩ - ⟨⟨h', t, rfl⟩, mine, hknows, houtcome⟩
  cases outcome with
  | confirmed txid =>
      obtain ⟨hmine, hspotted, confirmations, hdeep, hmem⟩ := houtcome
      obtain ⟨t', ht', hpass⟩ := hknows.since
      have hburied : RefundBuried swap resume outpoint (log ++ t) := by
        refine ⟨txid, ((hpass.ours txid).mp hmine).imp_right ?_, hspotted,
          confirmations, hdeep, hmem⟩
        rintro ⟨tx, haccepted⟩
        exact ⟨tx, ht' ▸ List.mem_append_right _ haccepted⟩
      refine (sound_logged_call _ _).mpr ⟨h'.safe, fun answer => ⟨?_, ?_, hburied.append _⟩⟩
      · exact h'.cancelSafe hburied _ answer
      · exact h'.only.append (List.forall_mem_singleton.mpr (idle_of_adopts rfl _))
  | conflictingSpend tx => exact hpause h'
  | deadlineExceeded lastTxid tip => exact hpause h'

/-- One round of the watch. -/
theorem claimWatchRound_sound (dest : Bytes) (fuel : ℕ) {w : ClaimWatch}
    (h : Holding swap resume requiredConfirmations outpoint w.settled log) :
    Sound Logged (CancelSafe swap resume requiredConfirmations)
      (RoundMeets (fun (w : ClaimWatch) log =>
          Holding swap resume requiredConfirmations outpoint w.settled log)
        (OnOk (WatchMeets swap resume requiredConfirmations outpoint)))
      (claimWatchRound swap resume outpoint dest requiredConfirmations poll fuel w) log := by
  refine (sound_logged_call _ _).mpr ⟨h.safe, fun answer => ?_⟩
  have h₁ := h.append (e := ⟨.findSpend swap.htlcSpk outpoint, answer⟩) rfl
  refine sound_orThrow_bind h₁.safe (fun _ _ => trivial) fun spend hspend => ?_
  subst hspend
  refine Sound.bind ?_ (fun _ _ _ _ => trivial)
    (h₁.sound_calls (watching_hintClaimable spend w.hintDue))
  rintro log₂ hintDue - ⟨h₂, t, rfl⟩
  refine Sound.bind ?_ (fun _ _ _ _ => trivial) (collect_sound h₂ ?_)
  · rintro log₃ ⟨settled, buried⟩ - ⟨h₃, hcollected⟩
    dsimp only at h₃ hcollected ⊢
    split
    · rename_i hburied
      exact ⟨h₃.safe, h₃.only, hcollected hburied⟩
    refine (sound_logged_call _ _).mpr ⟨h₃.safe, fun answer => ?_⟩
    have h₄ := h₃.append (e := ⟨.tipHeight, answer⟩) rfl
    refine sound_orThrow_bind h₄.safe (fun _ _ => trivial) fun tip _ => ?_
    split
    · exact refundRound_sound dest fuel h₄
    · refine (sound_logged_call _ _).mpr ⟨h₄.safe, fun _ => ?_⟩
      have h₅ := h₄.append (e := ⟨.sleep poll, ()⟩) rfl
      exact ⟨h₅.safe, h₅⟩
  · rintro tx rfl
    exact List.mem_append_left _ (List.mem_append_right _ (List.mem_singleton_self _))

theorem watchFunded_sound (fuel : ℕ)
    (honly : AdoptedOnly swap resume requiredConfirmations outpoint log)
    (hsafe : CancelSafe swap resume requiredConfirmations log) :
    Sound Logged (CancelSafe swap resume requiredConfirmations)
      (OnOk (WatchMeets swap resume requiredConfirmations outpoint))
      (watchFunded swap resume outpoint requiredConfirmations poll fuel) log := by
  have h : Holding swap resume requiredConfirmations outpoint false log := ⟨honly, hsafe, nofun⟩
  refine (sound_logged_call _ _).mpr ⟨h.safe, fun answer => ?_⟩
  have h₁ := h.append (e := ⟨.wantsClaimable, answer⟩) rfl
  refine (sound_logged_call _ _).mpr ⟨h₁.safe, fun dest => ?_⟩
  have h₂ := h₁.append (e := ⟨.receiveDestination, dest⟩) rfl
  exact Sound.iterate (fun _ _ h => h.safe) (fun _ _ h => claimWatchRound_sound dest fuel h) fuel h₂

/-! ## The run -/

/-- **How a run ends, and when it cancels.** -/
theorem driveReverseSwap_sound (fuel : ℕ) :
    Sound Logged (CancelSafe swap resume requiredConfirmations)
      (OnOk fun state log => ∀ outpoint,
        Adopted swap resume requiredConfirmations log outpoint →
          LetGo swap resume outpoint state log)
      (driveReverseSwap swap requiredConfirmations poll resume fuel) [] := by
  refine Sound.bindOk (awaitAcceptance_sound fuel) ?_
  rintro log (- | state) hsafe haccepted
  · refine Sound.bindOk (establishFunding_sound fuel haccepted hsafe) ?_
    rintro log₁ (outpoint | state) hsafe₁ hfunding
    · refine Sound.mono (fun _ h => h) ?_ (watchFunded_sound fuel hfunding hsafe₁)
      rintro log₂ (e | state) - hended
      · trivial
      · obtain ⟨honly, hletGo⟩ := hended
        intro other hother
        rwa [(honly other).mp hother]
    · exact ⟨hsafe₁, fun outpoint hadopted => absurd hadopted (hfunding outpoint)⟩
  · exact ⟨hsafe, fun outpoint hadopted => absurd hadopted (haccepted outpoint)⟩

end PubkySwap
