import PubkySwap.ClientSubmarine

/-!
# One run of the client's submarine swap

What a run of `executeSubmarineSwap` has seen when it returns.  It reports `Expired`
only while no funding is known, and `Claimed` only for a settled invoice or a spend
that reveals the preimage.  For `Refunded` it relies on what the refund loop hands
back, and there a spend that the loop does not know as its own counts as an earlier
refund at any depth; `Recognised` says when it never comes to that.
-/

namespace PubkySwap

open BitcoinScript (Bytes)
open Program (orThrow iterate Run Ending Sound Logged OnOk Always RoundMeets OnlyCalls
  onlyCalls_ask sound_logged_call sound_orThrow_bind onlyCalls_pure onOk_ok onlyCalls_orThrow
  onlyCalls_orThrow_bind)

/-- The outpoint is the swap's funding: an earlier run recorded it, or this one has
made or found it. -/
def KnownFunding (resume : Resume) (log : List Event) (outpoint : OutPoint) : Prop :=
  resume.funding = some outpoint ∨ ∃ event ∈ log, madeKnown event = some outpoint

theorem KnownFunding.append {resume : Resume} {log : List Event} {outpoint : OutPoint}
    (h : KnownFunding resume log outpoint) (t : List Event) :
    KnownFunding resume (log ++ t) outpoint := by
  refine h.imp_right ?_
  rintro ⟨event, hmem, hknown⟩
  exact ⟨event, List.mem_append_left _ hmem, hknown⟩

/-- Calls that establish a funding. -/
def Op.establishes : Op → Bool
  | .findFunding .. | .findHistoricalOutputs _ | .findSpend .. | .tipHeight | .sleep _
  | .funded _ | .fundingIntent _ | .fundHtlc .. => true
  | _ => false

/-- The look at the invoice, with which every round of the settlement begins. -/
def Op.looksAtInvoice : Op → Bool
  | .invoiceState _ => true
  | _ => false

/-- Calls that only wait for a funding. -/
def Op.waits : Op → Bool
  | .findFunding .. | .findHistoricalOutputs _ | .findSpend .. | .tipHeight | .sleep _
  | .funded _ => true
  | _ => false

namespace SubmarineFunding

variable [Crypto]

/-! ## What a run has seen -/

section

variable (funding : SubmarineFunding) (resume : Resume)

/-- The chain has shown this transaction, or accepted it. -/
def Observed (outpoint : OutPoint) (log : List Event) (tx : Transaction) : Prop :=
  (⟨.findSpend funding.htlcSpk outpoint, .ok (some tx)⟩ : Event) ∈ log ∨
    (⟨.broadcast tx, .ok (Crypto.computeTxid tx)⟩ : Event) ∈ log

/-- A transaction was seen at final depth. -/
def SeenFinal (log : List Event) (txid : Txid) : Prop :=
  ∃ confirmations, finalityDepth ≤ confirmations ∧
    (⟨.txConfirmations funding.htlcSpk txid, .ok (some confirmations)⟩ : Event) ∈ log

/-- The spend reveals the preimage. -/
def Reveals (outpoint : OutPoint) (tx : Transaction) : Prop :=
  (extractPreimage tx outpoint funding.paymentHash).isSome

/-- **An honest verdict.** -/
def Honest (log : List Event) : SwapState → Prop
  | .refunded => ∃ outpoint tx, KnownFunding resume log outpoint ∧ tx.Spends outpoint ∧
      ¬funding.Reveals outpoint tx ∧ funding.Observed outpoint log tx ∧
      funding.SeenFinal log (Crypto.computeTxid tx)
  | .claimed => (⟨.invoiceState funding.paymentHash, .ok .settled⟩ : Event) ∈ log ∨
      ∃ outpoint tx, KnownFunding resume log outpoint ∧ funding.Observed outpoint log tx ∧
        funding.Reveals outpoint tx
  | .expired => ∀ outpoint, ¬KnownFunding resume log outpoint
  | _ => False

/-! ## What it is given to see -/

/-- The answers of a chain: a broadcast is accepted under the id of the transaction,
and what spends an output has it as an input. -/
structure Chain (log : List Event) : Prop where
  accepted : ∀ tx txid, (⟨.broadcast tx, .ok txid⟩ : Event) ∈ log → txid = Crypto.computeTxid tx
  spends : ∀ spk outpoint tx, (⟨.findSpend spk outpoint, .ok (some tx)⟩ : Event) ∈ log →
    tx.Spends outpoint

omit [Crypto] in
/-- A refund pass is under way and has exchanged `t`: the wallet has named a destination,
and since then the invoice was not looked at. -/
def RefundPass (log t : List Event) : Prop :=
  ∃ before dest, log = before ++ ⟨.receiveDestination, dest⟩ :: t ∧
    ∀ event ∈ t, event.1.looksAtInvoice = false

omit [Crypto] in
/-- What a refund pass knows by then: the spends the record lists, and those the chain has
accepted from it. -/
def KnownToPass (t : List Event) (txid : Txid) : Prop :=
  txid ∈ resume.ourSpends ∨ Accepted t txid

/-- **Every spend is recognised.**  A spend that the chain shows in a round of a refund
pass, right after the tip, is known to the pass or reveals the preimage; and none that is
known to the pass reveals it. -/
structure Recognised (log : List Event) : Prop where
  foreign : ∀ before t tip outpoint tx after,
    log = before ++ ⟨.tipHeight, .ok tip⟩ ::
        ⟨.findSpend funding.htlcSpk outpoint, .ok (some tx)⟩ :: after →
      RefundPass before t →
        KnownToPass resume t (Crypto.computeTxid tx) ∨ funding.Reveals outpoint tx
  own : ∀ before t outpoint tx after, log = before ++ after → RefundPass before t →
    (⟨.findSpend funding.htlcSpk outpoint, .ok (some tx)⟩ : Event) ∈ before →
      KnownToPass resume t (Crypto.computeTxid tx) → ¬funding.Reveals outpoint tx

/-- A refund that is built reveals no preimage: the redeem script is no 32-byte string,
and no signature is a preimage of the hash. -/
structure PlainRefund : Prop where
  script : funding.htlcScript.length ≠ 32
  signature : ∀ digest key, preimageIn funding.paymentHash [serializeEcdsa digest key] = none

end

variable {funding : SubmarineFunding} {resume : Resume} {outpoint : OutPoint} {log : List Event}
  {poll fuel : ℕ}

/-! ## Establishing the funding -/

/-- Nothing in the exchange makes a funding known. -/
def NothingKnown (log : List Event) : Prop := ∀ event ∈ log, madeKnown event = none

omit [Crypto] in
theorem NothingKnown.append (h : NothingKnown log) {event : Event}
    (hevent : madeKnown event = none) : NothingKnown (log ++ [event]) := by
  intro e hmem
  rcases List.mem_append.mp hmem with hmem | hmem
  · exact h e hmem
  · rwa [List.mem_singleton.mp hmem]

omit [Crypto] in
/-- Looking for spends makes no funding known. -/
theorem nothingKnown_searches {ε α : Type} {p : Driver ε α} (h : NothingKnown log)
    (hp : OnlyCalls (fun op => op.searches = true) p) :
    Sound Logged Always (OnOk fun _ log => NothingKnown log) p log := by
  refine hp.soundOk ?_ h
  rintro log op answer _ hop hlog rfl
  refine hlog.append ?_
  cases op
  all_goals first | rfl | cases hop

/-- What `establish_funding` returns: the funding, or nothing while none is known. -/
def Established (resume : Resume) (log : List Event) : Option OutPoint → Prop
  | some outpoint => KnownFunding resume log outpoint
  | none => resume.funding = none ∧ NothingKnown log

omit [Crypto] in
theorem knownFunding_of_last {event : Event} (h : madeKnown event = some outpoint) :
    KnownFunding resume (log ++ [event]) outpoint :=
  Or.inr ⟨event, List.mem_append_right _ (List.mem_singleton_self _), h⟩

theorem sound_awaitRound (hresume : resume.funding = none) (watchPoll : ℕ)
    (hlog : NothingKnown log) :
    Sound Logged Always
      (RoundMeets (fun _ log => NothingKnown log) (OnOk fun r log => Established resume log r))
      (funding.awaitRound watchPoll) log := by
  refine (sound_logged_call _ _).mpr ⟨trivial, fun answer => ?_⟩
  refine sound_orThrow_bind trivial (fun _ _ => trivial) fun found hfound => ?_
  subst hfound
  cases found with
  | some utxo =>
      exact (sound_logged_call _ _).mpr ⟨trivial, fun _ => ⟨trivial, knownFunding_of_last rfl⟩⟩
  | none =>
      have h₁ : NothingKnown (log ++ [⟨.findFunding funding.htlcSpk funding.onchainAmountSat,
        .ok none⟩]) := hlog.append rfl
      refine (sound_logged_call _ _).mpr ⟨trivial, fun answer => ?_⟩
      have h₂ : NothingKnown (_ ++ [⟨.findHistoricalOutputs funding.htlcSpk, answer⟩]) :=
        h₁.append rfl
      refine sound_orThrow_bind trivial (fun _ _ => trivial) fun history _ => ?_
      have hselect : Sound Logged Always (OnOk fun _ log => NothingKnown log)
          ((selectRecordedFunding funding.htlcSpk funding.paymentHash funding.onchainAmountSat
            history).mapError fun e => DriverError.message ("select funding: " ++ e.display))
          _ := Sound.mapErrorOk (nothingKnown_searches h₂ (searches_selectRecordedFunding ..))
      refine Sound.bind ?_ (fun _ _ _ _ => trivial) hselect
      intro log₃ chosen _ h₃
      cases chosen with
      | some outpoint =>
          exact (sound_logged_call _ _).mpr ⟨trivial, fun _ => ⟨trivial, knownFunding_of_last rfl⟩⟩
      | none =>
          refine (sound_logged_call _ _).mpr ⟨trivial, fun answer => ?_⟩
          have h₄ : NothingKnown (log₃ ++ [⟨.tipHeight, answer⟩]) := h₃.append rfl
          refine sound_orThrow_bind trivial (fun _ _ => trivial) fun tip _ => ?_
          split
          · exact ⟨trivial, hresume, h₄⟩
          · refine (sound_logged_call _ _).mpr ⟨trivial, fun _ => ⟨trivial, ?_⟩⟩
            exact h₄.append rfl

theorem sound_awaitRecordedFunding (hresume : resume.funding = none) (fuel : ℕ)
    (hlog : NothingKnown log) :
    Sound Logged Always (OnOk fun r log => Established resume log r)
      (funding.awaitRecordedFunding poll fuel) log :=
  Sound.iterate (J := fun _ log => NothingKnown log) (fun _ _ _ => trivial)
    (fun _ _ h => sound_awaitRound hresume _ h) fuel hlog

theorem sound_commitFunding (hresume : resume.funding = none) (tip fuel : ℕ)
    (hlog : NothingKnown log) :
    Sound Logged Always (OnOk fun r log => Established resume log r)
      (funding.commitFunding tip poll fuel) log := by
  refine (sound_logged_call _ _).mpr ⟨trivial, fun answer => ?_⟩
  have h₁ : NothingKnown (log ++ [⟨.fundingIntent tip, answer⟩]) := hlog.append rfl
  refine sound_orThrow_bind trivial (fun _ _ => trivial) fun _ _ => ?_
  refine (sound_logged_call _ _).mpr ⟨trivial, fun answer => ?_⟩
  cases answer with
  | ok outpoint =>
      exact (sound_logged_call _ _).mpr ⟨trivial, fun _ => ⟨trivial, knownFunding_of_last rfl⟩⟩
  | error e =>
      refine sound_awaitRecordedFunding hresume fuel ?_
      exact h₁.append rfl

/-- **Establishing the funding**: what is returned is known, and nothing is returned
only while nothing is. -/
theorem sound_establishFunding (fuel : ℕ) :
    Sound Logged Always (OnOk fun r log => Established resume log r)
      (funding.establishFunding resume poll fuel) [] := by
  unfold establishFunding
  cases hresume : resume.funding with
  | some outpoint => exact ⟨trivial, Or.inl hresume⟩
  | none =>
      refine (sound_logged_call _ _).mpr ⟨trivial, fun answer => ?_⟩
      refine sound_orThrow_bind trivial (fun _ _ => trivial) fun found hfound => ?_
      subst hfound
      cases found with
      | some utxo =>
          exact (sound_logged_call _ _).mpr ⟨trivial, fun _ => ⟨trivial, knownFunding_of_last rfl⟩⟩
      | none =>
          have h₁ : NothingKnown [⟨.findFunding funding.htlcSpk funding.onchainAmountSat,
              .ok none⟩] := by
            intro event hmem
            rw [List.mem_singleton.mp hmem]
            rfl
          dsimp only
          split
          · exact sound_awaitRecordedFunding hresume fuel h₁
          · refine (sound_logged_call _ _).mpr ⟨trivial, fun answer => ?_⟩
            have h₂ : NothingKnown (_ ++ [⟨.tipHeight, answer⟩]) := h₁.append rfl
            refine sound_orThrow_bind trivial (fun _ _ => trivial) fun tip _ => ?_
            split
            · exact sound_commitFunding hresume tip fuel h₂
            · trivial

/-! ## Settlement or refund -/

/-- Whatever is broadcast reveals no preimage. -/
def NoReveal (funding : SubmarineFunding) (outpoint : OutPoint) (log : List Event) : Prop :=
  ∀ tx answer, (⟨.broadcast tx, answer⟩ : Event) ∈ log → ¬funding.Reveals outpoint tx

/-- A call that reveals no preimage. -/
def Plain (funding : SubmarineFunding) (outpoint : OutPoint) : Op → Prop
  | .broadcast tx => ¬funding.Reveals outpoint tx
  | _ => True

theorem PlainRefund.not_reveals (hplain : funding.PlainRefund) {dest : Bytes} {feeSat : ℕ}
    {tx : Transaction}
    (hbuild : buildRefundTx outpoint funding.onchainAmountSat funding.htlcScript dest feeSat
      funding.timeoutHeight funding.refundKey = .ok tx) : ¬funding.Reveals outpoint tx := by
  obtain ⟨lockTime, sighash, rfl⟩ := buildHtlcSpend_eq_ok hbuild
  unfold Reveals
  rw [extractPreimage_isSome_iff]
  rintro ⟨input, hmem, -, element, helement, hlength, hhash⟩
  rw [List.mem_singleton.mp hmem] at helement
  rcases List.mem_cons.mp helement with rfl | helement
  · have hsome := preimageIn_isSome_iff.mpr ⟨_, List.mem_singleton_self _, hlength, hhash⟩
    rw [hplain.signature] at hsome
    cases hsome
  rcases List.mem_cons.mp helement with rfl | helement
  · cases hlength
  · rw [List.mem_singleton.mp helement] at hlength
    exact hplain.script hlength

theorem plain_refundJob (hplain : funding.PlainRefund) (dest : Bytes) :
    JobCalls (funding.refundJob resume outpoint dest poll) (funding.Plain outpoint) where
  tip := trivial
  rates := fun _ => trivial
  spend := trivial
  depth := fun _ => trivial
  reports := fun _ => trivial
  publishes := fun _ _ hbuild => hplain.not_reveals hbuild
  pulls := by
    rintro bump ⟨⟩ parent rate
    refine ⟨trivial, fun answer => ?_⟩
    cases answer <;> trivial
  clock := trivial
  pause := trivial

theorem plain_driveRefund (hplain : funding.PlainRefund) :
    OnlyCalls (funding.Plain outpoint) (funding.driveRefund resume outpoint poll fuel) := by
  refine ⟨trivial, fun dest => ?_⟩
  dsimp only [Program.pure_bind]
  refine OnlyCalls.bind (fun r => ?_)
    ((plain_refundJob hplain dest).calls_confirmOrBump fuel ()).mapError
  obtain ⟨outcome, _⟩ := r
  cases outcome with
  | confirmed txid => trivial
  | conflictingSpend tx =>
      dsimp only
      split
      · trivial
      · exact ⟨trivial, fun _ => trivial⟩
  | deadlineExceeded lastTxid tip => trivial

theorem plain_settlementRound (hplain : funding.PlainRefund) :
    OnlyCalls (funding.Plain outpoint) (funding.settlementRound resume outpoint poll fuel) := by
  refine ⟨trivial, fun answer => onlyCalls_orThrow_bind fun state _ => ?_⟩
  split
  · trivial
  · refine ⟨trivial, fun answer => onlyCalls_orThrow_bind fun tip _ => ?_⟩
    split
    · refine ⟨trivial, fun answer => onlyCalls_orThrow_bind fun spend _ => ?_⟩
      cases spend with
      | none => exact plain_driveRefund hplain
      | some spend =>
          dsimp only
          split
          · trivial
          · exact plain_driveRefund hplain
    · exact ⟨trivial, fun _ => trivial⟩

/-- The closures of the refund keep their promises. -/
theorem refundJob_meets (dest : Bytes) :
    JobMeets (funding.refundJob resume outpoint dest poll) (fun _ _ => True) where
  builds := fun hbuild => buildHtlcSpend_spends hbuild
  quiet := by
    rintro bump ⟨⟩
    exact quiet_walletCpfp
  tracks := ⟨fun _ _ => trivial, fun _ _ _ => trivial⟩

/-- Driving the refund is a pass. -/
theorem sound_refundPass (dest : Bytes) :
    Sound Logged Always
      (OnOk fun _ log' => ∃ t, log' = log ++ t ∧ ∀ event ∈ t, event.1.looksAtInvoice = false)
      (confirmOrBump (funding.refundJob resume outpoint dest poll) fuel ()) log := by
  have hspending :
      Spending (confirmOrBump (funding.refundJob resume outpoint dest poll) fuel ()) := by
    refine spending_confirmOrBump ?_ fuel ()
    rintro bump ⟨⟩
    exact spending_walletCpfp
  refine OnlyCalls.soundOk ?_ hspending ⟨[], (List.append_nil _).symm, nofun⟩
  rintro _ op answer _ hop ⟨t, rfl, hquiet⟩ rfl
  refine ⟨t ++ [⟨op, answer⟩], List.append_assoc .., fun event hmem => ?_⟩
  rcases List.mem_append.mp hmem with hmem | hmem
  · exact hquiet event hmem
  · rw [List.mem_singleton.mp hmem]
    cases op
    all_goals first | rfl | cases hop

omit [Crypto] in
/-- A pass whose last exchange is a round's answer was under way when the round began. -/
theorem RefundPass.of_round [Crypto] {before t earlier : List Event} {dest : Bytes} {tip : ℕ}
    {tx : Transaction} {ours : List Txid}
    (hpass : Pass outpoint resume.ourSpends ours t)
    (hquiet : ∀ event ∈ t, event.1.looksAtInvoice = false)
    (hlast : before ++ [⟨.receiveDestination, dest⟩] ++ t = earlier ++ [⟨.tipHeight, .ok tip⟩,
      ⟨.findSpend funding.htlcSpk outpoint, .ok (some tx)⟩]) :
    ∃ t', RefundPass earlier t' ∧ ∀ txid, KnownToPass resume t' txid → txid ∈ ours := by
  rcases List.append_eq_append_iff.mp hlast with ⟨t', rfl, rfl⟩ | ⟨rest, -, hround⟩
  · refine ⟨t', ⟨before, dest, by simp, fun event hmem =>
      hquiet event (List.mem_append_left _ hmem)⟩, fun txid hknown => (hpass.ours txid).mpr ?_⟩
    exact hknown.imp_right fun ⟨tx, hmem⟩ => ⟨tx, List.mem_append_left _ hmem⟩
  · -- A pass begins with a fee rate, which is neither of the two.
    obtain ⟨first, after, rfl, hfirst⟩ := hpass.begins
    have hmem : first ∈ rest ++ first :: after := List.mem_append_right _ (List.mem_cons_self ..)
    rw [← hround] at hmem
    rcases List.mem_pair.mp hmem with rfl | rfl <;> cases hfirst

/-- What a state owes, once the answers are a chain's and every spend is recognised. -/
def Owes (funding : SubmarineFunding) (resume : Resume) (outpoint : OutPoint)
    (state : SwapState) (log : List Event) : Prop :=
  funding.NoReveal outpoint log → Chain log → funding.Recognised resume log →
    funding.Honest resume log state

/-- What a refund pass hands back. -/
theorem sound_driveRefund (hknown : KnownFunding resume log outpoint) :
    Sound Logged Always
      (RoundMeets (fun _ log => KnownFunding resume log outpoint)
        (OnOk (funding.Owes resume outpoint)))
      (funding.driveRefund resume outpoint poll fuel) log := by
  refine (sound_logged_call _ _).mpr ⟨trivial, fun dest => ?_⟩
  dsimp only [Program.pure_bind]
  refine Sound.bind ?_ (fun _ _ _ _ => trivial) (Sound.mapErrorOk
    ((bump_sound (refundJob_meets dest) fuel trivial).andOk (sound_refundPass dest)))
  rintro log' ⟨outcome, _⟩ - ⟨⟨ours, ⟨⟨t, rfl, hpass⟩, -⟩, houtcome⟩, t', heq, hquiet⟩
  obtain rfl : t = t' := List.append_cancel_left heq
  have hknown' := (hknown.append [⟨.receiveDestination, dest⟩]).append t
  have hunder : RefundPass (log ++ [⟨.receiveDestination, dest⟩] ++ t) t :=
    ⟨log, dest, by simp, hquiet⟩
  cases outcome with
  | deadlineExceeded lastTxid tip => exact ⟨trivial, hknown'⟩
  | confirmed txid =>
      obtain ⟨hours, hspotted, hdeep⟩ := houtcome
      refine ⟨trivial, fun hplain hchain hrecognised => ?_⟩
      rcases hspotted with ⟨tx, hmem, hspends⟩ | ⟨tx, hmem, rfl⟩
      · obtain rfl := hchain.accepted tx txid hmem
        exact ⟨outpoint, tx, hknown', hspends, hplain tx _ hmem, Or.inr hmem, hdeep⟩
      · exact ⟨outpoint, tx, hknown', hchain.spends _ _ _ hmem,
          hrecognised.own _ t outpoint tx [] (List.append_nil _).symm hunder hmem
            ((hpass.ours _).mp hours), Or.inl hmem, hdeep⟩
  | conflictingSpend tx =>
      obtain ⟨hforeign, earlier, tip, hlast⟩ := houtcome
      have hmem : (⟨.findSpend funding.htlcSpk outpoint, .ok (some tx)⟩ : Event) ∈
          log ++ [⟨.receiveDestination, dest⟩] ++ t := by
        rw [hlast]
        exact List.mem_append_right _ (List.mem_cons_of_mem _ (List.mem_singleton_self _))
      dsimp only
      split
      · rename_i hreveals
        exact ⟨trivial, fun _ _ _ => Or.inr ⟨outpoint, tx, hknown', Or.inl hmem, hreveals⟩⟩
      · -- The spend is foreign to the pass and reveals nothing: not recognised.
        rename_i hreveals
        refine (sound_logged_call _ _).mpr ⟨trivial, fun _ => ⟨trivial, ?_⟩⟩
        intro _ _ hrecognised
        obtain ⟨t', hunder', hours⟩ := RefundPass.of_round hpass hquiet hlast
        rcases hrecognised.foreign earlier t' tip outpoint tx [_]
            (by rw [hlast, List.append_assoc]; rfl) hunder' with hrecorded | hrevealed
        · exact absurd (hours _ hrecorded) hforeign
        · exact absurd hrevealed hreveals

/-- One round: the invoice settles it, or the chain does from the timeout on. -/
theorem sound_settlementRound (hknown : KnownFunding resume log outpoint) :
    Sound Logged Always
      (RoundMeets (fun _ log => KnownFunding resume log outpoint)
        (OnOk (funding.Owes resume outpoint)))
      (funding.settlementRound resume outpoint poll fuel) log := by
  refine (sound_logged_call _ _).mpr ⟨trivial, fun answer => ?_⟩
  have h₁ := hknown.append [⟨.invoiceState funding.paymentHash, answer⟩]
  refine sound_orThrow_bind trivial (fun _ _ => trivial) fun state hstate => ?_
  subst hstate
  split
  · rename_i hsettled
    subst hsettled
    refine ⟨trivial, fun _ _ _ => Or.inl ?_⟩
    exact List.mem_append_right _ (List.mem_singleton_self _)
  refine (sound_logged_call _ _).mpr ⟨trivial, fun answer => ?_⟩
  have h₂ := h₁.append [⟨.tipHeight, answer⟩]
  refine sound_orThrow_bind trivial (fun _ _ => trivial) fun tip _ => ?_
  split
  · refine (sound_logged_call _ _).mpr ⟨trivial, fun answer => ?_⟩
    have h₃ := h₂.append [⟨.findSpend funding.htlcSpk outpoint, answer⟩]
    refine sound_orThrow_bind trivial (fun _ _ => trivial) fun spend hspend => ?_
    subst hspend
    cases spend with
    | none => exact sound_driveRefund h₃
    | some spend =>
        dsimp only
        split
        · rename_i hreveals
          refine ⟨trivial, fun _ _ _ => Or.inr ⟨outpoint, spend, h₃, Or.inl ?_, hreveals⟩⟩
          exact List.mem_append_right _ (List.mem_singleton_self _)
        · exact sound_driveRefund h₃
  · refine (sound_logged_call _ _).mpr ⟨trivial, fun _ => ⟨trivial, ?_⟩⟩
    exact h₂.append [⟨.sleep poll, ()⟩]

/-! ## The whole run -/

/-- A program of such calls only. -/
abbrev Establishing {ε α : Type} (p : Driver ε α) : Prop :=
  OnlyCalls (fun op => op.establishes = true) p

/-- A look for a funding that may exist only waits. -/
theorem waiting_awaitRound (watchPoll : ℕ) :
    OnlyCalls (fun op => op.waits = true) (funding.awaitRound watchPoll) := by
  refine ⟨rfl, fun answer => onlyCalls_orThrow_bind fun found _ => ?_⟩
  cases found with
  | some utxo => exact ⟨rfl, fun _ => trivial⟩
  | none =>
      refine ⟨rfl, fun answer => onlyCalls_orThrow_bind fun history _ => ?_⟩
      refine OnlyCalls.bind (fun chosen => ?_) (OnlyCalls.mapError (OnlyCalls.mono ?_
        (searches_selectRecordedFunding ..)))
      · cases chosen with
        | some outpoint => exact ⟨rfl, fun _ => trivial⟩
        | none =>
            refine ⟨rfl, fun answer => onlyCalls_orThrow_bind fun tip _ => ?_⟩
            split
            · trivial
            · exact ⟨rfl, fun _ => trivial⟩
      · intro op hop
        cases op
        all_goals first | rfl | cases hop

theorem establishing_awaitRound (watchPoll : ℕ) : Establishing (funding.awaitRound watchPoll) := by
  refine (waiting_awaitRound watchPoll).mono fun op hop => ?_
  cases op
  all_goals first | rfl | cases hop

theorem establishing_commitFunding (tip : ℕ) :
    Establishing (funding.commitFunding tip poll fuel) := by
  refine ⟨rfl, fun answer => onlyCalls_orThrow_bind fun _ _ => ⟨rfl, fun answer => ?_⟩⟩
  cases answer with
  | ok outpoint => exact ⟨rfl, fun _ => trivial⟩
  | error e => exact OnlyCalls.iterate (fun _ => establishing_awaitRound _) fuel ()

theorem establishing_establishFunding :
    Establishing (funding.establishFunding resume poll fuel) := by
  unfold establishFunding
  split
  · trivial
  refine ⟨rfl, fun answer => onlyCalls_orThrow_bind fun found _ => ?_⟩
  cases found with
  | some utxo => exact ⟨rfl, fun _ => trivial⟩
  | none =>
      dsimp only
      split
      · exact OnlyCalls.iterate (fun _ => establishing_awaitRound _) fuel ()
      · refine ⟨rfl, fun answer => onlyCalls_orThrow_bind fun tip _ => ?_⟩
        split
        · exact establishing_commitFunding tip
        · trivial

omit [Crypto] in
theorem NoReveal.append [Crypto] (h : funding.NoReveal outpoint log) {op : Op}
    (hop : funding.Plain outpoint op) (answer : Ans op) :
    funding.NoReveal outpoint (log ++ [⟨op, answer⟩]) := by
  intro tx answer' hmem
  rcases List.mem_append.mp hmem with hmem | hmem
  · exact h tx answer' hmem
  · cases List.mem_singleton.mp hmem
    exact hop

/-- **A run's verdict**, whatever the chain, the node and the wallet answer. -/
theorem sound_executeSubmarineSwap (hplain : funding.PlainRefund) (fuel : ℕ) :
    Sound Logged Always
      (OnOk fun state log => Chain log → funding.Recognised resume log →
        funding.Honest resume log state)
      (executeSubmarineSwap funding poll resume fuel) [] := by
  have hquiet : Sound Logged Always
      (OnOk fun _ log => ∀ outpoint, funding.NoReveal outpoint log)
      (funding.establishFunding resume poll fuel) [] := by
    refine OnlyCalls.soundOk (I := fun log => ∀ outpoint, funding.NoReveal outpoint log) ?_
      establishing_establishFunding nofun
    rintro log op answer _ hop hlog rfl outpoint
    refine (hlog outpoint).append ?_ answer
    cases op <;> trivial
  refine Sound.andThen ((sound_establishFunding fuel).andOk hquiet) ?_
  rintro log (_ | outpoint) ⟨hestablished, hlog⟩
  · refine ⟨trivial, fun _ _ outpoint hknown => ?_⟩
    obtain ⟨hresume, hnothing⟩ := hestablished
    rcases hknown with hknown | ⟨event, hmem, hknown⟩
    · rw [hresume] at hknown
      cases hknown
    · rw [hnothing event hmem] at hknown
      cases hknown
  · have hloop : Sound Logged Always (OnOk (funding.Owes resume outpoint))
        (iterate (fun _ => funding.settlementRound resume outpoint poll fuel) fuel ()) log :=
      Sound.iterate (J := fun _ log => KnownFunding resume log outpoint) (fun _ _ _ => trivial)
        (fun _ _ h => sound_settlementRound h) fuel hestablished
    have hnone : Sound Logged Always (OnOk fun _ log => funding.NoReveal outpoint log)
        (iterate (fun _ => funding.settlementRound resume outpoint poll fuel) fuel ()) log := by
      refine OnlyCalls.soundOk ?_
        (OnlyCalls.iterate (fun _ => plain_settlementRound hplain) fuel ()) (hlog outpoint)
      rintro log op answer _ hop hlog rfl
      exact hlog.append hop answer
    refine Sound.mono (fun _ _ => trivial) ?_ (hloop.andOk hnone)
    intro log r _ hr
    cases r with
    | ok state => exact hr.1 hr.2
    | error e => trivial

end SubmarineFunding

end PubkySwap
