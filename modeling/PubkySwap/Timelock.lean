import PubkySwap.Lib.Word
import PubkySwap.Swap

/-!
# Cross-leg timelocks

A swap's two legs have independent clocks, and the swap is atomic only while
they are ordered: a reverse swap's Lightning leg has to outlive its on-chain leg,
and a submarine provider has to be able to claim before the client can refund.

Each gate below guards one irreversible act, and its lemma says exactly when it
passes.  Heights are `u32`s and every sum is checked.
-/

namespace PubkySwap

/-- Blocks a client needs to confirm a reverse claim. -/
def clientClaimWindow : ℕ := 18

/-- Blocks a provider needs to confirm a submarine claim. -/
def providerMinClaimWindow : ℕ := 18

/-- Never start a claim this close to the counterparty's refund. -/
def claimAbortMargin : ℕ := 6

/-- Slack between a funding reaching its depth and the claim window. -/
def fundingGrace : ℕ := 6

/-- The operator's half of the timelock model. -/
structure TimelockParams where
  /-- From the accept height to the refund branch opening. -/
  htlcTimeoutBlocks : ℕ := 144
  requiredConfirmations : ℕ := 1
  minClaimWindowBlocks : ℕ := 18
  refundConfirmBlocks : ℕ := 18
  lnHoldExpiryDelta : ℕ := 24
  latePaymentSlack : ℕ := 30
  maxTimeoutBlocks : ℕ := 1008
  deriving DecidableEq, Repr

/-- Why a timelock check refused. -/
inductive TimelockViolation where
  | lnExpiryTooEarly (lnExpiry onchainTimeout need : ℕ)
  | lnExpiryTooLate (lnExpiry onchainTimeout latest : ℕ)
  | claimWindowTooShort (tip timeout need : ℕ)
  | timeoutTooFar (timeout tip max : ℕ)
  | timeoutInPast (timeout tip : ℕ)
  | paramsUnsatisfiable (detail : String)
  | overflow
  deriving DecidableEq, Repr

/-- The `Display` text of a violation. -/
def TimelockViolation.display : TimelockViolation → String
  | lnExpiryTooEarly lnExpiry onchainTimeout need =>
      s!"lightning HTLC expires at height {lnExpiry} but the on-chain HTLC refunds at " ++
        s!"{onchainTimeout}; the lightning leg must survive to at least {need}"
  | lnExpiryTooLate lnExpiry onchainTimeout latest =>
      s!"the outgoing lightning HTLC could expire as late as {lnExpiry}, but the on-chain HTLC " ++
        s!"refunds at {onchainTimeout}; it must end by {latest} to leave room to claim"
  | claimWindowTooShort tip timeout need =>
      s!"only {timeout - tip} block(s) remain to the timeout at {timeout} (tip {tip}); " ++
        s!"{need} are needed"
  | timeoutTooFar timeout tip max =>
      s!"timeout height {timeout} is {timeout - tip} blocks past the tip {tip}; the ceiling is " ++
        s!"{max}"
  | timeoutInPast timeout tip => s!"timeout height {timeout} is not ahead of the tip {tip}"
  | paramsUnsatisfiable detail => s!"timelock parameters are unsatisfiable: {detail}"
  | overflow => "block height arithmetic overflowed"

/-- A checked sum of heights. -/
def addHeights (a b : ℕ) : Except TimelockViolation ℕ :=
  match Word.checkedAdd 32 a b with
  | some sum => .ok sum
  | none => .error .overflow

/-- A checked sum succeeds within range, and is the sum. -/
theorem addHeights_bind_eq_ok {β : Type} {a b : ℕ} {f : ℕ → Except TimelockViolation β} {r : β} :
    (addHeights a b >>= f) = .ok r ↔ a + b < 2 ^ 32 ∧ f (a + b) = .ok r := by
  unfold addHeights Word.checkedAdd
  split
  · next h =>
      split at h
      · cases h
        exact (and_iff_right ‹_›).symm
      · cases h
  · next h =>
      split at h
      · cases h
      · exact iff_of_false nofun fun hr => absurd hr.1 ‹_›

theorem addHeights_eq_ok {a b c : ℕ} : addHeights a b = .ok c ↔ a + b < 2 ^ 32 ∧ a + b = c := by
  have h := addHeights_bind_eq_ok (a := a) (b := b) (f := .ok) (r := c)
  rwa [show (addHeights a b >>= Except.ok) = addHeights a b from bind_pure _, Except.ok.injEq] at h

/-! ## The gates -/

/-- `onchain_timeout`. -/
def onchainTimeout (tip : ℕ) (p : TimelockParams) : Except TimelockViolation ℕ :=
  addHeights tip p.htlcTimeoutBlocks

/-- `reverse_invoice_cltv_delta`. -/
def reverseInvoiceCltvDelta (p : TimelockParams) : Except TimelockViolation ℕ := do
  addHeights
    (← addHeights (← addHeights p.htlcTimeoutBlocks p.refundConfirmBlocks) p.lnHoldExpiryDelta)
    p.latePaymentSlack

/-- `required_ln_expiry`. -/
def requiredLnExpiry (onchainTimeout : ℕ) (p : TimelockParams) : Except TimelockViolation ℕ := do
  addHeights (← addHeights onchainTimeout p.refundConfirmBlocks) p.lnHoldExpiryDelta

/-- `check_reverse_before_fund`. -/
def checkReverseBeforeFund (tip onchainTimeout lnExpiry : ℕ) (p : TimelockParams) :
    Except TimelockViolation Unit := do
  let need ← requiredLnExpiry onchainTimeout p
  if lnExpiry < need then .error (.lnExpiryTooEarly lnExpiry onchainTimeout need)
  else
    let needBlocks ← addHeights (← addHeights p.requiredConfirmations clientClaimWindow)
      p.refundConfirmBlocks
    if onchainTimeout - tip < needBlocks then
      .error (.claimWindowTooShort tip onchainTimeout needBlocks)
    else .ok ()

/-- `check_submarine_before_pay`. -/
def checkSubmarineBeforePay (tip timeoutHeight : ℕ) (p : TimelockParams) :
    Except TimelockViolation Unit :=
  if timeoutHeight ≤ tip then .error (.timeoutInPast timeoutHeight tip)
  else if timeoutHeight - tip < p.minClaimWindowBlocks then
    .error (.claimWindowTooShort tip timeoutHeight p.minClaimWindowBlocks)
  else .ok ()

/-- `submarine_cltv_budget`. -/
def submarineCltvBudget (tip timeoutHeight : ℕ) (p : TimelockParams) : Option ℕ := do
  let remaining ← Word.checkedSub timeoutHeight tip
  let budget ← Word.checkedSub remaining p.minClaimWindowBlocks
  if 0 < budget then some budget else none

/-- `check_submarine_invoice_cltv`. -/
def checkSubmarineInvoiceCltv (tip timeoutHeight minFinalCltvExpiry : ℕ) (p : TimelockParams) :
    Except TimelockViolation Unit :=
  match submarineCltvBudget tip timeoutHeight p with
  | none => .error (.claimWindowTooShort tip timeoutHeight p.minClaimWindowBlocks)
  | some budget =>
      if budget ≤ minFinalCltvExpiry then
        .error (.lnExpiryTooLate (Word.saturatingAdd 32 tip minFinalCltvExpiry) timeoutHeight
          (Word.saturatingAdd 32 tip budget))
      else .ok ()

/-- `check_timeout_ceiling`. -/
def checkTimeoutCeiling (tip timeoutHeight : ℕ) (p : TimelockParams) :
    Except TimelockViolation Unit :=
  if timeoutHeight ≤ tip then .error (.timeoutInPast timeoutHeight tip)
  else if p.maxTimeoutBlocks < timeoutHeight - tip then
    .error (.timeoutTooFar timeoutHeight tip p.maxTimeoutBlocks)
  else .ok ()

/-- A client's gate on a proposed timeout: not too far out, and far enough for
the confirmations, a window to claim in and a margin. -/
def checkClientAccept (window margin tip timeoutHeight : ℕ) (p : TimelockParams) :
    Except TimelockViolation Unit := do
  checkTimeoutCeiling tip timeoutHeight p
  let need ← addHeights (← addHeights p.requiredConfirmations window) margin
  if timeoutHeight - tip < need then .error (.claimWindowTooShort tip timeoutHeight need)
  else .ok ()

/-- `check_client_reverse_accept`. -/
def checkClientReverseAccept (tip timeoutHeight : ℕ) (p : TimelockParams) :
    Except TimelockViolation Unit :=
  checkClientAccept clientClaimWindow claimAbortMargin tip timeoutHeight p

/-- `check_client_submarine_accept`. -/
def checkClientSubmarineAccept (tip timeoutHeight : ℕ) (p : TimelockParams) :
    Except TimelockViolation Unit :=
  checkClientAccept providerMinClaimWindow fundingGrace tip timeoutHeight p

/-- `claim_start_is_safe`. -/
def claimStartIsSafe (tip timeoutHeight : ℕ) : Bool :=
  decide (tip < timeoutHeight ∧ claimAbortMargin < timeoutHeight - tip)

/-- `validate_params`. -/
def validateParams (p : TimelockParams) : Except TimelockViolation Unit := do
  let need ← addHeights (← addHeights p.requiredConfirmations fundingGrace) p.minClaimWindowBlocks
  if p.htlcTimeoutBlocks < need then
    .error (.paramsUnsatisfiable ("htlc_timeout_blocks is shorter than required_confirmations + " ++
      "funding grace + min_claim_window_blocks"))
  else if p.maxTimeoutBlocks < p.htlcTimeoutBlocks then
    .error (.paramsUnsatisfiable "htlc_timeout_blocks exceeds max_timeout_blocks")
  else do
    let delta ← reverseInvoiceCltvDelta p
    if 2016 < delta then
      .error (.paramsUnsatisfiable ("the derived hold-invoice CLTV delta exceeds the 2016-block " ++
        "ceiling most Lightning nodes enforce; lower htlc_timeout_blocks"))
    else .ok ()

/-! ## When they pass -/

section

variable {tip timeout lnExpiry delta : ℕ} {p : TimelockParams}

theorem reverseInvoiceCltvDelta_eq_ok (h : reverseInvoiceCltvDelta p = .ok delta) :
    delta = p.htlcTimeoutBlocks + p.refundConfirmBlocks + p.lnHoldExpiryDelta +
      p.latePaymentSlack := by
  simp only [reverseInvoiceCltvDelta, addHeights_bind_eq_ok, addHeights_eq_ok] at h
  exact h.2.2.2.symm

/-- The provider funds when the Lightning leg outlives the on-chain leg and a
claim and a refund still fit before the timeout. -/
theorem checkReverseBeforeFund_eq_ok : checkReverseBeforeFund tip timeout lnExpiry p = .ok () ↔
    timeout + p.refundConfirmBlocks + p.lnHoldExpiryDelta < 2 ^ 32 ∧
      timeout + p.refundConfirmBlocks + p.lnHoldExpiryDelta ≤ lnExpiry ∧
      p.requiredConfirmations + clientClaimWindow + p.refundConfirmBlocks < 2 ^ 32 ∧
      p.requiredConfirmations + clientClaimWindow + p.refundConfirmBlocks ≤ timeout - tip := by
  simp only [checkReverseBeforeFund, requiredLnExpiry, bind_assoc, addHeights_bind_eq_ok,
    ite_error_eq_ok, and_true]
  omega

theorem checkTimeoutCeiling_eq_ok : checkTimeoutCeiling tip timeout p = .ok () ↔
    tip < timeout ∧ timeout - tip ≤ p.maxTimeoutBlocks := by
  simp only [checkTimeoutCeiling, ite_error_eq_ok, and_true, not_le, not_lt]

/-- A client accepts a timeout that is not too far and leaves it its window. -/
theorem checkClientAccept_eq_ok {window margin : ℕ} :
    checkClientAccept window margin tip timeout p = .ok () ↔
      tip < timeout ∧ timeout - tip ≤ p.maxTimeoutBlocks ∧
        p.requiredConfirmations + window + margin < 2 ^ 32 ∧
        p.requiredConfirmations + window + margin ≤ timeout - tip := by
  simp only [checkClientAccept, check_bind_eq_ok, checkTimeoutCeiling_eq_ok,
    addHeights_bind_eq_ok, ite_error_eq_ok, and_true]
  omega

/-- What the startup gate makes sure of. -/
theorem validateParams_eq_ok (h : validateParams p = .ok ()) :
    p.requiredConfirmations + fundingGrace + p.minClaimWindowBlocks ≤ p.htlcTimeoutBlocks ∧
      p.htlcTimeoutBlocks ≤ p.maxTimeoutBlocks ∧
      p.htlcTimeoutBlocks + p.refundConfirmBlocks + p.lnHoldExpiryDelta + p.latePaymentSlack ≤
        2016 := by
  simp only [validateParams, reverseInvoiceCltvDelta, bind_assoc, addHeights_bind_eq_ok,
    ite_error_eq_ok, and_true] at h
  omega

/-- A sum out of range is an overflow and nothing else. -/
theorem addHeights_bind_eq_error {β : Type} {a b : ℕ} {f : ℕ → Except TimelockViolation β}
    {e : TimelockViolation} (h : (addHeights a b >>= f) = .error e) :
    e = .overflow ∨ f (a + b) = .error e := by
  unfold addHeights Word.checkedAdd at h
  by_cases hfits : a + b < 2 ^ 32
  · rw [if_pos hfits] at h
    exact Or.inr h
  · rw [if_neg hfits] at h
    cases h
    exact Or.inl rfl

/-- The one refusal that names the Lightning expiry is about it. -/
theorem lnExpiry_lt_of_tooEarly {a b c : ℕ}
    (h : checkReverseBeforeFund tip timeout lnExpiry p = .error (.lnExpiryTooEarly a b c)) :
    lnExpiry < timeout + p.refundConfirmBlocks + p.lnHoldExpiryDelta := by
  rw [checkReverseBeforeFund, requiredLnExpiry, bind_assoc] at h
  obtain hoverflow | h := addHeights_bind_eq_error h
  · cases hoverflow
  obtain hoverflow | h := addHeights_bind_eq_error h
  · cases hoverflow
  split at h
  · assumption
  obtain hoverflow | h := addHeights_bind_eq_error h
  · cases hoverflow
  obtain hoverflow | h := addHeights_bind_eq_error h
  · cases hoverflow
  split at h <;> cases h

/-! ## The order of the two legs -/

/-- **An accepted swap orders its legs**: a claim and then a refund fit before
the on-chain timeout, and a refund and the node's reserve fit between it and the
Lightning expiry.  And an expiry that comes from the delta the provider asked
for, at any height from the acceptance on, is never too early. -/
theorem reverse_legs_ordered (p : TimelockParams) :
    (∀ tip timeout lnExpiry, checkReverseBeforeFund tip timeout lnExpiry p = .ok () →
      tip + p.requiredConfirmations + clientClaimWindow + p.refundConfirmBlocks ≤ timeout ∧
        timeout + p.refundConfirmBlocks + p.lnHoldExpiryDelta ≤ lnExpiry) ∧
      ∀ acceptTip payTip tip timeout delta, onchainTimeout acceptTip p = .ok timeout →
        acceptTip ≤ payTip → reverseInvoiceCltvDelta p = .ok delta →
          ∀ a b c, checkReverseBeforeFund tip timeout (payTip + delta) p ≠
            .error (.lnExpiryTooEarly a b c) := by
  constructor
  · intro tip timeout lnExpiry h
    obtain ⟨-, hlate, -, hwindow⟩ := checkReverseBeforeFund_eq_ok.mp h
    -- The window is not empty, so the difference of heights has not stopped at zero.
    have hnonempty : 0 < clientClaimWindow := by decide
    omega
  · intro acceptTip payTip tip timeout delta htimeout hpay hdelta a b c h
    have hearly := lnExpiry_lt_of_tooEarly h
    have hsum := reverseInvoiceCltvDelta_eq_ok hdelta
    obtain ⟨-, rfl⟩ := addHeights_eq_ok.mp htimeout
    omega

/-- The stock parameters at height 800000, paid two blocks late: the delta the provider asks
for is 216, and the expiry it comes to is past the 800186 that the check wants. -/
theorem reverse_legs_ordered_default :
    checkReverseBeforeFund 800002 800144 800218 {} = .ok () ∧
      800002 + 1 + clientClaimWindow + 18 ≤ 800144 ∧ 800144 + 18 + 24 ≤ 800218 ∧
      requiredLnExpiry 800144 {} = .ok 800186 ∧ reverseInvoiceCltvDelta {} = .ok 216 ∧
      checkReverseBeforeFund 800002 800144 (800002 + 216) {} ≠
        .error (.lnExpiryTooEarly (800002 + 216) 800144 800186) := by
  have hpasses : checkReverseBeforeFund 800002 800144 800218 {} = .ok () := by decide
  have hdelta : reverseInvoiceCltvDelta {} = .ok 216 := by decide
  obtain ⟨hclaim, hrefund⟩ := (reverse_legs_ordered {}).1 800002 800144 800218 hpasses
  exact ⟨hpasses, hclaim, hrefund, by decide, hdelta,
    (reverse_legs_ordered {}).2 800000 800002 800002 800144 216 (by decide) (by decide) hdelta
      (800002 + 216) 800144 800186⟩

/-! ## What the startup gate promises -/

/-- A reverse swap accepted and paid at `tip` passes the provider's gate and the
client's, and the client's submarine gate passes for the same timeout. -/
def Usable (p : TimelockParams) (tip timeout delta : ℕ) : Prop :=
  checkReverseBeforeFund tip timeout (tip + delta) p = .ok () ∧
    checkClientReverseAccept tip timeout p = .ok () ∧
    checkClientSubmarineAccept tip timeout p = .ok ()

instance (p : TimelockParams) (tip timeout delta : ℕ) : Decidable (Usable p tip timeout delta) :=
  inferInstanceAs (Decidable (_ ∧ _ ∧ _))

/-- **When validated parameters are usable**: exactly when the timeout also
covers a claim window together with a refund, and with the larger of the two
margins.  The startup gate only asks for the submarine provider's window. -/
theorem validated_usable_iff (hvalid : validateParams p = .ok ())
    (htimeout : onchainTimeout tip p = .ok timeout) (hdelta : reverseInvoiceCltvDelta p = .ok delta)
    (hfits : tip + delta < 2 ^ 32) :
    Usable p tip timeout delta ↔
      p.requiredConfirmations + clientClaimWindow + max p.refundConfirmBlocks claimAbortMargin ≤
        p.htlcTimeoutBlocks := by
  obtain ⟨hneed, hceiling, -⟩ := validateParams_eq_ok hvalid
  obtain ⟨hbound, rfl⟩ := addHeights_eq_ok.mp htimeout
  have hsum := reverseInvoiceCltvDelta_eq_ok hdelta
  unfold Usable checkClientReverseAccept checkClientSubmarineAccept
  rw [checkReverseBeforeFund_eq_ok, checkClientAccept_eq_ok, checkClientAccept_eq_ok]
  simp only [clientClaimWindow, providerMinClaimWindow, claimAbortMargin, fundingGrace] at hneed ⊢
  omega

/-- A timeout of twenty-five blocks, with everything else stock, passes the
startup gate and leaves a reverse swap twelve blocks short. -/
theorem validated_but_unusable :
    validateParams { htlcTimeoutBlocks := 25 } = .ok () ∧
      onchainTimeout 800000 { htlcTimeoutBlocks := 25 } = .ok 800025 ∧
      reverseInvoiceCltvDelta { htlcTimeoutBlocks := 25 } = .ok 97 ∧
      checkReverseBeforeFund 800000 800025 (800000 + 97) { htlcTimeoutBlocks := 25 } =
        .error (.claimWindowTooShort 800000 800025 37) ∧
      ¬ Usable { htlcTimeoutBlocks := 25 } 800000 800025 97 := by
  decide

theorem validated_usable_iff_default :
    Usable {} 800000 800144 216 ↔ 1 + clientClaimWindow + max 18 claimAbortMargin ≤ 144 :=
  validated_usable_iff (by decide) (by decide) (by decide) (by decide)

end

/-- **A budget leaves the claim window**: a payment that ends within it ends
early enough to claim before the refund opens. -/
theorem submarineCltvBudget_eq_some {tip timeoutHeight budget : ℕ} {p : TimelockParams}
    (h : submarineCltvBudget tip timeoutHeight p = some budget) :
    tip + budget + p.minClaimWindowBlocks ≤ timeoutHeight := by
  simp only [submarineCltvBudget, Option.bind_eq_bind, Option.bind_eq_some_iff] at h
  obtain ⟨remaining, hremaining, left, hleft, h⟩ := h
  obtain ⟨htip, rfl⟩ := Word.checkedSub_eq_some_iff.mp hremaining
  obtain ⟨hwindow, rfl⟩ := Word.checkedSub_eq_some_iff.mp hleft
  split at h
  · cases h
    omega
  · cases h

end PubkySwap
