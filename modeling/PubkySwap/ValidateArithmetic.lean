import PubkySwap.Validate

/-!
# The unchecked operations of the client's validators

Where a validator writes a plain `+`, `-` or `*`, an overflow is a panic in one build and a
wrapped value in another, and in neither a refusal.  Here the validators are evaluated
with every plain operation stopping the evaluation when it leaves its type; the
operations that saturate, are checked or sit behind a guard are as they were.

Each of them is then the validator of before, wherever it is not stopped.  Only one can be:
an acceptance's timeout is compared with the one the quote implies on both sides, with a
saturating sum on one side and a plain sum on the other
(`checkAcceptTimeoutPlain_eq`).
-/

namespace PubkySwap

/-! ## Plain operations -/

/-- An evaluation that a plain operation stops when it overflows: `none`. -/
abbrev Plain (ε α : Type) : Type := ExceptT ε Option α

namespace Plain

variable {ε ε' α β : Type}

/-- A part without plain operations. -/
def lift (r : Except ε α) : Plain ε α := ExceptT.mk (some r)

/-- Stopped. -/
def overflow : Plain ε α := ExceptT.mk none

/-- A plain sum of `w`-bit words. -/
def add (w a b : ℕ) : Plain ε ℕ := if a + b < 2 ^ w then lift (.ok (a + b)) else overflow

/-- A plain difference. -/
def sub (a b : ℕ) : Plain ε ℕ := if b ≤ a then lift (.ok (a - b)) else overflow

/-- A plain product of `w`-bit words. -/
def mul (w a b : ℕ) : Plain ε ℕ := if a * b < 2 ^ w then lift (.ok (a * b)) else overflow

/-- `map_err`. -/
def mapError (f : ε → ε') (x : Plain ε α) : Plain ε' α :=
  ExceptT.mk (x.run.map (Except.mapError f))

@[simp] theorem lift_bind (r : Except ε α) (f : α → Except ε β) :
    (lift r >>= fun a => lift (f a)) = lift (r >>= f) := by
  cases r with
  | error e => rfl
  | ok a => rfl

@[simp] theorem lift_ok_bind (a : α) (f : α → Plain ε β) : (lift (.ok a) >>= f) = f a := rfl

@[simp] theorem lift_error_bind (e : ε) (f : α → Plain ε β) :
    (lift (.error e : Except ε α) >>= f) = lift (.error e) := rfl

@[simp] theorem overflow_bind (f : α → Plain ε β) : ((overflow : Plain ε α) >>= f) = overflow := rfl

@[simp] theorem mapError_lift (f : ε → ε') (r : Except ε α) :
    mapError f (lift r) = lift (r.mapError f) := rfl

theorem lift_ite {c : Prop} [Decidable c] (a b : Except ε α) :
    lift (if c then a else b) = if c then lift a else lift b := by
  split <;> rfl

theorem lift_ne_overflow (r : Except ε α) : (lift r : Plain ε α) ≠ overflow := nofun

theorem add_of_lt {w a b : ℕ} (h : a + b < 2 ^ w) : (add w a b : Plain ε ℕ) = lift (.ok (a + b)) :=
  if_pos h

theorem add_of_not_lt {w a b : ℕ} (h : ¬a + b < 2 ^ w) : (add w a b : Plain ε ℕ) = overflow :=
  if_neg h

theorem sub_of_le {a b : ℕ} (h : b ≤ a) : (sub a b : Plain ε ℕ) = lift (.ok (a - b)) := if_pos h

theorem mul_of_lt {w a b : ℕ} (h : a * b < 2 ^ w) : (mul w a b : Plain ε ℕ) = lift (.ok (a * b)) :=
  if_pos h

end Plain

/-! ## The validators, operation by operation -/

/-- `check_timeout_ceiling`. -/
def checkTimeoutCeilingPlain (tip timeoutHeight : ℕ) (p : TimelockParams) :
    Plain TimelockViolation Unit :=
  if timeoutHeight ≤ tip then .lift (.error (.timeoutInPast timeoutHeight tip))
  else do
    let ahead ← Plain.sub timeoutHeight tip
    if p.maxTimeoutBlocks < ahead then
      .lift (.error (.timeoutTooFar timeoutHeight tip p.maxTimeoutBlocks))
    else .lift (.ok ())

/-- `check_client_reverse_accept` and `check_client_submarine_accept`. -/
def checkClientAcceptPlain (window margin tip timeoutHeight : ℕ) (p : TimelockParams) :
    Plain TimelockViolation Unit := do
  checkTimeoutCeilingPlain tip timeoutHeight p
  let need ← Plain.lift do addHeights (← addHeights p.requiredConfirmations window) margin
  let remaining ← Plain.sub timeoutHeight tip
  if remaining < need then .lift (.error (.claimWindowTooShort tip timeoutHeight need))
  else .lift (.ok ())

/-- The timelock gate of a direction. -/
def checkClientTimeoutPlain (direction : SwapDirection) (tip timeoutHeight : ℕ)
    (p : TimelockParams) : Plain TimelockViolation Unit :=
  match direction with
  | .reverse => checkClientAcceptPlain clientClaimWindow claimAbortMargin tip timeoutHeight p
  | .submarine => checkClientAcceptPlain providerMinClaimWindow fundingGrace tip timeoutHeight p

/-- The checks of an acceptance that need the tip; the second side of the comparison is
evaluated only if the first has not refused. -/
def checkAcceptTimeoutPlain (accept : SwapAccept) (quote : Quote) (tip : ℕ)
    (policy : ClientPolicy) : Plain ValidationError Unit :=
  let implied := Word.saturatingAdd 32 tip quote.htlcTimeoutBlocks
  let mismatch :=
    ValidationError.timeoutMismatch accept.timeoutBlockHeight implied acceptTimeoutSlackBlocks
  if Word.saturatingAdd 32 implied acceptTimeoutSlackBlocks < accept.timeoutBlockHeight then
    .lift (.error mismatch)
  else do
    let reach ← Plain.add 32 accept.timeoutBlockHeight acceptTimeoutSlackBlocks
    if reach < implied then .lift (.error mismatch)
    else
      (checkClientTimeoutPlain quote.direction tip accept.timeoutBlockHeight
        { policy.timelock with
          requiredConfirmations :=
            policy.effectiveConfirmations quote.requiredConfirmations }).mapError .timelock

/-- `validate_accept`. -/
def validateAcceptPlain (accept : SwapAccept) (quote : Quote) (tip : Option ℕ)
    (policy : ClientPolicy) : Plain ValidationError Unit :=
  if accept.quoteId ≠ quote.quoteId then
    .lift (.error (.offerMismatch (uuidText accept.quoteId) (uuidText quote.quoteId)))
  else if accept.swapId = 0 then .lift (.error .swapIdMissing)
  else if accept.direction ≠ quote.direction then .lift (.error .directionMismatch)
  else if accept.onchainAmountSat ≠ quote.onchainAmountSat then
    .lift (.error (.onchainAmountMismatch accept.onchainAmountSat quote.onchainAmountSat))
  else
    match tip with
    | none => .lift (.ok ())
    | some tip => checkAcceptTimeoutPlain accept quote tip policy

/-- `validate_quote`: the fee ceiling is a plain product of 128-bit words. -/
def validateQuotePlain (quote : Quote) (request : QuoteRequest) (nowUnix : ℕ)
    (policy : ClientPolicy) : Plain ValidationError Unit :=
  if quote.quoteId = 0 then .lift (.error .quoteIdMissing)
  else if !protocolVersionSupported quote.protocolVersion then
    .lift (.error (.unsupportedProtocolVersion quote.protocolVersion protocolVersion))
  else if request.offerId ≠ 0 ∧ quote.offerId ≠ request.offerId then
    .lift (.error (.offerMismatch (uuidText quote.offerId) (uuidText request.offerId)))
  else if quote.direction ≠ request.direction then .lift (.error .directionMismatch)
  else if quote.amountSat ≠ request.amountSat then
    .lift (.error (.amountMismatch quote.amountSat request.amountSat))
  else do
    Plain.lift (checkQuoteTimes quote nowUnix)
    Plain.lift (checkQuoteFee quote)
    let share ← Plain.mul 128 quote.amountSat policy.maxFeeBps
    let maxFee := Word.truncate 64 (share / 10000)
    if maxFee < quote.feeSat then .lift (.error (.feeTooHigh quote.feeSat maxFee))
    else if policy.maxTotalSat < quote.totalSat then
      .lift (.error (.totalTooLarge quote.totalSat policy.maxTotalSat))
    else if quote.requiredConfirmations < policy.minRequiredConfirmations then
      .lift (.error
        (.confirmationsTooLow quote.requiredConfirmations policy.minRequiredConfirmations))
    else if policy.maxRequiredConfirmations < quote.requiredConfirmations then
      .lift (.error
        (.confirmationsTooHigh quote.requiredConfirmations policy.maxRequiredConfirmations))
    else .lift (.ok ())

/-- `validate_hold_invoice` has no plain operation. -/
def validateHoldInvoicePlain (invoice : DecodedHoldInvoice) (quote : Quote)
    (ourPaymentHash : Bytes32) (nowUnix : ℕ) (policy : ClientPolicy) : Plain ValidationError Unit :=
  .lift (validateHoldInvoice invoice quote ourPaymentHash nowUnix policy)

/-! ## Where they are stopped -/

section

variable {accept : SwapAccept} {quote : Quote} {policy : ClientPolicy} {request : QuoteRequest}

theorem checkTimeoutCeilingPlain_eq (tip timeoutHeight : ℕ) (p : TimelockParams) :
    checkTimeoutCeilingPlain tip timeoutHeight p =
      .lift (checkTimeoutCeiling tip timeoutHeight p) := by
  unfold checkTimeoutCeilingPlain checkTimeoutCeiling
  by_cases hpast : timeoutHeight ≤ tip
  · rw [if_pos hpast, if_pos hpast]
  · rw [if_neg hpast, if_neg hpast, Plain.sub_of_le (le_of_not_ge hpast), Plain.lift_ok_bind,
      Plain.lift_ite]

/-- **The timelock gates are never stopped**: their differences are taken behind the check
that the timeout is ahead. -/
theorem checkClientAcceptPlain_eq (window margin tip timeoutHeight : ℕ) (p : TimelockParams) :
    checkClientAcceptPlain window margin tip timeoutHeight p =
      .lift (checkClientAccept window margin tip timeoutHeight p) := by
  unfold checkClientAcceptPlain checkClientAccept
  rw [checkTimeoutCeilingPlain_eq]
  cases hceiling : checkTimeoutCeiling tip timeoutHeight p with
  | error e => rfl
  | ok u =>
      have hahead : tip ≤ timeoutHeight := by
        rw [checkTimeoutCeiling, ite_error_eq_ok] at hceiling
        exact le_of_not_ge hceiling.1
      rw [Plain.lift_ok_bind, Plain.sub_of_le hahead]
      simp only [← Plain.lift_ite, Plain.lift_bind]
      congr 1
      cases addHeights p.requiredConfirmations window with
      | error e => rfl
      | ok sum => rfl

theorem checkClientTimeoutPlain_eq (direction : SwapDirection) (tip timeoutHeight : ℕ)
    (p : TimelockParams) :
    checkClientTimeoutPlain direction tip timeoutHeight p =
      .lift (checkClientTimeout direction tip timeoutHeight p) := by
  cases direction with
  | reverse => exact checkClientAcceptPlain_eq _ _ _ _ _
  | submarine => exact checkClientAcceptPlain_eq _ _ _ _ _

/-- The plain sum of the comparison overflows: the timeout is not later than the quote
allows, and lies within the slack of the largest height. -/
def SumOverflows (accept : SwapAccept) (quote : Quote) (tip : ℕ) : Prop :=
  accept.timeoutBlockHeight ≤ Word.saturatingAdd 32
      (Word.saturatingAdd 32 tip quote.htlcTimeoutBlocks) acceptTimeoutSlackBlocks ∧
    2 ^ 32 ≤ accept.timeoutBlockHeight + acceptTimeoutSlackBlocks

instance (accept : SwapAccept) (quote : Quote) (tip : ℕ) :
    Decidable (SumOverflows accept quote tip) :=
  inferInstanceAs (Decidable (_ ∧ _))

/-- **The one place.** -/
theorem checkAcceptTimeoutPlain_eq (tip : ℕ) :
    checkAcceptTimeoutPlain accept quote tip policy =
      if SumOverflows accept quote tip then .overflow
      else .lift (checkAcceptTimeout accept quote tip policy) := by
  unfold checkAcceptTimeoutPlain checkAcceptTimeout
  by_cases hlate : Word.saturatingAdd 32 (Word.saturatingAdd 32 tip quote.htlcTimeoutBlocks)
      acceptTimeoutSlackBlocks < accept.timeoutBlockHeight
  · have hnot : ¬SumOverflows accept quote tip := fun h => absurd hlate (not_lt.mpr h.1)
    rw [if_neg hnot]
    simp only [hlate, if_true, true_or]
  · by_cases hsum : accept.timeoutBlockHeight + acceptTimeoutSlackBlocks < 2 ^ 32
    · have hnot : ¬SumOverflows accept quote tip := fun h => absurd hsum (not_lt.mpr h.2)
      rw [if_neg hnot]
      simp only [hlate, if_false, false_or]
      rw [Plain.add_of_lt hsum, Plain.lift_ok_bind, checkClientTimeoutPlain_eq,
        Plain.mapError_lift, ← Plain.lift_ite, Word.truncate, Nat.mod_eq_of_lt hsum]
    · have hover : SumOverflows accept quote tip := ⟨not_lt.mp hlate, not_lt.mp hsum⟩
      rw [if_pos hover]
      simp only [hlate, if_false]
      rw [Plain.add_of_not_lt hsum, Plain.overflow_bind]

/-- An acceptance that answers its quote reaches the comparison. -/
structure Reaches (accept : SwapAccept) (quote : Quote) : Prop where
  quoteId : accept.quoteId = quote.quoteId
  swapId : accept.swapId ≠ 0
  direction : accept.direction = quote.direction
  amount : accept.onchainAmountSat = quote.onchainAmountSat

theorem validateAcceptPlain_eq_overflow (tip : Option ℕ) :
    validateAcceptPlain accept quote tip policy = .overflow ↔
      Reaches accept quote ∧ ∃ t, tip = some t ∧ SumOverflows accept quote t := by
  unfold validateAcceptPlain
  by_cases hquote : accept.quoteId = quote.quoteId
  · by_cases hswap : accept.swapId = 0
    · rw [if_neg (not_not.mpr hquote), if_pos hswap]
      exact iff_of_false (Plain.lift_ne_overflow _) fun h => h.1.swapId hswap
    · by_cases hdirection : accept.direction = quote.direction
      · by_cases hamount : accept.onchainAmountSat = quote.onchainAmountSat
        · rw [if_neg (not_not.mpr hquote), if_neg hswap, if_neg (not_not.mpr hdirection),
            if_neg (not_not.mpr hamount)]
          have hreaches : Reaches accept quote := ⟨hquote, hswap, hdirection, hamount⟩
          cases tip with
          | none =>
              refine iff_of_false (Plain.lift_ne_overflow _) ?_
              rintro ⟨-, t, ht, -⟩
              cases ht
          | some tip =>
              simp only [checkAcceptTimeoutPlain_eq, Option.some.injEq, exists_eq_left', hreaches,
                true_and]
              split
              · exact iff_of_true rfl ‹_›
              · exact iff_of_false (Plain.lift_ne_overflow _) ‹_›
        · rw [if_neg (not_not.mpr hquote), if_neg hswap, if_neg (not_not.mpr hdirection),
            if_pos hamount]
          exact iff_of_false (Plain.lift_ne_overflow _) fun h => hamount h.1.amount
      · rw [if_neg (not_not.mpr hquote), if_neg hswap, if_pos hdirection]
        exact iff_of_false (Plain.lift_ne_overflow _) fun h => hdirection h.1.direction
  · rw [if_pos hquote]
    exact iff_of_false (Plain.lift_ne_overflow _) fun h => hquote h.1.quoteId

/-- Where it is not stopped, it is the validator. -/
theorem validateAcceptPlain_eq {tip : Option ℕ}
    (h : validateAcceptPlain accept quote tip policy ≠ .overflow) :
    validateAcceptPlain accept quote tip policy =
      .lift (validateAccept accept quote tip policy) := by
  unfold validateAcceptPlain at h ⊢
  unfold validateAccept
  simp only [Plain.lift_ite]
  split
  · rfl
  · split
    · rfl
    · split
      · rfl
      · split
        · rfl
        · simp only [*, if_false] at h
          cases tip with
          | none => rfl
          | some tip =>
              simp only [checkAcceptTimeoutPlain_eq] at h ⊢
              split
              · rw [if_pos ‹_›] at h
                exact absurd rfl h
              · rfl

/-- **A quote's fee ceiling fits its word**: a 64-bit amount by a 16-bit rate. -/
theorem validateQuotePlain_eq (hamount : quote.amountSat < 2 ^ 64)
    (hbps : policy.maxFeeBps < 2 ^ 16)
    (nowUnix : ℕ) : validateQuotePlain quote request nowUnix policy =
      .lift (validateQuote quote request nowUnix policy) := by
  have hfits : quote.amountSat * policy.maxFeeBps < 2 ^ 128 := by
    calc quote.amountSat * policy.maxFeeBps ≤ 2 ^ 64 * 2 ^ 16 := by gcongr
      _ < 2 ^ 128 := by decide
  unfold validateQuotePlain validateQuote
  rw [Plain.mul_of_lt hfits]
  simp only [← Plain.lift_ite, Plain.lift_bind]
  rfl

/-! ## The verdict -/

/-- No plain operation of the three validators overflows. -/
structure Unstopped (quote : Quote) (request : QuoteRequest) (accept : SwapAccept)
    (invoice : DecodedHoldInvoice) (hash : Bytes32) (tip : Option ℕ) (nowUnix : ℕ)
    (policy : ClientPolicy) : Prop where
  onQuote : validateQuotePlain quote request nowUnix policy ≠ .overflow
  onAccept : validateAcceptPlain accept quote tip policy ≠ .overflow
  onInvoice : validateHoldInvoicePlain invoice quote hash nowUnix policy ≠ .overflow

/-- **When no plain operation overflows**: unless an acceptance that answers its quote, with
the tip known, sets a timeout that is not later than the quote allows and within six blocks
of the largest height. -/
theorem unstopped_iff (request : QuoteRequest) (invoice : DecodedHoldInvoice) (hash : Bytes32)
    (tip : Option ℕ) (nowUnix : ℕ) (hamount : quote.amountSat < 2 ^ 64)
    (hbps : policy.maxFeeBps < 2 ^ 16) :
    Unstopped quote request accept invoice hash tip nowUnix policy ↔
      ¬(Reaches accept quote ∧ ∃ t, tip = some t ∧ SumOverflows accept quote t) := by
  constructor
  · intro h hstopped
    exact h.onAccept ((validateAcceptPlain_eq_overflow tip).mpr hstopped)
  · intro h
    refine ⟨?_, ?_, Plain.lift_ne_overflow _⟩
    · rw [validateQuotePlain_eq hamount hbps]
      exact Plain.lift_ne_overflow _
    · intro hstopped
      exact h ((validateAcceptPlain_eq_overflow tip).mp hstopped)

end

namespace Negotiated

/-- A timeout at the largest height. -/
def lastAccept : SwapAccept := { farAccept with timeoutBlockHeight := 4294967295 }

/-- **A provider can stop the client's check**: `validate_quote` passes a quote whose timeout
is as many blocks away as its field can say, and the acceptance that keeps to it makes the
plain sum overflow. -/
theorem stopped_by_accept :
    validateQuote farQuote { request with direction := .submarine } 1700000000 policy = .ok () ∧
      ¬Unstopped farQuote { request with direction := .submarine } lastAccept invoice
        invoice.paymentHash (some 800000) 1700000000 policy := by
  refine ⟨by decide +kernel, fun h => h.onAccept ?_⟩
  have hreaches : Reaches lastAccept farQuote := ⟨rfl, by decide, rfl, rfl⟩
  exact (validateAcceptPlain_eq_overflow _).mpr ⟨hreaches, 800000, rfl, by decide +kernel⟩

theorem unstopped_accept :
    Unstopped quote request accept invoice invoice.paymentHash (some 800000) 1700000000 policy :=
  (unstopped_iff request invoice invoice.paymentHash (some 800000) 1700000000 (by decide)
    (by decide)).mpr <| by
    rintro ⟨-, t, ht, hover⟩
    cases ht
    exact absurd hover (by decide +kernel)

end Negotiated

end PubkySwap
