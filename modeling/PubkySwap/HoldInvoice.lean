import PubkySwap.Environment
import PubkySwap.Validate

/-!
# The lifetime of a hold invoice

A reverse swap's provider chooses how long its invoice lives, and the client refuses one
that expires before it could see the funding confirm and still have its claim window.  The
provider does not know the client's floor and prices the invoice at the highest number of
confirmations that is allowed, counted from the moment it issues the invoice; the client
counts from the moment it checks.

The two lifetimes are the same at that highest number, so a client that waits for all of
these confirmations and checks a second later refuses (`refused_a_second_later`).
-/

namespace PubkySwap

/-- `SECONDS_PER_BLOCK`. -/
def secondsPerBlock : ℕ := 600

/-- `reverse_invoice_min_expiry_secs`. -/
def reverseInvoiceMinExpirySecs (requiredConfirmations : ℕ) : ℕ :=
  let confirmations := max requiredConfirmations maxRequiredConfirmations
  Word.saturatingMul 64 (Word.saturatingAdd 32 confirmations clientClaimWindow) secondsPerBlock

/-- `HoldInvoiceRequest`. -/
structure HoldInvoiceRequest where
  paymentHash : PaymentHash
  amountMsat : ℕ
  expirySecs : ℕ
  cltvExpiryDelta : ℕ
  memo : String
  deriving DecidableEq

/-- `reverse_invoice_request`: price and time a hold invoice. -/
def reverseInvoiceRequest (paymentHash : PaymentHash)
    (onchainAmountSat providerFeeSat invoiceExpirySecs : ℕ) (timelock : TimelockParams) :
    Except DriverError HoldInvoiceRequest :=
  let amount := (Word.checkedAdd 64 onchainAmountSat providerFeeSat).bind fun sat =>
    Word.checkedMul 64 sat 1000
  match amount with
  | none =>
      .error (.message
        s!"invoice amount overflows: {onchainAmountSat} + {providerFeeSat} sat")
  | some invoiceAmountMsat => do
      let cltvExpiryDelta ← (reverseInvoiceCltvDelta timelock).mapError fun e =>
        .message ("hold invoice CLTV delta: " ++ e.display)
      .ok
        { paymentHash := paymentHash
          amountMsat := invoiceAmountMsat
          expirySecs := max invoiceExpirySecs
            (reverseInvoiceMinExpirySecs timelock.requiredConfirmations)
          cltvExpiryDelta := cltvExpiryDelta
          memo := "pubky-swap reverse" }

/-- The invoice that a node issues for a request, as it is decoded. -/
def HoldInvoiceRequest.issuedAt (request : HoldInvoiceRequest) (issuedUnix : ℕ) :
    DecodedHoldInvoice where
  paymentHash := request.paymentHash
  amountMsat := request.amountMsat
  amountIsExplicit := true
  expiresAtUnix := Word.saturatingAdd 64 issuedUnix request.expirySecs

section

variable {paymentHash : PaymentHash} {expirySecs issuedUnix : ℕ} {timelock : TimelockParams}
  {request : HoldInvoiceRequest} {quote : Quote} {policy : ClientPolicy}

/-- What a request asks for. -/
theorem reverseInvoiceRequest_eq_ok {amountSat feeSat : ℕ}
    (h : reverseInvoiceRequest paymentHash amountSat feeSat expirySecs timelock = .ok request) :
    request.paymentHash = paymentHash ∧ request.amountMsat = (amountSat + feeSat) * 1000 ∧
      (amountSat + feeSat) * 1000 < 2 ^ 64 ∧
      request.expirySecs =
        max expirySecs (reverseInvoiceMinExpirySecs timelock.requiredConfirmations) := by
  unfold reverseInvoiceRequest at h
  dsimp only at h
  split at h
  · cases h
  · rename_i amount hamount
    obtain ⟨total, htotal, hproduct⟩ := Option.bind_eq_some_iff.mp hamount
    obtain ⟨-, rfl⟩ := Word.checkedAdd_eq_some_iff.mp htotal
    obtain ⟨delta, -, h⟩ := bind_eq_ok h
    cases h
    unfold Word.checkedMul at hproduct
    split at hproduct
    · next hfits =>
        cases hproduct
        exact ⟨rfl, rfl, hfits, rfl⟩
    · cases hproduct

/-- **When the client accepts** an invoice with its payment hash and the amount of its quote:
if it lives for the confirmations and the claim window from now on. -/
theorem validateHoldInvoice_eq_ok_iff {invoice : DecodedHoldInvoice} {nowUnix : ℕ}
    (hamount : invoice.amountMsat = quote.totalSat * 1000)
    (hexplicit : invoice.amountIsExplicit = true) (hfits : quote.totalSat * 1000 < 2 ^ 64)
    (hexpires : invoice.expiresAtUnix ≠ 0)
    (hconfirmations : policy.effectiveConfirmations quote.requiredConfirmations ≤
      maxRequiredConfirmations) :
    validateHoldInvoice invoice quote invoice.paymentHash nowUnix policy = .ok () ↔
      Word.saturatingAdd 64 nowUnix
        ((policy.effectiveConfirmations quote.requiredConfirmations + clientClaimWindow) *
          secondsPerBlock) ≤ invoice.expiresAtUnix := by
  have hblocks : Word.saturatingMul 64
      (policy.effectiveConfirmations quote.requiredConfirmations + clientClaimWindow) 600 =
        (policy.effectiveConfirmations quote.requiredConfirmations + clientClaimWindow) *
          secondsPerBlock := by
    refine min_eq_left (le_trans (Nat.mul_le_mul_right 600
      (Nat.add_le_add_right hconfirmations clientClaimWindow)) ?_)
    decide
  have hrange : policy.effectiveConfirmations quote.requiredConfirmations + clientClaimWindow <
      2 ^ 64 :=
    lt_of_le_of_lt (Nat.add_le_add_right hconfirmations clientClaimWindow) (by decide)
  simp only [validateHoldInvoice, ite_error_eq_ok, orOverflow_checkedMul_bind_eq_ok,
    orOverflow_checkedAdd_bind_eq_ok, hblocks, hamount, hexplicit, not_true_eq_false, not_and,
    not_lt, ne_eq, not_false_eq_true, true_and, and_true, Bool.not_true, Bool.false_eq_true]
  exact ⟨fun h => h.2.2 hexpires, fun h => ⟨hfits, hrange, fun _ => h⟩⟩

/-- The shortest expiry of a request, which the width of a word does not clamp. -/
theorem reverseInvoiceMinExpirySecs_eq (requiredConfirmations : ℕ) :
    reverseInvoiceMinExpirySecs requiredConfirmations =
      min (max requiredConfirmations 12 + 18) (Word.maxValue 32) * 600 := by
  refine min_eq_left (le_trans (Nat.mul_le_mul_right 600 (min_le_right _ _)) ?_)
  decide

/-- The shortest expiry of all: the highest number of confirmations, and a claim window. -/
theorem le_reverseInvoiceMinExpirySecs (requiredConfirmations : ℕ) :
    18000 ≤ reverseInvoiceMinExpirySecs requiredConfirmations := by
  have hblocks : 30 ≤ min (max requiredConfirmations 12 + 18) (Word.maxValue 32) :=
    le_min (Nat.add_le_add_right (le_max_right _ 12) 18) (by decide)
  rw [reverseInvoiceMinExpirySecs_eq]
  exact Nat.mul_le_mul_right 600 hblocks

/-- It is that one up to this number of confirmations. -/
theorem reverseInvoiceMinExpirySecs_of_le {requiredConfirmations : ℕ}
    (h : requiredConfirmations ≤ maxRequiredConfirmations) :
    reverseInvoiceMinExpirySecs requiredConfirmations = 18000 := by
  have hmax : max requiredConfirmations 12 = 12 := max_eq_right h
  rw [reverseInvoiceMinExpirySecs_eq, hmax]
  rfl

/-- Two clamped sums compare as the sums do, as long as the larger one is not clamped. -/
theorem saturatingAdd_le_saturatingAdd_iff {w a b c d : ℕ} :
    Word.saturatingAdd w a b ≤ Word.saturatingAdd w c d ↔
      a + b ≤ c + d ∨ Word.maxValue w ≤ c + d := by
  unfold Word.saturatingAdd
  omega

/-- The need of the client at the last of the clocks is met exactly if it does not wait for
all the confirmations there may be, or the invoice lives a block longer than it has to. -/
theorem lives_long_enough_iff {confirmations required : ℕ} (h : confirmations ≤ 12) :
    (confirmations + 18) * 600 + 600 ≤ max expirySecs (reverseInvoiceMinExpirySecs required) ↔
      confirmations < 12 ∨ 18600 ≤ expirySecs ∨ 12 < required := by
  have hmax : 31 < Word.maxValue 32 := by decide
  rw [reverseInvoiceMinExpirySecs_eq]
  omega

/-- **Which invoices a client accepts for a block's time.**  An invoice issued as the
provider prices it passes the client's check at every clock up to one block later if and
only if the client waits for fewer confirmations than the highest number, or the expiry has
been configured a block longer than needed, or the provider itself waits for more (or the
expiry is the last second there is). -/
theorem accepted_for_a_block_iff
    (hrequest : reverseInvoiceRequest paymentHash quote.amountSat quote.feeSat expirySecs timelock =
      .ok request) (htotal : quote.totalSat = quote.amountSat + quote.feeSat)
    (hconfirmations : policy.effectiveConfirmations quote.requiredConfirmations ≤
      maxRequiredConfirmations) :
    (∀ nowUnix, issuedUnix ≤ nowUnix → nowUnix ≤ issuedUnix + 600 →
      validateHoldInvoice (request.issuedAt issuedUnix) quote paymentHash nowUnix policy = .ok ()) ↔
      policy.effectiveConfirmations quote.requiredConfirmations < maxRequiredConfirmations ∨
        18600 ≤ expirySecs ∨ maxRequiredConfirmations < timelock.requiredConfirmations ∨
          Word.maxValue 64 ≤ issuedUnix + max expirySecs 18000 := by
  obtain ⟨rfl, hamount, hfits, hexpiry⟩ := reverseInvoiceRequest_eq_ok hrequest
  have hfloor : 18000 ≤ request.expirySecs :=
    hexpiry ▸ le_max_of_le_right (le_reverseInvoiceMinExpirySecs _)
  have hexpires : (request.issuedAt issuedUnix).expiresAtUnix ≠ 0 := by
    have hmax : 0 < Word.maxValue 64 := by decide
    show min (issuedUnix + request.expirySecs) (Word.maxValue 64) ≠ 0
    omega
  have haccepts (nowUnix : ℕ) : validateHoldInvoice (request.issuedAt issuedUnix) quote
      request.paymentHash nowUnix policy = .ok () ↔ _ :=
    validateHoldInvoice_eq_ok_iff (hamount.trans (by rw [htotal])) rfl (htotal ▸ hfits) hexpires
      hconfirmations
  have hlives : _ ≤ max expirySecs (reverseInvoiceMinExpirySecs timelock.requiredConfirmations) ↔
      _ := lives_long_enough_iff hconfirmations
  rw [← hexpiry] at hlives
  constructor
  · intro h
    -- the last of the instants is the hardest
    have hlast := (haccepts (issuedUnix + 600)).mp (h _ (Nat.le_add_right _ _) le_rfl)
    rcases saturatingAdd_le_saturatingAdd_iff.mp hlast with hlast | hclamped
    · rcases hlives.mp (by unfold secondsPerBlock clientClaimWindow at hlast; omega) with h | h | h
      · exact .inl h
      · exact .inr (.inl h)
      · exact .inr (.inr (.inl h))
    -- both sums are clamped, in which case they compare as equal
    · rcases Nat.lt_or_ge maxRequiredConfirmations timelock.requiredConfirmations with hmore | hle
      · exact .inr (.inr (.inl hmore))
      · rw [hexpiry, reverseInvoiceMinExpirySecs_of_le hle] at hclamped
        exact .inr (.inr (.inr hclamped))
  · intro h nowUnix hfrom hto
    refine (haccepts nowUnix).mpr (saturatingAdd_le_saturatingAdd_iff.mpr ?_)
    have hneed : policy.effectiveConfirmations quote.requiredConfirmations < 12 ∨
        18600 ≤ expirySecs ∨ 12 < timelock.requiredConfirmations →
        nowUnix + (policy.effectiveConfirmations quote.requiredConfirmations + clientClaimWindow) *
          secondsPerBlock ≤ issuedUnix + request.expirySecs := by
      intro h
      have hlong := hlives.mpr h
      unfold secondsPerBlock clientClaimWindow
      omega
    rcases h with h | h | h | hclamped
    · exact .inl (hneed (.inl h))
    · exact .inl (hneed (.inr (.inl h)))
    · exact .inl (hneed (.inr (.inr h)))
    · refine .inr (hclamped.trans (Nat.add_le_add_left ?_ _))
      rw [hexpiry]
      exact max_le_max_left _ (le_reverseInvoiceMinExpirySecs _)

end

/-! ## The strictest client -/

namespace StrictestClient

def hash : PaymentHash := Bytes32.ofNat 81

/-- A quote of 100000 sat for a number of confirmations. -/
def quote (confirmations : ℕ) : Quote where
  quoteId := 2
  offerId := 1
  direction := .reverse
  amountSat := 100000
  feeSat := 500
  totalSat := 100500
  htlcTimeoutBlocks := 144
  requiredConfirmations := confirmations
  validUntilUnix := 0

def policy : ClientPolicy := .forNetwork .bitcoin {}

/-- What the provider asks its node for, with an expiry of an hour configured. -/
def request : HoldInvoiceRequest := ⟨hash, 100500000, 18000, 216, "pubky-swap reverse"⟩

/-- **A second later it is too late**: at the highest number of confirmations the client
accepts the invoice at the very second it is issued and refuses it at the next. -/
theorem refused_a_second_later :
    reverseInvoiceRequest hash 100000 500 3600 {} = .ok request ∧
      (quote 12).totalSat = (quote 12).amountSat + (quote 12).feeSat ∧
      policy.effectiveConfirmations (quote 12).requiredConfirmations ≤ maxRequiredConfirmations ∧
      validateHoldInvoice (request.issuedAt 1700000000) (quote 12) hash 1700000000 policy = .ok () ∧
      validateHoldInvoice (request.issuedAt 1700000000) (quote 12) hash 1700000001 policy =
        .error (.invoiceExpiresTooSoon 1700018000 1700018001) := by
  refine ⟨?_, ?_, ?_, ?_, ?_⟩
  · rfl
  · rfl
  · decide
  · decide +kernel
  · decide +kernel

/-- The general statement at a client that waits for two confirmations, ten minutes later. -/
theorem accepted_at_two :
    validateHoldInvoice (request.issuedAt 1700000000) (quote 2) hash 1700000600 policy =
      .ok () := by
  have hrequest : reverseInvoiceRequest hash (quote 2).amountSat (quote 2).feeSat 3600 {} =
      .ok request := rfl
  exact (accepted_for_a_block_iff hrequest rfl (by decide)).mpr (.inl (by decide)) 1700000600
    (by decide) (by decide)

end StrictestClient

end PubkySwap
