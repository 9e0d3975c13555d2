import PubkySwap.Lib.Hex
import PubkySwap.Lib.Word
import PubkySwap.Swap

/-!
# Wire messages

What client and provider send each other while they negotiate a swap and while
they recover one.  The fields are the ones of the wire, in their order there; a
public key, a hash or a script travels as the text of its bytes.
-/

namespace PubkySwap

/-! ## Texts -/

/-- The hexadecimal digits of a number, at least `width` of them. -/
def hexDigits : ℕ → ℕ → List Char
  | 0, n => if n = 0 then [] else Nat.toDigits 16 n
  | width + 1, n => hexDigits width (n / 16) ++ [Nat.digitChar (n % 16)]

/-- The number hexadecimal digits stand for. -/
def hexNumber (digits : List Char) : ℕ :=
  digits.foldl (fun n c => 16 * n + (Hex.digitOf c).getD 0) 0

theorem hexNumber_append_digit (digits : List Char) {d : ℕ} (h : d < 16) :
    hexNumber (digits ++ [Nat.digitChar d]) = 16 * hexNumber digits + d := by
  rw [hexNumber, List.foldl_append]
  show 16 * hexNumber digits + (Hex.digitOf (Nat.digitChar d)).getD 0 = _
  rw [Hex.digitOf_digitChar h, Option.getD_some]

theorem hexNumber_toDigits (n : ℕ) : hexNumber (Nat.toDigits 16 n) = n := by
  induction n using Nat.strong_induction_on with
  | _ n ih =>
      rw [Nat.toDigits_eq_if (by decide)]
      split
      · calc hexNumber [Nat.digitChar n] = 16 * 0 + n := hexNumber_append_digit [] ‹n < 16›
          _ = n := by omega
      · rw [hexNumber_append_digit _ (by omega), ih (n / 16) (by omega)]
        omega

theorem hexNumber_hexDigits (width n : ℕ) : hexNumber (hexDigits width n) = n := by
  induction width generalizing n with
  | zero =>
      rw [hexDigits]
      split
      · rw [‹n = 0›]
        rfl
      · exact hexNumber_toDigits n
  | succ width ih =>
      rw [hexDigits, hexNumber_append_digit _ (by omega), ih]
      omega

/-- The hyphenated text of an identifier. -/
def uuidText (id : Uuid) : String :=
  let digits := hexDigits 32 id
  let start := digits.length - 24
  String.ofList (digits.take start ++ '-' :: ((digits.drop start).take 4 ++
    '-' :: ((digits.drop (start + 4)).take 4 ++ '-' :: ((digits.drop (start + 8)).take 4 ++
    '-' :: digits.drop (start + 12)))))

theorem length_hexDigits (width n : ℕ) : width ≤ (hexDigits width n).length := by
  induction width generalizing n with
  | zero => exact Nat.zero_le _
  | succ width ih =>
      rw [hexDigits, List.length_append]
      exact Nat.succ_le_succ (ih _)

/-- What a separator joined is taken apart again. -/
theorem append_cons_inj_of_length {α : Type} {a b s t : List α} {c : α}
    (hlength : a.length = b.length) (h : a ++ c :: s = b ++ c :: t) : a = b ∧ s = t := by
  obtain ⟨rfl, htail⟩ := List.append_inj h hlength
  exact ⟨rfl, (List.cons.inj htail).2⟩

theorem uuidText_injective : Function.Injective uuidText := by
  intro m n h
  have hm := length_hexDigits 32 m
  have hn := length_hexDigits 32 n
  simp only [uuidText, String.ofList_inj] at h
  have hlength : (hexDigits 32 m).length = (hexDigits 32 n).length := by
    have hall := congrArg List.length h
    simp only [List.length_append, List.length_cons, List.length_take, List.length_drop] at hall
    omega
  rw [hlength] at h
  obtain ⟨h₁, h⟩ := append_cons_inj_of_length (by simp [hlength]) h
  obtain ⟨h₂, h⟩ := append_cons_inj_of_length (by simp [hlength]) h
  obtain ⟨h₃, h⟩ := append_cons_inj_of_length (by simp [hlength]) h
  obtain ⟨h₄, h₅⟩ := append_cons_inj_of_length (by simp [hlength]) h
  -- the pieces put together are the digits again
  have hjoin (digits : List Char) (start : ℕ) : digits = digits.take start ++
      ((digits.drop start).take 4 ++ ((digits.drop (start + 4)).take 4 ++
        ((digits.drop (start + 8)).take 4 ++ digits.drop (start + 12)))) := by
    conv_lhs => rw [← List.take_append_drop start digits,
      ← List.take_append_drop 4 (digits.drop start), List.drop_drop,
      ← List.take_append_drop 4 (digits.drop (start + 4)), List.drop_drop,
      ← List.take_append_drop 4 (digits.drop (start + 4 + 4)), List.drop_drop]
  have hdigits : hexDigits 32 m = hexDigits 32 n := by
    rw [hjoin (hexDigits 32 m) ((hexDigits 32 n).length - 24), h₁, h₂, h₃, h₄, h₅, ← hjoin]
  rw [← hexNumber_hexDigits 32 m, hdigits, hexNumber_hexDigits]

/-- `as_str`, which is also what serde writes. -/
def SwapDirection.asStr : SwapDirection → String
  | submarine => "submarine"
  | reverse => "reverse"

/-- The networks the protocol can name. -/
inductive NetworkSpec where
  | bitcoin
  | testnet
  | signet
  | regtest
  deriving DecidableEq, Repr

/-- What `{:?}` writes. -/
def NetworkSpec.debug : NetworkSpec → String
  | bitcoin => "Bitcoin"
  | testnet => "Testnet"
  | signet => "Signet"
  | regtest => "Regtest"

/-- On-chain contract selected by the client. -/
inductive SwapScript where
  | p2wsh
  | taprootBoltz
  deriving DecidableEq, Repr

/-- What serde writes. -/
def SwapScript.asStr : SwapScript → String
  | p2wsh => "p2wsh"
  | taprootBoltz => "taproot_boltz"

/-- `PROTOCOL_VERSION`. -/
def protocolVersion : ℕ := 1

/-- `MIN_SUPPORTED_PROTOCOL_VERSION`. -/
def minSupportedProtocolVersion : ℕ := 0

/-- `protocol_version_supported`. -/
def protocolVersionSupported (version : ℕ) : Bool :=
  decide (minSupportedProtocolVersion ≤ version ∧ version ≤ protocolVersion)

/-! ## Offers -/

/-- `SwapOffer`, as far as a quote is priced and checked by it. -/
structure SwapOffer where
  requestId : Option Uuid := none
  offerId : Uuid
  directions : List SwapDirection
  minAmountSat : ℕ
  maxAmountSat : ℕ
  baseFeeSat : ℕ
  feePpm : ℕ
  requiredConfirmations : ℕ
  htlcTimeoutBlocks : ℕ
  fundWithinSecs : ℕ := 0
  onchainFeeSat : ℕ := 0
  feeRateSatVb : ℕ := 0
  deriving DecidableEq, Repr

/-! ## Negotiation -/

structure QuoteRequest where
  requestId : Option Uuid := none
  /-- Nil asks for whatever offer is current. -/
  offerId : Uuid
  clientPkarr : String
  direction : SwapDirection
  amountSat : ℕ
  protocolVersion : ℕ := 0
  features : List String := []
  deriving DecidableEq, Repr

@[ext] structure Quote where
  requestId : Option Uuid := none
  quoteId : Uuid
  offerId : Uuid
  direction : SwapDirection
  amountSat : ℕ
  /-- The whole fee: service plus the provider's expected on-chain cost. -/
  feeSat : ℕ
  serviceFeeSat : ℕ := 0
  onchainFeeSat : ℕ := 0
  feeRateSatVb : ℕ := 0
  totalSat : ℕ
  htlcTimeoutBlocks : ℕ
  requiredConfirmations : ℕ
  validUntilUnix : ℕ
  fundWithinSecs : ℕ := 0
  protocolVersion : ℕ := 0
  deriving DecidableEq, Repr

/-- `is_expired`; an expiry of 0 means none. -/
def Quote.isExpired (quote : Quote) (nowUnix : ℕ) : Bool :=
  decide (quote.validUntilUnix ≠ 0 ∧ quote.validUntilUnix ≤ nowUnix)

structure SwapRequest where
  scriptType : SwapScript := .p2wsh
  quoteId : Uuid
  clientPkarr : String
  direction : SwapDirection
  paymentHashHex : String
  clientClaimPubkeyHex : Option String := none
  clientRefundPubkeyHex : Option String := none
  /-- Submarine only: the invoice the provider must pay. -/
  invoice : Option String := none
  ownerRef : Option String := none
  deriving DecidableEq, Repr

@[ext] structure BoltzTapLeaf where
  version : ℕ
  output : String
  deriving DecidableEq, Repr

@[ext] structure BoltzSwapTree where
  claimLeaf : BoltzTapLeaf
  refundLeaf : BoltzTapLeaf
  deriving DecidableEq, Repr

@[ext] structure SwapAccept where
  scriptType : SwapScript := .p2wsh
  swapTree : Option BoltzSwapTree := none
  quoteId : Uuid
  swapId : Uuid
  direction : SwapDirection
  htlcScriptHex : String := ""
  htlcAddress : String := ""
  /-- Exact amount to lock on-chain. -/
  onchainAmountSat : ℕ
  timeoutBlockHeight : ℕ
  providerPubkeyHex : String
  /-- Reverse only: the hold invoice the client must pay. -/
  invoice : Option String := none
  deriving DecidableEq, Repr

/-! ## Recovery -/

/-- Exactly one of `swapId` and `quoteId` must be present. -/
structure SwapStatusRequest where
  requestId : Option Uuid := none
  swapId : Option Uuid
  quoteId : Option Uuid
  deriving DecidableEq, Repr

/-- Public recovery information. -/
structure SwapStatusSnapshot where
  requestId : Option Uuid := none
  accept : SwapAccept
  network : NetworkSpec
  state : SwapState
  fundingTxidHex : Option String := none
  fundingVout : Option ℕ := none
  spendTxidHex : Option String := none
  claimObservedTxidHex : Option String := none
  requiredConfirmations : ℕ
  updatedAtUnix : ℕ
  observedAtUnix : ℕ
  createdAtUnix : ℕ := 0
  paymentHashHex : String := ""
  ownerRef : Option String := none
  claimable : Bool := false
  deriving DecidableEq, Repr

/-- Ask for one's own swaps, newest first. -/
structure SwapListRequest where
  requestId : Option Uuid := none
  /-- The `nextCursor` of the page before. -/
  cursor : Option String := none
  limit : Option ℕ := none
  activeOnly : Bool := false
  deriving DecidableEq, Repr

/-- One page of the sender's own swaps. -/
structure SwapList where
  requestId : Option Uuid := none
  snapshots : List SwapStatusSnapshot := []
  nextCursor : Option String := none
  deriving DecidableEq, Repr

/-- A wake gateway grant for one swap. -/
structure WakeCapability where
  v : ℕ
  gateway : String
  topics : List String
  token : String
  expiresAt : ℕ
  deriving DecidableEq, Repr

/-- The owner's grant, for when the swap becomes claimable. -/
structure SwapWakeCapability where
  requestId : Option Uuid := none
  swapId : Uuid
  capability : WakeCapability
  deriving DecidableEq, Repr

/-! ## Refusals -/

structure Reject where
  code : Option String := none
  requestId : Option Uuid := none
  swapId : Option Uuid
  quoteId : Option Uuid
  reason : String
  deriving DecidableEq, Repr

/-- `RejectCode`. -/
inductive RejectCode where
  | notFound
  | pending
  | accessDenied
  | unsupportedRoute
  | amountBelowMinimum
  | amountAboveMaximum
  | liquidityUnavailable
  | rateLimited
  | pricingUnavailable
  | quoteExpired
  | invalidDestination
  | invalidRequest
  | unsupportedProtocol
  | offerStale
  | internalError
  deriving DecidableEq, Repr

/-! ## One message -/

/-- `SwapMessage`.  Of a final status and of a cooperative signature, which nothing here
reads, only the kind is kept. -/
inductive SwapMessage where
  | offer (offer : SwapOffer)
  | offerRequest (requestId : Option Uuid)
  | quoteRequest (request : QuoteRequest)
  | quote (quote : Quote)
  | swapRequest (request : SwapRequest)
  | swapAccept (accept : SwapAccept)
  | swapStatusUpdate
  | swapStatusRequest (request : SwapStatusRequest)
  | swapStatusSnapshot (snapshot : SwapStatusSnapshot)
  | swapListRequest (request : SwapListRequest)
  | swapList (list : SwapList)
  | swapWakeCapability (offer : SwapWakeCapability)
  | coopSignature
  | reject (reject : Reject)
  deriving DecidableEq, Repr

end PubkySwap
