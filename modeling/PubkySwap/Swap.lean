import Mathlib

/-!
# Core swap vocabulary

The direction of a swap, the states it moves through, the errors its
subsystems return, and the identifiers and clocks everything else is indexed
by.  Times on the monotonic clock are natural numbers of nanoseconds.
-/

namespace PubkySwap

/-- A swap, quote or offer identifier. -/
abbrev Uuid := ℕ

/-- A reading of the monotonic clock, in nanoseconds. -/
abbrev Instant := ℕ

/-- `Duration::from_secs`, in nanoseconds. -/
def durationFromSecs (secs : ℕ) : ℕ := secs * 1000000000

/-- Direction of a swap, from the client's point of view. -/
inductive SwapDirection where
  /-- On-chain to Lightning: the client locks coins, the provider pays an
  invoice and claims them. -/
  | submarine
  /-- Lightning to on-chain: the client pays a hold invoice, the provider locks
  coins and the client claims them. -/
  | reverse
  deriving DecidableEq, Repr

/-- Which side of a swap a record belongs to. -/
inductive SwapRole where
  | provider
  | client
  deriving DecidableEq, Repr

/-- Lifecycle state of a single swap. -/
inductive SwapState where
  | created
  | lockupPending
  | lockupConfirmed
  | invoicePending
  | invoicePaid
  | claimPending
  | claimed
  | refunded
  | expired
  | failed (reason : String)
  deriving DecidableEq, Repr

/-- Whether this is a terminal state (no further transitions). -/
def SwapState.isTerminal : SwapState → Bool
  | claimed | refunded | expired | failed _ => true
  | _ => false

/-- Failures of the shared crate that a driver can meet: the classified ones,
and the kinds the spend builders return.  `Display` texts are kept as the
payload. -/
inductive SwapError where
  | invalidAmount (detail : String)
  | invalidPubkey (detail : String)
  | invalidPreimage (detail : String)
  | htlc (detail : String)
  | transient (detail : String)
  | permanent (detail : String)
  | other (detail : String)
  deriving DecidableEq, Repr

/-- Whether retrying could plausibly succeed. -/
def SwapError.isTransient : SwapError → Bool
  | transient _ => true
  | _ => false

/-- The `Display` text of a failure. -/
def SwapError.display : SwapError → String
  | invalidAmount detail => "invalid amount: " ++ detail
  | invalidPubkey detail => "invalid public key: " ++ detail
  | invalidPreimage detail => "invalid preimage/hash: " ++ detail
  | htlc detail => "htlc script error: " ++ detail
  | transient detail => "transient: " ++ detail
  | permanent detail => "permanent: " ++ detail
  | other detail => "other: " ++ detail

/-! ## Fallible computations -/

universe u v

/-- Changing the error does not change the result. -/
theorem mapError_eq_ok {ε ε' α : Type} {f : ε → ε'} {x : Except ε α} {a : α} :
    x.mapError f = .ok a ↔ x = .ok a := by
  cases x <;> simp [Except.mapError]

/-- A computation that succeeds has succeeded at every step. -/
theorem bind_eq_ok {ε : Type u} {α β : Type v} {x : Except ε α} {f : α → Except ε β} {b : β}
    (h : (x >>= f) = .ok b) : ∃ a, x = .ok a ∧ f a = .ok b := by
  cases x with
  | error e => cases h
  | ok a => exact ⟨a, rfl, h⟩

theorem bind_eq_ok_iff {ε : Type u} {α β : Type v} {x : Except ε α} {f : α → Except ε β} {b : β} :
    (x >>= f) = .ok b ↔ ∃ a, x = .ok a ∧ f a = .ok b := by
  refine ⟨bind_eq_ok, ?_⟩
  rintro ⟨a, rfl, h⟩
  exact h

/-- A check, and then something else. -/
theorem check_bind_eq_ok {ε : Type u} {β : Type} {x : Except ε Unit} {f : Unit → Except ε β}
    {b : β} :
    (x >>= f) = .ok b ↔ x = .ok () ∧ f () = .ok b :=
  bind_eq_ok_iff.trans ⟨fun ⟨_, h⟩ => h, fun h => ⟨(), h⟩⟩

/-- A check that refuses under a condition. -/
theorem ite_error_eq_ok {ε : Type u} {α : Type v} {c : Prop} [Decidable c] {e : ε}
    {x : Except ε α} {a : α} : (if c then .error e else x) = .ok a ↔ ¬ c ∧ x = .ok a := by
  split
  · exact iff_of_false nofun fun h => h.1 ‹_›
  · exact (and_iff_right ‹_›).symm

/-- `ok_or`. -/
def okOr {ε α : Type} (x : Option α) (e : ε) : Except ε α :=
  match x with
  | some a => .ok a
  | none => .error e

theorem okOr_eq_ok {ε α : Type} {x : Option α} {e : ε} {a : α} :
    okOr x e = .ok a ↔ x = some a := by
  cases x with
  | none => exact ⟨nofun, nofun⟩
  | some b => simp [okOr]

end PubkySwap
