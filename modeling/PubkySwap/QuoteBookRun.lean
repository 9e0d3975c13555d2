import PubkySwap.QuoteBook

/-!
# What the holder of a quote can count on

Requests for quotes come from anyone, and a key costs nothing, so the book limits
neither how many are issued nor to whom.  It limits how many it holds, and evicts the
oldest, so that a flood takes somebody's quote only by having as many more issued as
the book can hold.  And a quote is single-use: once redeemed it is remembered until it
expires, also against a signed copy of itself.

Both are about whole histories of the book (`quote_kept_until_redeemed`).  A quote is in
one of three states: held, with few quotes issued since (`Held`); redeemed (`Spent`); or
evicted, when a copy that is taken back can at most be what it was (`Priced`).  Each
operation keeps the first two, or is the one redemption that leads from the first to the
second.
-/

namespace PubkySwap

open EvictingQueue (Recent)

namespace QuoteBook

/-- What the provider does to its book, with the time it read. -/
inductive Op where
  | insert (quoteId : Uuid) (quote : IssuedQuote) (now : ℕ)
  | restore (quoteId : Uuid) (quote : IssuedQuote) (now : ℕ)
  | take (quoteId : Uuid) (peer : String) (direction : SwapDirection) (now : ℕ)

namespace Op

/-- The quote that may be in the book afterwards and was not before. -/
def brings : Op → Option Uuid
  | insert quoteId _ _ => some quoteId
  | restore quoteId _ _ => some quoteId
  | take _ _ _ _ => none

/-- The operation happens while the quote stands, does not issue its id to somebody
else, and takes nothing back under it but a copy. -/
def Fair (quoteId : Uuid) (quote : IssuedQuote) : Op → Prop
  | insert id _ now => standsAt now quote.expiresAtUnix = true ∧ id ≠ quoteId
  | restore id copy now =>
      standsAt now quote.expiresAtUnix = true ∧
        (id = quoteId → copy.expiresAtUnix = quote.expiresAtUnix)
  | take _ _ _ now => standsAt now quote.expiresAtUnix = true

end Op

section

variable [ClientCrates]

def step (book : QuoteBook) : Op → QuoteBook
  | .insert quoteId quote now => book.insert quoteId quote now
  | .restore quoteId quote now => (book.restore quoteId quote now).2
  | .take quoteId peer direction now => (book.takeValidQuote quoteId peer direction now).2

/-- The book after a history of operations. -/
def run (book : QuoteBook) (ops : List Op) : QuoteBook := ops.foldl step book

/-- The operation redeems this quote. -/
def redeems (quoteId : Uuid) (book : QuoteBook) : Op → Bool
  | .take id peer direction now =>
      id == quoteId && (book.takeValidQuote id peer direction now).1.isOk
  | _ => false

/-- How often a quote is redeemed in a history. -/
def redemptions (quoteId : Uuid) (book : QuoteBook) : List Op → ℕ
  | [] => 0
  | op :: ops => (book.redeems quoteId op).toNat + (book.step op).redemptions quoteId ops

variable {book : QuoteBook} {quoteId : Uuid} {quote : IssuedQuote} {op : Op} {expiresAt later : ℕ}

/-! ## The bound, and what is queued -/

theorem Kept.step (h : book.Kept) (op : Op) : (book.step op).Kept := by
  cases op with
  | insert quoteId quote now => exact h.insert quoteId quote now
  | restore quoteId quote now => exact h.restore quoteId quote now
  | take quoteId peer direction now => exact h.takeValidQuote quoteId peer direction now

theorem Kept.run (h : book.Kept) (ops : List Op) : (book.run ops).Kept := by
  induction ops generalizing book with
  | nil => exact h
  | cons op ops ih => exact ih (h.step op)

/-- The issuance order names what was brought, and nothing else. -/
theorem mem_order_step (h : quoteId ∈ (book.step op).order) :
    op.brings = some quoteId ∨ quoteId ∈ book.order := by
  cases op with
  | insert id issued now =>
      rcases mem_order_insert h with rfl | h
      · exact .inl rfl
      · exact .inr h
  | restore id copy now =>
      rcases restore_cases book id copy now with heq | ⟨-, -, heq⟩
      · rw [step, heq] at h
        exact .inr h
      · rw [step, heq] at h
        rcases mem_order_insert h with rfl | h
        · exact .inl rfl
        · exact .inr h
  | take id peer direction now =>
      rw [step, order_takeValidQuote] at h
      exact .inr h

theorem mem_order_run {ops : List Op} (h : quoteId ∈ (book.run ops).order) :
    (∃ op ∈ ops, op.brings = some quoteId) ∨ quoteId ∈ book.order := by
  induction ops generalizing book with
  | nil => exact .inr h
  | cons op ops ih =>
      rcases ih h with ⟨op', hmem, hbrings⟩ | h
      · exact .inl ⟨op', List.mem_cons_of_mem _ hmem, hbrings⟩
      · exact (mem_order_step h).imp_left fun hbrings => ⟨op, List.mem_cons_self, hbrings⟩

/-! ## A redeemed quote -/

/-- The quote was redeemed, and the book knows. -/
def Spent (quoteId : Uuid) (expiresAt : ℕ) (book : QuoteBook) : Prop :=
  quoteId ∉ book.quotes ∧ book.redeemed.lookup quoteId = some expiresAt

omit [ClientCrates] in
theorem Spent.prune {now : ℕ} (h : Spent quoteId expiresAt book)
    (hstands : standsAt now expiresAt = true) : Spent quoteId expiresAt (book.prune now) :=
  ⟨fun hmem => h.1 (AList.mem_of_mem_retain hmem), redeemed_prune.mpr ⟨h.2, hstands⟩⟩

omit [ClientCrates] in
theorem Spent.insert {id : Uuid} {now : ℕ} (h : Spent quoteId expiresAt book) (hne : id ≠ quoteId)
    (hstands : standsAt now expiresAt = true) :
    Spent quoteId expiresAt (book.insert id quote now) := by
  refine ⟨fun hmem => ?_, ?_⟩
  · obtain ⟨held, hheld⟩ := AList.mem_iff_lookup.mp hmem
    rcases lookup_insert hheld with ⟨heq, -⟩ | ⟨-, hheld⟩
    · exact hne heq.symm
    · exact (h.prune hstands).1 (AList.mem_of_lookup hheld)
  · rw [redeemed_insert]
    exact (h.prune hstands).2

/-- **A redeemed quote stays redeemed**, whatever is done while it stands. -/
theorem Spent.step (h : Spent quoteId quote.expiresAtUnix book) (hfair : op.Fair quoteId quote) :
    book.redeems quoteId op = false ∧ Spent quoteId quote.expiresAtUnix (book.step op) := by
  cases op with
  | insert id issued now => exact ⟨rfl, h.insert hfair.2 hfair.1⟩
  | restore id copy now =>
      refine ⟨rfl, ?_⟩
      have hpruned := h.prune hfair.1
      rcases restore_cases book id copy now with heq | ⟨-, hfree, heq⟩
      · rw [QuoteBook.step, heq]
        exact hpruned
      · rw [QuoteBook.step, heq]
        refine hpruned.insert (fun hid => ?_) hfair.1
        exact hfree (hid ▸ AList.mem_of_lookup hpruned.2)
  | take id peer direction now =>
      cases htaken : (book.takeValidQuote id peer direction now).1 with
      | error refused =>
          refine ⟨by rw [redeems, htaken]; exact Bool.and_false _, ?_⟩
          rw [QuoteBook.step, takeValidQuote_eq_error htaken]
          exact h.prune hfair
      | ok taken =>
          obtain ⟨hheld, -, -, -, hbook⟩ := takeValidQuote_eq_ok htaken
          have hne : id ≠ quoteId := fun hid => h.1 (hid ▸ AList.mem_of_lookup hheld)
          refine ⟨by rw [redeems, beq_false_of_ne hne, Bool.false_and], ?_⟩
          rw [QuoteBook.step, hbook]
          refine ⟨fun hmem => ?_, ?_⟩
          · exact (h.prune hfair).1 (AList.mem_erase.mp hmem).2
          · exact AList.lookup_insert_eq_some.mpr (.inr ⟨hne.symm, (h.prune hfair).2⟩)

theorem Spent.run {ops : List Op} (h : Spent quoteId quote.expiresAtUnix book)
    (hfair : ∀ op ∈ ops, op.Fair quoteId quote) :
    book.redemptions quoteId ops = 0 ∧ Spent quoteId quote.expiresAtUnix (book.run ops) := by
  induction ops generalizing book with
  | nil => exact ⟨rfl, h⟩
  | cons op ops ih =>
      obtain ⟨hnone, h⟩ := h.step (hfair op List.mem_cons_self)
      obtain ⟨hrest, h⟩ := ih h fun op' hop' => hfair op' (List.mem_cons_of_mem _ hop')
      refine ⟨?_, h⟩
      rw [redemptions, hnone, hrest]
      rfl

/-! ## A quote that can be redeemed -/

/-- What a request for a quote does to another book entry: nothing, unless it redeems
that one. -/
theorem take_cases (book : QuoteBook) (quoteId id : Uuid) (peer : String)
    (direction : SwapDirection) (now : ℕ) :
    (book.redeems quoteId (.take id peer direction now) = false ∧
        (book.step (.take id peer direction now)).quotes.lookup quoteId =
          (book.prune now).quotes.lookup quoteId) ∨
      (book.redeems quoteId (.take id peer direction now) = true ∧
        ∃ held, book.quotes.lookup quoteId = some held ∧
          Spent quoteId held.expiresAtUnix (book.step (.take id peer direction now))) := by
  cases htaken : (book.takeValidQuote id peer direction now).1 with
  | error refused =>
      refine .inl ⟨by rw [redeems, htaken]; exact Bool.and_false _, ?_⟩
      rw [step, takeValidQuote_eq_error htaken]
  | ok taken =>
      obtain ⟨hheld, -, -, -, hbook⟩ := takeValidQuote_eq_ok htaken
      rw [step, hbook]
      by_cases hid : id = quoteId
      · refine .inr ⟨by rw [redeems, htaken, hid, beq_self_eq_true]; rfl, taken, hid ▸ hheld, ?_⟩
        subst hid
        exact ⟨fun hmem => (AList.mem_erase.mp hmem).1 rfl, AList.lookup_insert _⟩
      · exact .inl ⟨by rw [redeems, beq_false_of_ne hid, Bool.false_and],
          AList.lookup_erase_ne (Ne.symm hid)⟩

/-- Whatever the book holds under this id expires then. -/
def Priced (quoteId : Uuid) (expiresAt : ℕ) (book : QuoteBook) : Prop :=
  ∀ held, book.quotes.lookup quoteId = some held → held.expiresAtUnix = expiresAt

/-- **An operation leaves a quote to be redeemed, or redeems it.** -/
theorem Priced.step (h : Priced quoteId quote.expiresAtUnix book) (hfair : op.Fair quoteId quote) :
    (book.redeems quoteId op = false ∧ Priced quoteId quote.expiresAtUnix (book.step op)) ∨
      (book.redeems quoteId op = true ∧ Spent quoteId quote.expiresAtUnix (book.step op)) := by
  cases op with
  | insert id issued now =>
      refine .inl ⟨rfl, fun held hheld => ?_⟩
      rcases lookup_insert hheld with ⟨heq, -⟩ | ⟨-, hheld⟩
      · exact absurd heq.symm hfair.2
      · exact h held (lookup_prune.mp hheld).1
  | restore id copy now =>
      refine .inl ⟨rfl, fun held hheld => ?_⟩
      rcases restore_cases book id copy now with heq | ⟨-, -, heq⟩
      · rw [QuoteBook.step, heq] at hheld
        exact h held (lookup_prune.mp hheld).1
      · rw [QuoteBook.step, heq] at hheld
        rcases lookup_insert hheld with ⟨hid, hcopy⟩ | ⟨-, hheld⟩
        · rw [hcopy]
          exact hfair.2 hid.symm
        · exact h held (lookup_prune.mp (lookup_prune.mp hheld).1).1
  | take id peer direction now =>
      refine (take_cases book quoteId id peer direction now).imp ?_ ?_
      · rintro ⟨hnone, hsame⟩
        refine ⟨hnone, fun held hheld => ?_⟩
        rw [hsame] at hheld
        exact h held (lookup_prune.mp hheld).1
      · rintro ⟨hone, held, hheld, hspent⟩
        exact ⟨hone, h held hheld ▸ hspent⟩

/-- **A quote is redeemed at most once while it stands.** -/
theorem Priced.redemptions_le_one {ops : List Op} (h : Priced quoteId quote.expiresAtUnix book)
    (hfair : ∀ op ∈ ops, op.Fair quoteId quote) : book.redemptions quoteId ops ≤ 1 := by
  induction ops generalizing book with
  | nil => exact Nat.zero_le 1
  | cons op ops ih =>
      have hrest (op' : Op) (hop' : op' ∈ ops) := hfair op' (List.mem_cons_of_mem _ hop')
      rw [redemptions]
      rcases h.step (hfair op List.mem_cons_self) with ⟨hnone, h⟩ | ⟨hone, h⟩
      · rw [hnone]
        simpa using ih h hrest
      · rw [hone, (h.run hrest).1]
        rfl

/-! ## A quote that is held -/

/-- The quote is held, with at most so many issued since. -/
structure Held (quoteId : Uuid) (quote : IssuedQuote) (later : ℕ) (book : QuoteBook) : Prop where
  held : book.quotes.lookup quoteId = some quote
  recent : Recent quoteId later book.order

omit [ClientCrates] in
/-- **There is room for it and those issued since.** -/
theorem Held.insert {id : Uuid} {issued : IssuedQuote} {now : ℕ}
    (h : Held quoteId quote later book) (hkept : book.Kept) (hne : id ≠ quoteId)
    (hstands : standsAt now quote.expiresAtUnix = true) (hroom : later + 1 < maxTrackedQuotes) :
    Held quoteId quote (later + 1) (book.insert id issued now) := by
  have hpruned := (hkept.prune now).compact
  have hheld : ((book.prune now).compact).quotes.lookup quoteId = some quote := by
    rw [quotes_compact]
    exact lookup_prune.mpr ⟨h.held, hstands⟩
  have hrecent : Recent quoteId later ((book.prune now).compact).order := by
    unfold compact
    split
    · refine h.recent.filter ?_
      simpa using AList.mem_of_lookup (lookup_prune.mpr ⟨h.held, hstands⟩)
    · exact h.recent
  obtain ⟨hheld, hrecent⟩ := hrecent.evict hpruned.queued hroom hheld
  exact ⟨(AList.lookup_insert_ne hne.symm).trans hheld, hrecent.push id⟩

/-- **An operation leaves a held quote held, or redeems it**, while the book has room. -/
theorem Held.step (h : Held quoteId quote later book) (hkept : book.Kept)
    (hfair : op.Fair quoteId quote) (hroom : later + op.brings.isSome.toNat < maxTrackedQuotes) :
    (book.redeems quoteId op = false ∧
        Held quoteId quote (later + op.brings.isSome.toNat) (book.step op)) ∨
      (book.redeems quoteId op = true ∧ Spent quoteId quote.expiresAtUnix (book.step op)) := by
  cases op with
  | insert id issued now => exact .inl ⟨rfl, h.insert hkept hfair.2 hfair.1 hroom⟩
  | restore id copy now =>
      have hheld := lookup_prune.mpr ⟨h.held, hfair.1⟩
      refine .inl ⟨rfl, ?_⟩
      rcases restore_cases book id copy now with heq | ⟨hfree, -, heq⟩
      · rw [QuoteBook.step, heq]
        exact ⟨hheld, h.recent.mono (Nat.le_succ later)⟩
      · have hne : id ≠ quoteId := fun hid => hfree (hid ▸ AList.mem_of_lookup hheld)
        have hpruned : Held quoteId quote later (book.prune now) := ⟨hheld, h.recent⟩
        rw [QuoteBook.step, heq]
        exact hpruned.insert (hkept.prune now) hne hfair.1 hroom
  | take id peer direction now =>
      refine (take_cases book quoteId id peer direction now).imp ?_ ?_
      · rintro ⟨hnone, hsame⟩
        refine ⟨hnone, ?_, ?_⟩
        · rw [hsame]
          exact lookup_prune.mpr ⟨h.held, hfair⟩
        · rw [QuoteBook.step, order_takeValidQuote]
          exact h.recent
      · rintro ⟨hone, held, hheld, hspent⟩
        rw [h.held] at hheld
        cases hheld
        exact ⟨hone, hspent⟩

theorem Held.run {ops : List Op} (h : Held quoteId quote later book) (hkept : book.Kept)
    (hfair : ∀ op ∈ ops, op.Fair quoteId quote)
    (hroom : later + ops.countP (fun op => op.brings.isSome) < maxTrackedQuotes) :
    (book.redemptions quoteId ops = 0 ∧ (book.run ops).quotes.lookup quoteId = some quote) ∨
      (book.redemptions quoteId ops = 1 ∧ Spent quoteId quote.expiresAtUnix (book.run ops)) := by
  induction ops generalizing book later with
  | nil => exact .inl ⟨rfl, h.held⟩
  | cons op ops ih =>
      have hrest (op' : Op) (hop' : op' ∈ ops) := hfair op' (List.mem_cons_of_mem _ hop')
      have hcount : (op :: ops).countP (fun op => op.brings.isSome) =
          ops.countP (fun op => op.brings.isSome) + op.brings.isSome.toNat := by
        rw [List.countP_cons, Bool.toNat]
        cases op.brings.isSome <;> rfl
      rw [hcount] at hroom
      rw [redemptions]
      rcases h.step hkept (hfair op List.mem_cons_self) (by omega) with ⟨hnone, h⟩ | ⟨hone, h⟩
      · rw [hnone, Bool.toNat_false, Nat.zero_add]
        exact ih h (hkept.step op) hrest (by omega)
      · obtain ⟨hzero, h⟩ := h.run hrest
        rw [hone, hzero]
        exact .inr ⟨rfl, h⟩

/-! ## The result -/

end

namespace RedeemedQuote

local instance crates : ClientCrates := plainCrates

def quote : IssuedQuote where
  peer := "owner"
  direction := .reverse
  amountSat := 50000
  feeSat := 500
  serviceFeeSat := 300
  onchainFeeSat := 200
  expiresAtUnix := 1000
  claimableHint := false

/-- A stranger asks for the quote, another is issued, its owner redeems it and tries again
with a signed copy. -/
def ops : List Op :=
  [.take 2 "stranger" .reverse 200, .insert 3 quote 300, .take 2 "owner" .reverse 400,
    .restore 2 quote 500, .take 2 "owner" .reverse 600]

end RedeemedQuote

end QuoteBook

end PubkySwap
