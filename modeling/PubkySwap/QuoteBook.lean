import PubkySwap.Lib.EvictingQueue
import PubkySwap.Contract

/-!
# The provider's quotes

A quote is authorization to swap on terms already priced, for the authenticated
pubky it was sent to and nobody else.  The book keeps the quotes neither redeemed
nor expired, in a bounded map that evicts its oldest, and remembers the redeemed
ones until they expire, so that a signed copy is not taken back for them.

`takeValidQuote` is the only way a quote is redeemed.  Every check stands before
the removal, so that a request from the wrong peer or for the wrong direction
leaves the quote to its owner (`takeValidQuote_eq_error`).
-/

namespace PubkySwap

open EvictingQueue (Queued evict)

/-- What `{:?}` writes. -/
def SwapDirection.debug : SwapDirection → String
  | submarine => "Submarine"
  | reverse => "Reverse"

/-- `Refusal`: a refusal whose code the client is told. -/
structure Engine.Refusal where
  code : RejectCode
  reason : String
  deriving DecidableEq, Repr

/-- A quote the provider has issued. -/
structure IssuedQuote where
  /-- The authenticated pubky it was sent to, and the only one that may redeem it. -/
  peer : String
  direction : SwapDirection
  amountSat : ℕ
  feeSat : ℕ
  /-- The two halves of `feeSat`. -/
  serviceFeeSat : ℕ
  onchainFeeSat : ℕ
  /-- 0 means never. -/
  expiresAtUnix : ℕ
  claimableHint : Bool
  deriving DecidableEq, Repr

/-- `IssuedQuote::signed`: for a quote this provider signed and has since forgotten. -/
def IssuedQuote.signed (peer : String) (quote : Quote) (claimableHint : Bool) : IssuedQuote where
  peer := peer
  direction := quote.direction
  amountSat := quote.amountSat
  feeSat := quote.feeSat
  serviceFeeSat := quote.serviceFeeSat
  onchainFeeSat := quote.onchainFeeSat
  expiresAtUnix := quote.validUntilUnix
  claimableHint := claimableHint

/-- `MAX_TRACKED_QUOTES`. -/
def maxTrackedQuotes : ℕ := 10000

/-- Whether something that expires at `expiresAtUnix` still stands at `now`. -/
def standsAt (now expiresAtUnix : ℕ) : Bool := expiresAtUnix == 0 || decide (now < expiresAtUnix)

/-- `QuoteBook`. -/
structure QuoteBook where
  quotes : AList fun _ : Uuid => IssuedQuote := ∅
  /-- Issuance order, oldest first.  Ids already redeemed or pruned stay until they
  are skipped or compacted away. -/
  order : List Uuid := []
  /-- The quotes redeemed in this run and when each expires. -/
  redeemed : AList fun _ : Uuid => ℕ := ∅

namespace QuoteBook

/-- `prune`. -/
def prune (now : ℕ) (book : QuoteBook) : QuoteBook :=
  { book with
    quotes := book.quotes.retain fun _ quote => standsAt now quote.expiresAtUnix
    redeemed := book.redeemed.retain fun _ expiresAt => standsAt now expiresAt }

/-- `holds`. -/
def holds (quoteId : Uuid) (book : QuoteBook) : Bool := quoteId ∈ book.quotes

/-- The compaction at the head of `insert`, once the queue has grown to twice the bound. -/
def compact (book : QuoteBook) : QuoteBook :=
  if 2 * maxTrackedQuotes ≤ book.order.length then
    { book with order := book.order.filter fun id => id ∈ book.quotes }
  else book

/-- The loop of `insert`: a full book evicts its oldest quotes. -/
def makeRoom (book : QuoteBook) : QuoteBook :=
  let evicted := evict maxTrackedQuotes book.order book.quotes
  { book with quotes := evicted.2, order := evicted.1 }

/-- `insert`. -/
def insert (quoteId : Uuid) (quote : IssuedQuote) (now : ℕ) (book : QuoteBook) : QuoteBook :=
  let book := ((book.prune now).compact).makeRoom
  { book with
    quotes := book.quotes.insert quoteId quote
    order := book.order ++ [quoteId] }

/-- `restore`: take back a quote this provider signed and no longer holds. -/
def restore (quoteId : Uuid) (quote : IssuedQuote) (now : ℕ) (book : QuoteBook) :
    Bool × QuoteBook :=
  let book := book.prune now
  if quoteId ∈ book.quotes ∨ quoteId ∈ book.redeemed then (false, book)
  else (true, book.insert quoteId quote now)

/-- `take_valid_quote`, under the lock. -/
def takeValidQuote [ClientCrates] (quoteId : Uuid) (peer : String) (direction : SwapDirection)
    (now : ℕ) (book : QuoteBook) : Except Engine.Refusal IssuedQuote × QuoteBook :=
  let book := book.prune now
  match book.quotes.lookup quoteId with
  | none => (.error ⟨.quoteExpired, "unknown or expired quote"⟩, book)
  | some quote =>
      if ¬ClientCrates.samePubky quote.peer peer then
        (.error ⟨.invalidRequest,
          "quote " ++ uuidText quoteId ++ " was not issued to " ++ peer⟩, book)
      else if quote.direction ≠ direction then
        (.error ⟨.invalidRequest,
          "quote " ++ uuidText quoteId ++ " is not for a " ++ direction.debug ++ " swap"⟩, book)
      else
        (.ok quote,
          { book with
            quotes := book.quotes.erase quoteId
            redeemed := book.redeemed.insert quoteId quote.expiresAtUnix })

/-! ## What one operation does -/

variable {book : QuoteBook} {now expiresAt : ℕ} {id quoteId : Uuid} {quote issued : IssuedQuote}

theorem lookup_prune : (book.prune now).quotes.lookup id = some quote ↔
    book.quotes.lookup id = some quote ∧ standsAt now quote.expiresAtUnix = true :=
  AList.lookup_retain

theorem redeemed_prune : (book.prune now).redeemed.lookup id = some expiresAt ↔
    book.redeemed.lookup id = some expiresAt ∧ standsAt now expiresAt = true :=
  AList.lookup_retain

theorem order_compact_subset : book.compact.order ⊆ book.order := by
  unfold compact
  split
  · exact List.filter_subset_self _
  · exact List.Subset.refl _

@[simp] theorem quotes_compact : book.compact.quotes = book.quotes := by
  unfold compact
  split <;> rfl

@[simp] theorem redeemed_compact : book.compact.redeemed = book.redeemed := by
  unfold compact
  split <;> rfl

theorem order_prune : (book.prune now).order = book.order := rfl

theorem lookup_makeRoom (h : book.makeRoom.quotes.lookup id = some quote) :
    book.quotes.lookup id = some quote :=
  EvictingQueue.lookup_of_lookup_evict h

theorem order_makeRoom_subset : book.makeRoom.order ⊆ book.order :=
  (EvictingQueue.evict_queue_suffix _ _ _).subset

theorem order_room_subset : ((book.prune now).compact).makeRoom.order ⊆ book.order :=
  List.Subset.trans order_makeRoom_subset (@order_compact_subset (book.prune now))

/-- What is held after an insertion was held before, or is what was inserted. -/
theorem lookup_insert (h : (book.insert quoteId issued now).quotes.lookup id = some quote) :
    (id = quoteId ∧ quote = issued) ∨
      (id ≠ quoteId ∧ (book.prune now).quotes.lookup id = some quote) := by
  rcases AList.lookup_insert_eq_some.mp h with ⟨hid, heq⟩ | ⟨hne, h⟩
  · exact .inl ⟨hid, heq.symm⟩
  · exact .inr ⟨hne, by simpa using lookup_makeRoom h⟩

@[simp] theorem redeemed_insert :
    (book.insert quoteId issued now).redeemed = (book.prune now).redeemed := by
  show ((book.prune now).compact).redeemed = _
  rw [redeemed_compact]

theorem mem_order_insert (h : id ∈ (book.insert quoteId issued now).order) :
    id = quoteId ∨ id ∈ book.order := by
  rcases List.mem_append.mp h with h | h
  · exact .inr (order_room_subset h)
  · exact .inl (List.mem_singleton.mp h)

section

variable [ClientCrates] {peer : String} {direction : SwapDirection} {refused : Engine.Refusal}

/-- **A refused request leaves the book to its owners**: what is gone has expired. -/
theorem takeValidQuote_eq_error
    (h : (book.takeValidQuote quoteId peer direction now).1 = .error refused) :
    (book.takeValidQuote quoteId peer direction now).2 = book.prune now := by
  unfold takeValidQuote at h ⊢
  cases hlook : (book.prune now).quotes.lookup quoteId with
  | none => simp only [hlook]
  | some found =>
      simp only [hlook] at h ⊢
      by_cases hpeer : ClientCrates.samePubky found.peer peer
      · by_cases hdirection : found.direction = direction
        · simp only [hpeer, hdirection, not_true_eq_false, ne_eq, if_false] at h
          cases h
        · simp only [hpeer, not_true_eq_false, if_false, ne_eq, hdirection, not_false_eq_true,
            if_true]
      · simp only [hpeer, Bool.false_eq_true, not_false_eq_true, if_true]

/-- **A quote is taken by its owner, for its direction, before it expires**, and is
then remembered as redeemed. -/
theorem takeValidQuote_eq_ok
    (h : (book.takeValidQuote quoteId peer direction now).1 = .ok quote) :
    book.quotes.lookup quoteId = some quote ∧ standsAt now quote.expiresAtUnix = true ∧
      ClientCrates.samePubky quote.peer peer = true ∧ quote.direction = direction ∧
      (book.takeValidQuote quoteId peer direction now).2 =
        { book.prune now with
          quotes := (book.prune now).quotes.erase quoteId
          redeemed := (book.prune now).redeemed.insert quoteId quote.expiresAtUnix } := by
  unfold takeValidQuote at h ⊢
  cases hlook : (book.prune now).quotes.lookup quoteId with
  | none =>
      simp only [hlook] at h
      cases h
  | some found =>
      simp only [hlook] at h ⊢
      by_cases hpeer : ClientCrates.samePubky found.peer peer
      · by_cases hdirection : found.direction = direction
        · simp only [hpeer, hdirection, not_true_eq_false, ne_eq, if_false] at h ⊢
          cases h
          exact ⟨(lookup_prune.mp hlook).1, (lookup_prune.mp hlook).2, hpeer, hdirection, rfl⟩
        · simp only [hpeer, not_true_eq_false, if_false, ne_eq, hdirection, not_false_eq_true,
            if_true] at h
          cases h
      · simp only [hpeer] at h
        cases h

end

/-- What is taken back was neither held nor redeemed. -/
theorem restore_cases (book : QuoteBook) (id : Uuid) (copy : IssuedQuote) (now : ℕ) :
    (book.restore id copy now).2 = book.prune now ∨
      (id ∉ (book.prune now).quotes ∧ id ∉ (book.prune now).redeemed ∧
        (book.restore id copy now).2 = (book.prune now).insert id copy now) := by
  unfold restore
  by_cases hknown : id ∈ (book.prune now).quotes ∨ id ∈ (book.prune now).redeemed
  · exact .inl (by simp only [hknown, if_true])
  · obtain ⟨hquotes, hredeemed⟩ := not_or.mp hknown
    exact .inr ⟨hquotes, hredeemed, by simp only [hknown, if_false]⟩

theorem order_takeValidQuote [ClientCrates] (book : QuoteBook) (id : Uuid) (peer : String)
    (direction : SwapDirection) (now : ℕ) :
    (book.takeValidQuote id peer direction now).2.order = book.order := by
  cases htaken : (book.takeValidQuote id peer direction now).1 with
  | error refused => rw [takeValidQuote_eq_error htaken, order_prune]
  | ok quote =>
      obtain ⟨-, -, -, -, hbook⟩ := takeValidQuote_eq_ok htaken
      rw [hbook, order_prune]

/-! ## The discipline of the book -/

/-- **The book keeps its bound**, because every held quote is in the issuance order, where
eviction looks. -/
structure Kept (book : QuoteBook) : Prop where
  bound : book.quotes.size ≤ maxTrackedQuotes
  queued : Queued book.order book.quotes

theorem kept_empty : Kept {} where
  bound := Nat.zero_le _
  queued _ h := absurd h (AList.notMem_empty _)

theorem Kept.prune (h : book.Kept) (now : ℕ) : (book.prune now).Kept where
  bound := (AList.size_retain_le _ _).trans h.bound
  queued := h.queued.mono fun _ => AList.mem_of_mem_retain

theorem Kept.compact (h : book.Kept) : book.compact.Kept where
  bound := by
    rw [quotes_compact]
    exact h.bound
  queued := by
    unfold QuoteBook.compact
    split
    · exact h.queued.compact
    · exact h.queued

/-- **An insertion keeps the discipline**: there is room after eviction. -/
theorem Kept.insert (h : book.Kept) (quoteId : Uuid) (quote : IssuedQuote) (now : ℕ) :
    (book.insert quoteId quote now).Kept := by
  have hqueued := ((h.prune now).compact).queued
  have hroom := EvictingQueue.size_evict_lt hqueued (by decide : 0 < maxTrackedQuotes)
  exact ⟨(AList.size_insert_le _ _ _).trans hroom, hqueued.evict.push quoteId quote⟩

theorem Kept.restore (h : book.Kept) (quoteId : Uuid) (quote : IssuedQuote) (now : ℕ) :
    (book.restore quoteId quote now).2.Kept := by
  rcases restore_cases book quoteId quote now with heq | ⟨-, -, heq⟩
  · rw [heq]
    exact h.prune now
  · rw [heq]
    exact (h.prune now).insert quoteId quote now

theorem Kept.takeValidQuote [ClientCrates] (h : book.Kept) (quoteId : Uuid) (peer : String)
    (direction : SwapDirection) (now : ℕ) :
    (book.takeValidQuote quoteId peer direction now).2.Kept := by
  cases htaken : (book.takeValidQuote quoteId peer direction now).1 with
  | error refused =>
      rw [takeValidQuote_eq_error htaken]
      exact h.prune now
  | ok quote =>
      obtain ⟨-, -, -, -, hbook⟩ := takeValidQuote_eq_ok htaken
      rw [hbook]
      have hsub (k : Uuid) (hk : k ∈ (book.prune now).quotes.erase quoteId) :
          k ∈ (book.prune now).quotes := (AList.mem_erase.mp hk).2
      refine ⟨?_, (h.prune now).queued.mono hsub⟩
      refine le_trans ?_ (h.prune now).bound
      rw [← AList.length_keys, ← AList.length_keys, AList.keys_erase]
      exact List.length_erase_le ..

end QuoteBook

end PubkySwap
