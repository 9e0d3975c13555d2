import PubkySwap.Lib.Paging
import PubkySwap.QuoteBook
import PubkySwap.Record

/-!
# The listing of one's own swaps

An owner reads its swaps page by page, newest first.  A page names the last swap on it by a
cursor, the hexadecimal text of the swap's creation time and id, and the next page begins
after it; the swaps are read from the store again for every page.

The key of a row is its creation time and id, and a session over keys that do not move lists
every swap that stays listable once (`Paging.mem_listed`).  A record's creation time is stamped
by the store, on the first write of a record that has none; a record from before the field
existed has none until it is written again, and moves to the front when it is.
-/

namespace PubkySwap

open BitcoinScript (Bytes)

/-! ## Keys and cursors -/

/-- `ListKey`: newest first, then by id. -/
abbrev ListKey : Type := ℕᵒᵈ ×ₗ ℕ

/-- The key of a creation time and an id. -/
def listKeyOf (createdAtUnix : ℕ) (swapId : Uuid) : ListKey :=
  toLex (OrderDual.toDual createdAtUnix, swapId)

/-- `list_key`. -/
def listKey (record : SwapRecord) : ListKey := listKeyOf record.createdAtUnix record.swapId

/-- The creation time of a key. -/
def ListKey.createdAtUnix (key : ListKey) : ℕ := OrderDual.ofDual (ofLex key).1

/-- The id of a key. -/
def ListKey.swapId (key : ListKey) : Uuid := (ofLex key).2

/-- `encode_list_cursor`. -/
def encodeListCursor (key : ListKey) : String :=
  Hex.encode (utf8 (Nat.toDigits 10 key.createdAtUnix ++ ':' :: (uuidText key.swapId).toList))

/-- The digits of a number, and nothing else. -/
def parseDigits (digits : List Char) : Option ℕ :=
  if digits ≠ [] ∧ digits.all (Hex.inRange '0' '9') then some (Nat.ofDigitChars 10 digits 0)
  else none

/-- `u64::from_str`: a plus sign may come first. -/
def parseU64 (text : List Char) : Option ℕ :=
  let digits := match text with
    | '+' :: rest => rest
    | _ => text
  (parseDigits digits).filter (· < 2 ^ 64)

/-- Hexadecimal digits of either case. -/
def parseHexDigits (digits : List Char) : Option Uuid :=
  if digits.all fun c => (Hex.digitOf c).isSome then some (hexNumber digits) else none

/-- The four hyphens of an identifier at their places. -/
def parseHyphenated (text : List Char) : Option Uuid :=
  if text[8]? = some '-' ∧ text[13]? = some '-' ∧ text[18]? = some '-' ∧ text[23]? = some '-' then
    parseHexDigits (text.take 8 ++ (text.drop 9).take 4 ++ (text.drop 14).take 4 ++
      (text.drop 19).take 4 ++ text.drop 24)
  else none

/-- `Uuid::from_str`: plain, hyphenated, braced or as a URN. -/
def parseUuid (text : List Char) : Option Uuid :=
  if text.length = 32 then parseHexDigits text
  else if text.length = 36 then parseHyphenated text
  else if text.length = 38 ∧ text.head? = some '{' ∧ text.getLast? = some '}' then
    parseHyphenated (text.tail.dropLast)
  else if text.length = 45 ∧ text.take 9 = "urn:uuid:".toList then parseHyphenated (text.drop 9)
  else none

/-- `split_once`. -/
def splitOnce (c : Char) (text : List Char) : Option (List Char × List Char) :=
  match text.dropWhile (· ≠ c) with
  | [] => none
  | _ :: rest => some (text.takeWhile (· ≠ c), rest)

/-- The refusal of a cursor. -/
def invalidCursor : Engine.Refusal :=
  ⟨.invalidRequest, "cursor is not one this provider issued"⟩

/-- The parts of `decode_list_cursor` in order. -/
def readListCursor (cursor : String) : Option ListKey := do
  let bytes ← Hex.decode cursor
  let text ← fromUtf8 bytes
  let (created, id) ← splitOnce ':' text.toList
  let createdAtUnix ← parseU64 created
  let swapId ← parseUuid id
  pure (listKeyOf createdAtUnix swapId)

/-- `decode_list_cursor`. -/
def decodeListCursor (cursor : String) : Except Engine.Refusal ListKey :=
  match readListCursor cursor with
  | some key => .ok key
  | none => .error invalidCursor

/-! ## A page -/

/-- Rows on a page that does not say how many it wants. -/
def swapListDefaultPage : ℕ := 10

/-- The most rows on a page. -/
def swapListMaxPage : ℕ := 16

/-- `list_page_limit`. -/
def listPageLimit : Option ℕ → ℕ
  | none | some 0 => swapListDefaultPage
  | some wanted => min wanted swapListMaxPage

section

variable [ClientCrates]

/-- `authorized_peer`. -/
def authorizedPeer (record : SwapRecord) (sender : String)
    (authorization : Option (String × String)) : Bool :=
  ClientCrates.samePubky record.peer sender &&
    record.peerAccount = authorization.map Prod.fst &&
    record.peerAuthorizationScope = authorization.map Prod.snd

/-- The rows of a listing. -/
def listable (sender : String) (authorization : Option (String × String)) (activeOnly : Bool)
    (record : SwapRecord) : Bool :=
  authorizedPeer record sender authorization &&
    (record.swapAccept.isSome && record.pendingHoldInvoice.isNone) &&
    (!activeOnly || !record.state.isTerminal)

/-- An error of a listing. -/
inductive ListError where
  | refusal (refusal : Engine.Refusal)
  | store (message : String)
  deriving DecidableEq, Repr

/-- What the sender owns, in the order of the listing. -/
def ownedRows (records : List SwapRecord) (sender : String)
    (authorization : Option (String × String)) (activeOnly : Bool) : List SwapRecord :=
  (records.filter (listable sender authorization activeOnly)).mergeSort
    fun a b => decide (listKey a ≤ listKey b)

/-- The key a request's page begins after. -/
def requestedAfter (request : SwapListRequest) : Except ListError (Option ListKey) :=
  match request.cursor with
  | none => .ok none
  | some cursor => ((decodeListCursor cursor).map some).mapError .refusal

/-- A page of the rows, and the cursor of the next one. -/
def listPage (owned : List SwapRecord) (after : Option ListKey) (limit : ℕ)
    (requestId : Option Uuid) (nowUnix : ℕ) : SwapList :=
  let start := Paging.start listKey owned after
  let snapshots := ((owned.drop start).take limit).filterMap
    fun record => record.statusSnapshot none nowUnix
  let nextCursor :=
    if !snapshots.isEmpty ∧ start + snapshots.length < owned.length then
      owned[start + snapshots.length - 1]?.map fun record => encodeListCursor (listKey record)
    else none
  { requestId := requestId, snapshots := snapshots, nextCursor := nextCursor }

/-- `swap_list`, over what `load_all_checked` answers. -/
def swapList (loaded : Except String (List SwapRecord)) (sender : String)
    (authorization : Option (String × String)) (request : SwapListRequest) (nowUnix : ℕ) :
    Except ListError SwapList := do
  let after ← requestedAfter request
  let limit := listPageLimit request.limit
  let records ← loaded.mapError .store
  let owned := ownedRows records sender authorization request.activeOnly
  pure (listPage owned after limit request.requestId nowUnix)

end

/-! ## Cursors are read back -/

theorem parseDigits_toDigits (n : ℕ) : parseDigits (Nat.toDigits 10 n) = some n := by
  have hdigits : (Nat.toDigits 10 n).all (Hex.inRange '0' '9') = true := by
    rw [List.all_eq_true]
    intro c hc
    have hdigit := Nat.isDigit_of_mem_toDigits (by decide) (by decide) hc
    simpa [Hex.inRange, Char.isDigit, UInt32.le_iff_toNat_le] using hdigit
  rw [parseDigits, if_pos ⟨Nat.toDigits_ne_nil, hdigits⟩, Nat.ofDigitChars_ten_toDigits]

theorem parseU64_toDigits {n : ℕ} (h : n < 2 ^ 64) : parseU64 (Nat.toDigits 10 n) = some n := by
  have hplus (rest : List Char) : Nat.toDigits 10 n ≠ '+' :: rest := by
    intro hdigits
    have hdigit : '+'.isDigit = true := Nat.isDigit_of_mem_toDigits (b := 10) (n := n) (by decide)
      (by decide) (hdigits ▸ List.mem_cons_self ..)
    cases hdigit
  have hread : parseU64 (Nat.toDigits 10 n) =
      (parseDigits (Nat.toDigits 10 n)).filter (· < 2 ^ 64) := by
    unfold parseU64
    split
    · exact absurd ‹_› (hplus _)
    · rfl
  rw [hread, parseDigits_toDigits, Option.filter_some, if_pos (decide_eq_true h)]

theorem length_hexDigits_eq {width n : ℕ} (h : n < 16 ^ width) :
    (hexDigits width n).length = width := by
  induction width generalizing n with
  | zero =>
      obtain rfl := Nat.lt_one_iff.mp h
      rfl
  | succ width ih =>
      rw [hexDigits, List.length_append, ih (Nat.div_lt_of_lt_mul (by omega)),
        List.length_singleton]

theorem digitOf_hexDigits {width n : ℕ} (h : n < 16 ^ width) :
    (hexDigits width n).all (fun c => (Hex.digitOf c).isSome) = true := by
  induction width generalizing n with
  | zero =>
      obtain rfl := Nat.lt_one_iff.mp h
      rfl
  | succ width ih =>
      rw [hexDigits, List.all_append, ih (Nat.div_lt_of_lt_mul (by omega)), List.all_cons,
        Hex.digitOf_digitChar (by omega)]
      rfl

theorem parseHexDigits_hexDigits {id : Uuid} (h : id < 16 ^ 32) :
    parseHexDigits (hexDigits 32 id) = some id := by
  rw [parseHexDigits, if_pos (digitOf_hexDigits h), hexNumber_hexDigits]

/-- What was joined by hyphens is taken apart at its places. -/
theorem parseHyphenated_join {a b c d e : List Char} (ha : a.length = 8) (hb : b.length = 4)
    (hc : c.length = 4) (hd : d.length = 4) :
    parseHyphenated (a ++ '-' :: (b ++ '-' :: (c ++ '-' :: (d ++ '-' :: e)))) =
      parseHexDigits (a ++ b ++ c ++ d ++ e) := by
  unfold parseHyphenated
  rw [if_pos]
  · congr 1
    simp [List.drop_append, ha, hb, hc, hd, List.drop_of_length_le]
  · simp [List.getElem?_append, ha, hb, hc, hd]

theorem parseUuid_uuidText {id : Uuid} (h : id < 2 ^ 128) :
    parseUuid (uuidText id).toList = some id := by
  have hid : id < 16 ^ 32 := h.trans_eq (by norm_num)
  have hlength := length_hexDigits_eq hid
  have hread := parseHexDigits_hexDigits hid
  rw [uuidText, hlength, String.toList_ofList]
  generalize hexDigits 32 id = digits at hlength hread ⊢
  have htake : (digits.take 8).length = 8 := by rw [List.length_take, hlength]; rfl
  have hpart (start : ℕ) (h : start ≤ 28) : ((digits.drop start).take 4).length = 4 := by
    rw [List.length_take, List.length_drop, hlength]
    omega
  have hjoin : digits.take 8 ++ (digits.drop 8).take 4 ++ (digits.drop 12).take 4 ++
      (digits.drop 16).take 4 ++ digits.drop 20 = digits := by
    rw [← List.take_add, ← List.take_add, ← List.take_add, List.take_append_drop]
  have hhyphens := parseHyphenated_join (e := digits.drop 20) htake (hpart 8 (by decide))
    (hpart 12 (by decide)) (hpart 16 (by decide))
  rw [hjoin, hread] at hhyphens
  unfold parseUuid
  rw [if_neg, if_pos]
  · exact hhyphens
  · simp [hlength]
  · simp [hlength]

theorem fromUtf8_utf8 (text : List Char) : fromUtf8 (utf8 text) = some (String.ofList text) := by
  have hdecode : (utf8 text).toByteArray.utf8Decode? = some text.toArray :=
    List.utf8Decode?_utf8Encode
  rw [fromUtf8, hdecode]
  rfl

theorem splitOnce_append {c : Char} {a b : List Char} (h : c ∉ a) :
    splitOnce c (a ++ c :: b) = some (a, b) := by
  have hall : ∀ x ∈ a, decide (x ≠ c) = true := fun x hx =>
    decide_eq_true fun heq => h (heq ▸ hx)
  unfold splitOnce
  rw [List.dropWhile_append_of_pos hall, List.takeWhile_append_of_pos hall]
  simp

/-- **Every cursor this provider issues is read back.** -/
theorem decode_encodeListCursor {key : ListKey} (hcreated : key.createdAtUnix < 2 ^ 64)
    (hid : key.swapId < 2 ^ 128) : decodeListCursor (encodeListCursor key) = .ok key := by
  have hcolon : ':' ∉ Nat.toDigits 10 key.createdAtUnix := by
    intro hmem
    cases Nat.isDigit_of_mem_toDigits (by decide) (by decide) hmem
  have hread : readListCursor (encodeListCursor key) = some key := by
    unfold readListCursor encodeListCursor
    simp only [Hex.decode_encode, fromUtf8_utf8, String.toList_ofList, splitOnce_append hcolon,
      parseU64_toDigits hcreated, parseUuid_uuidText hid, Option.bind_eq_bind, Option.bind_some]
    rfl
  rw [decodeListCursor, hread]

/-! ## A page is one of the paged rows -/

section

variable [ClientCrates] {records : List SwapRecord} {sender : String}
  {authorization : Option (String × String)} {activeOnly : Bool}

theorem mem_ownedRows {row : SwapRecord} :
    row ∈ ownedRows records sender authorization activeOnly ↔
      row ∈ records ∧ listable sender authorization activeOnly row = true := by
  rw [ownedRows, List.mem_mergeSort, List.mem_filter]

/-- A listable row has something to show. -/
theorem isSome_statusSnapshot {row : SwapRecord}
    (h : listable sender authorization activeOnly row = true) (nowUnix : ℕ) :
    (row.statusSnapshot none nowUnix).isSome = true := by
  simp only [listable, Bool.and_eq_true] at h
  obtain ⟨accept, haccept⟩ := Option.isSome_iff_exists.mp h.1.2.1
  rw [SwapRecord.statusSnapshot, haccept]
  rfl

/-- The rows are sorted, if no two are of one swap. -/
theorem sorted_ownedRows (hnodup : (records.map SwapRecord.swapId).Nodup) :
    Paging.Sorted listKey (ownedRows records sender authorization activeOnly) := by
  have hle : (ownedRows records sender authorization activeOnly).Pairwise
      fun row row' => listKey row ≤ listKey row' := by
    refine List.Pairwise.imp of_decide_eq_true (List.pairwise_mergeSort ?_ ?_ _)
    · intro a b c hab hbc
      exact decide_eq_true ((of_decide_eq_true hab).trans (of_decide_eq_true hbc))
    · intro a b
      rw [Bool.or_eq_true, decide_eq_true_iff, decide_eq_true_iff]
      exact le_total _ _
  have hids :
      ((ownedRows records sender authorization activeOnly).map SwapRecord.swapId).Nodup := by
    have hperm := (List.mergeSort_perm (records.filter (listable sender authorization activeOnly))
      fun a b => decide (listKey a ≤ listKey b)).map SwapRecord.swapId
    exact hperm.nodup_iff.mpr (hnodup.sublist (List.filter_sublist.map _))
  refine (hle.and (List.pairwise_map.mp hids)).imp ?_
  rintro a b ⟨hab, hne⟩
  refine lt_of_le_of_ne hab fun heq => hne ?_
  exact congrArg ListKey.swapId heq

omit [ClientCrates] in
theorem requestedAfter_eq {request : SwapListRequest} {after : Option ListKey}
    (hcursor : request.cursor = after.map encodeListCursor)
    (hafter : ∀ key ∈ after, key.createdAtUnix < 2 ^ 64 ∧ key.swapId < 2 ^ 128) :
    requestedAfter request = .ok after := by
  unfold requestedAfter
  rw [hcursor]
  cases after with
  | none => rfl
  | some key =>
      obtain ⟨hcreated, hid⟩ := hafter key rfl
      simp only [Option.map_some, decode_encodeListCursor hcreated hid]
      rfl

omit [ClientCrates] in
/-- The last row of a page stands where the page's length says. -/
theorem getLast_page (rows : List SwapRecord) (after : Option ListKey) (limit : ℕ)
    (h : Paging.page listKey rows after limit ≠ []) :
    rows[Paging.start listKey rows after + (Paging.page listKey rows after limit).length - 1]? =
      (Paging.page listKey rows after limit).getLast? := by
  have hpos : 0 < (Paging.page listKey rows after limit).length := List.length_pos_of_ne_nil h
  rw [List.getLast?_eq_getElem?, Nat.add_sub_assoc hpos]
  generalize hlength : (Paging.page listKey rows after limit).length = length at hpos ⊢
  rw [Paging.page, List.length_take] at hlength
  rw [Paging.page, List.getElem?_take, if_pos (by omega), List.getElem?_drop]

/-- **A page is a page of the rows**, each row with its snapshot, and its cursor is the next
page's key. -/
theorem listPage_eq (after : Option ListKey) (limit : ℕ) (requestId : Option Uuid)
    (nowUnix : ℕ) :
    let rows := ownedRows records sender authorization activeOnly
    listPage rows after limit requestId nowUnix =
      { requestId := requestId
        snapshots := (Paging.page listKey rows after limit).filterMap
          fun record => record.statusSnapshot none nowUnix
        nextCursor := (Paging.next listKey rows after limit).map encodeListCursor } := by
  intro rows
  have hall : ∀ row ∈ Paging.page listKey rows after limit,
      (row.statusSnapshot none nowUnix).isSome = true := by
    intro row hrow
    have hmem : row ∈ rows := List.mem_of_mem_drop (List.mem_of_mem_take hrow)
    exact isSome_statusSnapshot (mem_ownedRows.mp hmem).2 nowUnix
  have hlength := List.filterMap_length_eq_length.mpr hall
  have hempty : ((Paging.page listKey rows after limit).filterMap
      fun record => record.statusSnapshot none nowUnix).isEmpty =
      (Paging.page listKey rows after limit).isEmpty := by
    rw [Bool.eq_iff_iff, List.isEmpty_iff_length_eq_zero, hlength, List.isEmpty_iff_length_eq_zero]
  unfold listPage Paging.next
  dsimp only
  rw [← Paging.page, hempty, hlength]
  congr 1
  by_cases hpage : Paging.page listKey rows after limit = []
  · rw [hpage]
    simp
  · rw [getLast_page rows after limit hpage]
    split
    · rename_i hmore
      rw [if_pos hmore.2, Option.map_map]
      rfl
    · rename_i hmore
      rw [if_neg]
      · rfl
      · intro hlt
        exact hmore ⟨by simpa using hpage, hlt⟩

/-- **The answer to a page request.** -/
theorem swapList_eq {request : SwapListRequest} {after : Option ListKey}
    (hcursor : request.cursor = after.map encodeListCursor)
    (hafter : ∀ key ∈ after, key.createdAtUnix < 2 ^ 64 ∧ key.swapId < 2 ^ 128) (nowUnix : ℕ) :
    let rows := ownedRows records sender authorization request.activeOnly
    let limit := listPageLimit request.limit
    swapList (.ok records) sender authorization request nowUnix =
      .ok
        { requestId := request.requestId
          snapshots := (Paging.page listKey rows after limit).filterMap
            fun record => record.statusSnapshot none nowUnix
          nextCursor := (Paging.next listKey rows after limit).map encodeListCursor } := by
  intro rows limit
  rw [← listPage_eq, swapList, requestedAfter_eq hcursor hafter]
  rfl

omit [ClientCrates] in
theorem listPageLimit_pos (limit : Option ℕ) : 0 < listPageLimit limit := by
  match limit with
  | none => exact Nat.succ_pos 9
  | some 0 => exact Nat.succ_pos 9
  | some (wanted + 1) => exact lt_min (Nat.succ_pos wanted) (by decide)

end

end PubkySwap
