import PubkySwap.ClientPlay

/-!
# What a client can be made to do

Over every history of a client, with any of its operations cut off anywhere and any
answer from the outside:

* `funds_at_most_once`: the wallet is asked to fund a swap at most once;
* `pays_what_was_agreed`: a reverse swap's driver pays the invoice that was agreed;
* `holds_back`: it reveals the preimage only after it has seen what was agreed.

The last two are about every record but those a restore has written from a provider's
listing.  There the invoice, the amount and the number of confirmations are the provider's,
and nothing compares them with what was agreed, so both say what the written records have
to be.  What else is listed does not matter: a swap that is known or over is passed by.
`ListingTrusted` has the histories in which a record that was written is not what it has to
be, and one in which a listing that is passed by would not have been.
-/

namespace PubkySwap

open BitcoinScript (Bytes)
open Program (Guarded)

section

variable [Crypto] [ClientCrates] {decode : String → Option DecodedHoldInvoice}
  {legacy : List SwapRecord} {calls : List ClientCall} {w : ClientWorld}

/-- **The wallet is asked to fund a swap at most once.** -/
theorem funds_at_most_once (h : History decode legacy calls w) (swapId : Uuid) :
    fundingsOf swapId w.runs ≤ 1 :=
  ((kept_of_history h).funded swapId).1

/-! ## What was agreed -/

section

variable (decode : String → Option DecodedHoldInvoice) (earlier : Uuid → Quote → ℕ → Prop)
  (calls : List ClientCall)

/-- The client agreed to the quote for the swap, under a floor of confirmations: in this
history, or earlier on another device. -/
def AgreedTo (w : ClientWorld) (swapId : Uuid) (quote : Quote) (floor : ℕ) : Prop :=
  Negotiated calls w.quotes swapId quote floor ∨ earlier swapId quote floor

/-- Every invoice a reverse swap's driver has asked the node to pay is for the hash of the
swap's record, and for exactly the total of a quote the client agreed to. -/
def PaysWhatWasAgreed (w : ClientWorld) : Prop :=
  ∀ run ∈ w.runs, ∀ claim n, run.start.execution = .reverse claim n →
    ∀ event ∈ run.log, ∀ invoice fee cltv,
      event.1 = .payInvoice invoice fee cltv ∨ event.1 = .spawnPayInvoice invoice fee cltv →
        ∃ rec hash quote floor, w.store run.start.swapId = some rec ∧
          rec.paymentHash = .ok hash ∧
          AgreedTo earlier calls w run.start.swapId quote floor ∧
          InvoiceBinds decode invoice hash quote

/-- Every reverse swap's driver has broadcast only after it had seen the one output that
pays the contract, worth the agreed amount and not too much more, as deep as was agreed
and as the client's floor demands, and right after it a tip with enough blocks left. -/
def HoldsBack (w : ClientWorld) : Prop :=
  ∀ run ∈ w.runs, ∀ claim n, run.start.execution = .reverse claim n →
    ∃ quote floor, AgreedTo earlier calls w run.start.swapId quote floor ∧
      claim.onchainAmountSat = quote.amountSat ∧
      Gated claim (max 1 (max quote.requiredConfirmations floor)) run.log

/-- A condition on every record on disk that was not negotiated here: a restore has written
it from a listing, or an older build has left it.  No such record is ever removed, or has
its terms changed, so this is about all that were written. -/
def EveryForeign (w : ClientWorld) (P : SwapRecord → Prop) : Prop :=
  ∀ swapId rec, w.store swapId = some rec → rec.swapRequest = none → P rec

/-- The invoice of a reverse record is for the hash of its preimage, and for exactly the
total of a quote the client agreed to for the swap. -/
def InvoiceAgreed (rec : SwapRecord) : Prop :=
  rec.direction = .reverse → ∀ preimage, rec.preimage = .ok (some preimage) →
    ∃ quote floor, earlier rec.swapId quote floor ∧
      InvoiceBinds decode rec.invoice (paymentHash preimage) quote

/-- The amount of a reverse record is the agreed one, and its number of confirmations is
neither below it nor below the client's floor. -/
def TermsAgreed (rec : SwapRecord) : Prop :=
  rec.direction = .reverse → ∃ quote floor, earlier rec.swapId quote floor ∧
    rec.onchainAmountSat = quote.amountSat ∧
    max 1 (max quote.requiredConfirmations floor) ≤ rec.requiredConfirmations

end

/-! ## Rebuilt records -/

theorem Rebuilt.listed {rec : SwapRecord} (h : Rebuilt calls rec) :
    ∃ target provider snapshots resolve snapshot keys,
      ClientCall.restore target provider snapshots resolve ∈ calls ∧ snapshot ∈ snapshots ∧
        ListedRecord snapshot keys rec := by
  obtain ⟨target, provider, snapshots, resolve, snapshot, keys, listed, hcall, hmem, -, hlisted,
    hterms⟩ := h
  refine ⟨target, provider, snapshots, resolve, snapshot, keys, hcall, hmem, ?_⟩
  have hview : ListedRecord snapshot keys rec ↔ ListedRecord snapshot keys rec.terms :=
    ⟨fun h => ⟨h.1, h.2, h.3, h.4, h.5, h.6, h.7⟩, fun h => ⟨h.1, h.2, h.3, h.4, h.5, h.6, h.7⟩⟩
  rw [hview, hterms]
  obtain ⟨h1, h2, h3, h4, h5, h6, h7⟩ := reverseRecord_eq_ok hlisted
  exact ⟨h1, h2, h3, h4, h5, h6, h7⟩

omit [Crypto] [ClientCrates] in
/-- Two readings of one preimage. -/
theorem preimage_unique {rec : SwapRecord} {preimage found : Preimage}
    (hhex : rec.preimageHex = some (Hex.encode preimage.val))
    (hread : rec.preimage = .ok (some found)) : found = preimage :=
  Option.some.inj (Except.ok.inj (hread.symm.trans (preimage_of_hex hhex)))

/-- A record that was not inherited is for the hash of the preimage it holds. -/
theorem Sourced.paymentHash_eq {quotes : List (QuoteRequest × Quote)} {rec : SwapRecord}
    {preimage : Preimage} (h : Sourced decode [] calls quotes rec)
    (hdirection : rec.direction = .reverse) (hpreimage : rec.preimage = .ok (some preimage)) :
    rec.paymentHash = .ok (paymentHash preimage) := by
  rcases h.reverse hdirection with ⟨_, _, held, -, hrec⟩ | ⟨-, hrebuilt | ⟨_, hmem, -⟩⟩
  · obtain rfl := preimage_unique hrec.preimageHex hpreimage
    exact paymentHash_of_hex hrec.hashHex
  · obtain ⟨_, _, _, _, _, _, -, -, hlisted⟩ := hrebuilt.listed
    obtain ⟨held, -, hhex, hhash⟩ := hlisted.preimage
    obtain rfl := preimage_unique hhex hpreimage
    exact paymentHash_of_hex hhash
  · cases hmem

/-! ## The client pays what it agreed to -/

/-- **A client pays what it agreed to**, as long as every record that was restored has the
invoice it agreed to. -/
theorem pays_what_was_agreed {earlier : Uuid → Quote → ℕ → Prop}
    (h : History decode [] calls w) (hrestored : EveryForeign w (InvoiceAgreed decode earlier)) :
    PaysWhatWasAgreed decode earlier calls w := by
  intro run hrun claim n hexec event hevent invoice fee cltv hpays
  have hkept := kept_of_history h
  obtain ⟨hgiven, ⟨rec, hstore, hdirection, hpreimage⟩, -, hpaid, -⟩ :=
    hkept.runs run hrun claim n hexec
  have hhash := (hkept.sourced _ rec hstore).paymentHash_eq hdirection hpreimage
  rw [hpaid event hevent invoice fee cltv hpays]
  rcases hgiven with ⟨quote, floor, hnegotiated, -, -, hbinds⟩ | ⟨old, hold, hrequest, hclaim, -⟩
  · exact ⟨rec, _, quote, floor, hstore, hhash, Or.inl hnegotiated, hbinds⟩
  · -- The driver was given what is on disk.
    obtain rfl : rec = old := Option.some.inj (hstore.symm.trans hold)
    obtain ⟨quote, floor, hearlier, hbinds⟩ :=
      hrestored _ rec hstore hrequest hdirection claim.preimage hpreimage
    refine ⟨rec, _, quote, floor, hstore, hhash, Or.inr ?_, ?_⟩
    · rw [← hkept.keyed _ rec hstore]
      exact hearlier
    · rw [(reverseClaimFromRecord_eq_ok hclaim).invoice]
      exact hbinds

/-! ## The client holds its preimage back -/

omit [Crypto] [ClientCrates] in
theorem one_le_floor (config : ClientConfig) (network : NetworkSpec) :
    1 ≤ (clientPolicy config network).minRequiredConfirmations := by
  show 1 ≤ if 0 < config.minConfirmations then config.minConfirmations
    else (ClientPolicy.forNetwork network {}).minRequiredConfirmations
  split
  · assumption
  · cases network <;> decide

omit [Crypto] [ClientCrates] in
theorem ReverseClaim.Open.weaken {claim : ReverseClaim} {deep shallow : ℕ} {log : List Event}
    (h : claim.Open deep log) (hle : shallow ≤ deep) : claim.Open shallow log := by
  obtain ⟨before, utxo, tip, after, heq, hlow, hhigh, hdeep, hsafe⟩ := h
  exact ⟨before, utxo, tip, after, heq, hlow, hhigh, hle.trans hdeep, hsafe⟩

omit [Crypto] [ClientCrates] in
theorem Gated.weaken {claim : ReverseClaim} {deep shallow : ℕ} {log : List Event}
    (h : Gated claim deep log) (hle : shallow ≤ deep) : Gated claim shallow log :=
  fun before event after heq hbroadcast => (h before event after heq hbroadcast).weaken hle

/-- **A client holds its preimage back** until it has seen what it agreed to, as long as
every record that was restored has the terms it agreed to. -/
theorem holds_back {earlier : Uuid → Quote → ℕ → Prop}
    (h : History decode [] calls w) (hrestored : EveryForeign w (TermsAgreed earlier)) :
    HoldsBack earlier calls w := by
  intro run hrun claim n hexec
  have hkept := kept_of_history h
  obtain ⟨hgiven, ⟨rec, hstore, hdirection, -⟩, hgated, -, -⟩ := hkept.runs run hrun claim n hexec
  rcases hgiven with ⟨quote, floor, hnegotiated, hdeep, hamount, -⟩ |
    ⟨old, hold, hrequest, hclaim, hdeep⟩
  · refine ⟨quote, floor, Or.inl hnegotiated, hamount, hgated.weaken ?_⟩
    obtain ⟨config, network, _, _, _, _, -, -, -, -, rfl⟩ := hnegotiated
    have hfloor := one_le_floor config network
    rw [hdeep]
    omega
  · obtain rfl : rec = old := Option.some.inj (hstore.symm.trans hold)
    obtain ⟨quote, floor, hearlier, hamount, hterms⟩ :=
      hrestored _ rec hstore hrequest hdirection
    refine ⟨quote, floor, Or.inr ?_, ?_, hgated.weaken ?_⟩
    · rw [← hkept.keyed _ rec hstore]
      exact hearlier
    · rw [(reverseClaimFromRecord_eq_ok hclaim).amount, hamount]
    · rw [hdeep]
      exact hterms

end

/-! ## A wallet that broadcasts and fails -/

namespace UnansweredFunding

local instance tables : Crypto := tableCrypto []

local instance crates : ClientCrates := plainCrates

def quote : Quote where
  quoteId := 1
  offerId := 0
  direction := .submarine
  amountSat := 100000
  feeSat := 700
  totalSat := 100700
  htlcTimeoutBlocks := 288
  fundWithinSecs := 600
  requiredConfirmations := 2
  protocolVersion := 1
  validUntilUnix := 1700000600

def accept : SwapAccept where
  quoteId := 1
  swapId := 7
  direction := .submarine
  onchainAmountSat := 100700
  timeoutBlockHeight := 800288
  providerPubkeyHex := Hex.encode (2 :: List.replicate 32 9)

/-- A provider that agrees, and a wallet whose funding fails. -/
def outside : Outside where
  listed := [7]
  answer
    | _, .now => (1700000000 : ℕ)
    | _, .quote _ => .ok quote
    | _, .makeBackend | _, .buildChain | _, .buildWallet => .ok ()
    | _, .createInvoice .. => .ok (Bytes32.ofNat 0, "invoice")
    | _, .tipHeight => .ok 800000
    | _, .create _ => .ok accept
    | _, .acknowledge _ => .ok ()
    | _, .drive .tipHeight => .ok 800000
    | _, op => absent op

theorem faithful : outside.Faithful fun _ => none where
  listed := List.nodup_singleton 7
  decodes _ _ _ h := by cases h

def negotiate : ClientCall :=
  .negotiate { providerPkarr := "provider", direction := .submarine, amountSat := 100000,
               electrumUrl := "electrum", walletMnemonicConfigured := true } .regtest "client"
    ⟨Bytes32.ofNat 5, Bytes32.ofNat 81, 3, Bytes32.ofNat 6, 7⟩

def started : ClientWorld := (negotiate.program 1).play outside ⟨fun _ => none, [], []⟩

def resumed : ClientWorld := ((ClientCall.resume true 10000).program 1).play outside started

theorem history_resumed :
    History (fun _ => none) [] [.resume true 10000, negotiate] resumed :=
  have hempty (swapId : Uuid) (rec : SwapRecord) (h : (none : Option SwapRecord) = some rec) :
      rec.swapId = swapId ∧ rec ∈ [] ∧ rec.swapRequest = none := by cases h
  .call (.call (.start (fun _ => none) hempty) negotiate 1 (fun _ _ => ⟨rfl, nofun⟩)
    (reaches_play faithful (negotiate.program 1) _)) (.resume true 10000) 1 (fun _ h => by cases h)
    (reaches_play faithful ((ClientCall.resume true 10000).program 1) _)

/-- The general statement at a swap that was resumed after its funding had failed. -/
theorem funds_at_most_once_unanswered :
    resumed.runs.length = 2 ∧ fundingsOf 7 started.runs = 1 ∧ fundingsOf 7 resumed.runs ≤ 1 :=
  have hruns : resumed.runs.length = 2 ∧ fundingsOf 7 started.runs = 1 := by decide +kernel
  ⟨hruns.1, hruns.2, funds_at_most_once history_resumed 7⟩

end UnansweredFunding

/-! ## Two listings of one swap -/

namespace ListingTrusted

local instance tables : Crypto := tableCrypto []

local instance crates : ClientCrates := plainCrates

/-- What the invoices say: one is for the swap, the other is the provider's. -/
def decode (invoice : String) : Option DecodedHoldInvoice :=
  if invoice = "agreed" then some ⟨Bytes32.ofNat 0, 100700000, true, 0⟩
  else if invoice = "chosen" then some ⟨Bytes32.ofNat 99, 5000000000, true, 0⟩
  else none

/-- The swap, as a provider lists it. -/
def snapshot (scriptType : SwapScript) (invoice : String) (requiredConfirmations : ℕ) :
    SwapStatusSnapshot where
  accept :=
    { scriptType := scriptType
      quoteId := 1
      swapId := 7
      direction := .reverse
      onchainAmountSat := 100000
      timeoutBlockHeight := 800100
      providerPubkeyHex := Hex.encode (2 :: List.replicate 32 9)
      invoice := some invoice }
  network := .regtest
  state := .created
  requiredConfirmations := requiredConfirmations
  updatedAtUnix := 0
  observedAtUnix := 0

def keys : RestoredKeys := ⟨Bytes32.ofNat 5, some (Bytes32.ofNat 81)⟩

def target : Restore := ⟨.regtest, [0x51], 2⟩

/-- The quote the client agreed to for the swap, on another device. -/
def quote : Quote where
  quoteId := 1
  offerId := 0
  direction := .reverse
  amountSat := 100000
  feeSat := 700
  totalSat := 100700
  htlcTimeoutBlocks := 144
  fundWithinSecs := 3600
  requiredConfirmations := 2
  protocolVersion := 1
  validUntilUnix := 1700003600

def earlier (swapId : Uuid) (agreed : Quote) (floor : ℕ) : Prop :=
  swapId = 7 ∧ agreed = quote ∧ floor = 1

/-- A node that knows of no payment, and a chain on which the output has just been seen. -/
def outside : Outside where
  listed := [7]
  answer
    | _, .drive (.findOutputs _) => .ok [⟨⟨3, 0⟩, 100000, 0⟩]
    | _, .drive .tipHeight => .ok 800000
    | _, op => absent op

theorem faithful : outside.Faithful decode where
  listed := List.nodup_singleton 7
  decodes _ _ _ h := by cases h

/-- A wallet is restored from the listing. -/
def restore (listed : SwapStatusSnapshot) : ClientCall :=
  .restore target "provider" [listed] fun _ => some keys

/-- What its unfinished swaps are driven with. -/
def resume : ClientCall := .resume false 10000

/-- The world after a restore, and after the swap was resumed. -/
def restored (listed : SwapStatusSnapshot) : ClientWorld :=
  ((restore listed).program 1).play outside ⟨fun _ => none, [], []⟩

def resumed (listed : SwapStatusSnapshot) : ClientWorld :=
  (resume.program 1).play outside (restored listed)

theorem history_restored (listed : SwapStatusSnapshot) :
    History decode [] [restore listed] (restored listed) :=
  have hempty (swapId : Uuid) (rec : SwapRecord) (h : (none : Option SwapRecord) = some rec) :
      rec.swapId = swapId ∧ rec ∈ [] ∧ rec.swapRequest = none := by cases h
  .call (.start (fun _ => none) hempty) (restore listed) 1 (fun _ h => by cases h)
    (reaches_play faithful ((restore listed).program 1) _)

theorem history_resumed (listed : SwapStatusSnapshot) :
    History decode [] [resume, restore listed] (resumed listed) :=
  .call (history_restored listed) resume 1 (fun _ h => by cases h)
    (reaches_play faithful (resume.program 1) _)

/-- Whether the driver of the reverse swap has made such a call. -/
def made (w : ClientWorld) (call : Op → Bool) : Bool :=
  w.runs.any fun run =>
    match run.start.execution with
    | .reverse _ _ => run.start.swapId = 7 && run.log.any fun event => call event.1
    | .submarine _ => false

theorem exists_of_made {w : ClientWorld} {call : Op → Bool} (h : made w call = true) :
    ∃ run ∈ w.runs, run.start.swapId = 7 ∧ (∃ claim n, run.start.execution = .reverse claim n) ∧
      ∃ event ∈ run.log, call event.1 = true := by
  obtain ⟨run, hrun, hmade⟩ := List.any_eq_true.mp h
  refine ⟨run, hrun, ?_⟩
  split at hmade
  · rename_i claim n hexec
    obtain ⟨hid, hevent⟩ := Bool.and_eq_true_iff.mp hmade
    exact ⟨of_decide_eq_true hid, ⟨claim, n, hexec⟩, List.any_eq_true.mp hevent⟩
  · cases hmade

/-- **A listed invoice is paid unread**: it is not even for the hash of the swap's record,
whatever the client had agreed to before. -/
theorem pays_the_listed_invoice :
    History decode [] [resume, restore (snapshot .taprootBoltz "chosen" 2)]
        (resumed (snapshot .taprootBoltz "chosen" 2)) ∧
      ¬PaysWhatWasAgreed decode (fun _ _ _ => True)
        [resume, restore (snapshot .taprootBoltz "chosen" 2)]
        (resumed (snapshot .taprootBoltz "chosen" 2)) := by
  refine ⟨history_resumed _, fun hpays => ?_⟩
  obtain ⟨hmade, hrecord⟩ :
      made (resumed (snapshot .taprootBoltz "chosen" 2))
          (fun op => op = .spawnPayInvoice "chosen" 10000 none) = true ∧
        ((resumed (snapshot .taprootBoltz "chosen" 2)).store 7).map SwapRecord.paymentHash =
          some (.ok (Bytes32.ofNat 0)) := by decide +kernel
  obtain ⟨run, hrun, hid, ⟨claim, n, hexec⟩, event, hevent, hcall⟩ := exists_of_made hmade
  obtain ⟨rec, hash, quote, floor, hstore, hhash, -, decoded, hdecoded, hbound, -⟩ :=
    hpays run hrun claim n hexec event hevent "chosen" 10000 none (Or.inr (of_decide_eq_true hcall))
  rw [hid] at hstore
  rw [hstore, Option.map_some, hhash, Option.some.injEq, Except.ok.injEq] at hrecord
  cases hdecoded
  exact absurd (hbound.trans hrecord) (by decide)

/-- A swap that was restored is listed once more, and passed by. -/
def relisted (first second : SwapStatusSnapshot) : ClientWorld :=
  (resume.program 1).play outside (((restore second).program 1).play outside (restored first))

theorem history_relisted (first second : SwapStatusSnapshot) :
    History decode [] [resume, restore second, restore first] (relisted first second) :=
  .call (.call (history_restored first) (restore second) 1 (fun _ h => by cases h)
    (reaches_play faithful ((restore second).program 1) _)) resume 1 (fun _ h => by cases h)
    (reaches_play faithful (resume.program 1) _)

/-- Whether the call lists no other swap, and negotiates none. -/
def onlySeven : ClientCall → Bool
  | .restore _ _ snapshots _ => snapshots.all fun listed => listed.accept.swapId = 7
  | .resume .. => true
  | _ => false

/-- If all that is listed is one swap, all that was restored is. -/
theorem everyForeign_of_onlySeven {calls : List ClientCall} {w : ClientWorld}
    {P : SwapRecord → Prop} (h : History decode [] calls w) (hcalls : calls.all onlySeven = true)
    (hrec : ∀ rec, w.store 7 = some rec → P rec) : EveryForeign w P := by
  intro swapId rec hstore hrequest
  have hkept := kept_of_history h
  have hid : swapId = 7 := by
    rw [← hkept.keyed swapId rec hstore]
    rcases hkept.sourced swapId rec hstore with ⟨hsome, -⟩ | ⟨-, hrebuilt | ⟨_, hmem, -⟩⟩
    · rw [hrequest] at hsome
      cases hsome
    · obtain ⟨_, _, _, _, listed, _, hcall, hlisted, hsame⟩ := hrebuilt.listed
      rw [hsame.swapId]
      exact of_decide_eq_true
        (List.all_eq_true.mp (List.all_eq_true.mp hcalls _ hcall) listed hlisted)
    · cases hmem
  subst hid
  exact hrec rec hstore

/-- The general statement at a swap that was restored with the agreed invoice, and is then
listed with another one. -/
theorem pays_what_was_agreed_relisted :
    PaysWhatWasAgreed decode earlier
      [resume, restore (snapshot .taprootBoltz "chosen" 2),
        restore (snapshot .taprootBoltz "agreed" 2)]
      (relisted (snapshot .taprootBoltz "agreed" 2) (snapshot .taprootBoltz "chosen" 2)) := by
  refine pays_what_was_agreed (history_relisted _ _) (everyForeign_of_onlySeven
    (history_relisted _ _) rfl fun rec hstore => ?_)
  have hsaved : ((relisted (snapshot .taprootBoltz "agreed" 2)
        (snapshot .taprootBoltz "chosen" 2)).store 7).map
          (fun rec => (rec.swapId, rec.invoice, rec.preimageHex)) =
      some (7, "agreed", some (Hex.encode (Bytes32.ofNat 81).val)) := by decide +kernel
  rw [hstore, Option.map_some, Option.some.injEq, Prod.mk.injEq, Prod.mk.injEq] at hsaved
  obtain ⟨hid, hinvoice, hhex⟩ := hsaved
  intro _ preimage hpreimage
  obtain rfl := preimage_unique hhex hpreimage
  rw [hid, hinvoice]
  exact ⟨quote, 1, ⟨rfl, rfl, rfl⟩, ⟨Bytes32.ofNat 0, 100700000, true, 0⟩, rfl, by decide, rfl, rfl⟩

/-- Whether the event shows no output that is in a block. -/
def inMempool : Event → Bool
  | ⟨.findOutputs _, .ok outputs⟩ => outputs.all fun utxo => utxo.confirmations = 0
  | _ => true

/-- **A listing decides how deep is deep enough**: the preimage is on the wire for an
output that is in no block. -/
theorem reveals_for_the_mempool :
    History decode [] [resume, restore (snapshot .p2wsh "agreed" 0)]
      (resumed (snapshot .p2wsh "agreed" 0)) ∧
      ¬HoldsBack (fun _ _ _ => True) [resume, restore (snapshot .p2wsh "agreed" 0)]
        (resumed (snapshot .p2wsh "agreed" 0)) := by
  refine ⟨history_resumed _, fun hholds => ?_⟩
  obtain ⟨hmade, hshallow⟩ :
      made (resumed (snapshot .p2wsh "agreed" 0)) Op.broadcasts = true ∧
        (resumed (snapshot .p2wsh "agreed" 0)).runs.all (fun run => run.log.all inMempool) =
          true := by decide +kernel
  obtain ⟨run, hrun, -, ⟨claim, n, hexec⟩, event, hevent, hcall⟩ := exists_of_made hmade
  obtain ⟨quote, floor, -, -, hgated⟩ := hholds run hrun claim n hexec
  obtain ⟨before, after, hlog⟩ := List.append_of_mem hevent
  obtain ⟨start, utxo, tip, rest, rfl, -, -, hdeep, -⟩ := hgated before event after hlog hcall
  have hseen := List.all_eq_true.mp (List.all_eq_true.mp hshallow run hrun)
    ⟨.findOutputs claim.htlcSpk, .ok [utxo]⟩ (by rw [hlog]; simp)
  have hzero : utxo.confirmations = 0 := by simpa [inMempool] using hseen
  omega

/-- The general statement at a swap that was restored with the agreed terms, and is then
listed with others. -/
theorem holds_back_relisted :
    HoldsBack earlier
      [resume, restore (snapshot .p2wsh "agreed" 0), restore (snapshot .taprootBoltz "agreed" 2)]
      (relisted (snapshot .taprootBoltz "agreed" 2) (snapshot .p2wsh "agreed" 0)) := by
  refine holds_back (history_relisted _ _) (everyForeign_of_onlySeven (history_relisted _ _) rfl
    fun rec hstore => ?_)
  have hsaved : ((relisted (snapshot .taprootBoltz "agreed" 2)
        (snapshot .p2wsh "agreed" 0)).store 7).map
          (fun rec => (rec.swapId, rec.onchainAmountSat, rec.requiredConfirmations)) =
      some (7, 100000, 2) := by decide +kernel
  rw [hstore, Option.map_some, Option.some.injEq, Prod.mk.injEq, Prod.mk.injEq] at hsaved
  obtain ⟨hid, hamount, hdeep⟩ := hsaved
  intro _
  rw [hid, hamount, hdeep]
  exact ⟨quote, 1, ⟨rfl, rfl, rfl⟩, rfl, by decide⟩

end ListingTrusted

end PubkySwap
