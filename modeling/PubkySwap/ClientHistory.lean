import PubkySwap.ClientDriverRun

/-!
# What a client's operations keep

Each of the four operations keeps the client's invariant, from whatever state the
operations before it have left, and wherever it is cut off.  What carries them is what
an operation remembers of its own reads: a fresh negotiation that its record is there
and that nothing has been funded for it, a recovery and a resume that the records they
read still belong to the agreements on disk.

`kept_of_history` puts them together: the invariant holds in every history.
-/

namespace PubkySwap

open BitcoinScript (Bytes)
open Program (orThrow Sound OnOk OnlyCalls sound_orThrow_bind)

/-! ## Calls that leave the world alone -/

/-- Calls that neither write nor drive. -/
def ClientOp.idle : ClientOp → Prop
  | .put _ | .quote _ | .execute _ | .drive _ => False
  | _ => True

section

variable {decode : String → Option DecodedHoldInvoice} {w w' : ClientWorld}

/-- An idle call leaves the store, the quotes and the runs as they are, whatever it is
answered. -/
theorem ClientOp.idle.same {op : ClientOp} {answer : ClientAns op} (h : op.idle)
    (hmove : Moves decode w op answer w') : w' = w := by
  cases op with
  | put _ | quote _ | execute _ | drive _ => exact h.elim
  | get _ | loadAll | loadAllChecked | decodeInvoice _ => exact hmove.1
  | _ => exact hmove

/-- A program of such calls. -/
abbrev OnlyIdles {α : Type} (p : ClientProgram α) : Prop := OnlyCalls ClientOp.idle p

/-- A part of an operation that makes only idle calls keeps whatever holds. -/
theorem OnlyIdles.sound {α : Type} {p : ClientProgram α} (h : OnlyIdles p) {I : ClientWorld → Prop}
    (hw : I w) : Sound (Moves decode) I (OnOk fun _ w' => w' = w ∧ I w') p w := by
  refine Sound.mono (fun s hs => hs.2) ?_
    (OnlyCalls.sound (I := fun w' => w' = w ∧ I w') ?_ h ⟨rfl, hw⟩)
  · rintro w' r - hr
    cases r with
    | ok a => exact hr
    | error e => trivial
  · rintro w₁ op answer w₂ hop ⟨rfl, hI⟩ hmove
    rw [hop.same hmove]
    exact ⟨rfl, hI⟩

/-- An idle part of an operation. -/
theorem OnlyIdles.sound_bind {α β : Type} {p : ClientProgram α} {f : α → ClientProgram β}
    {I : ClientWorld → Prop} {P : β → ClientWorld → Prop} (h : OnlyIdles p) (hw : I w)
    (hf : ∀ a, Sound (Moves decode) I (OnOk P) (f a) w) :
    Sound (Moves decode) I (OnOk P) (p.bind f) w := by
  refine Sound.bindOk (h.sound hw) ?_
  rintro w' a - ⟨rfl, -⟩
  exact hf a

/-- A call whose failure ends the operation is idle if it is idle. -/
theorem idle_fallible {α ε : Type} (op : ClientOp) (h : op.idle)
    (result : ClientAns op → Except ε α) (convert : ε → DriverError) :
    OnlyIdles (.call op fun answer => orThrow convert (result answer)) :=
  ⟨h, fun _ => Program.onlyCalls_orThrow _ _⟩

/-- Asking the wallet for an address writes nothing. -/
theorem idle_walletDestination : OnlyIdles walletDestination := ⟨trivial, fun _ => trivial⟩

/-- Asking for the offer and checking it writes nothing. -/
theorem idle_checkOffer (config : ClientConfig) : OnlyIdles (checkOffer config) := by
  unfold checkOffer
  split
  · exact ⟨trivial, fun answer => Program.onlyCalls_orThrow_bind fun _ _ => by simp⟩
  · trivial

/-- Reading the tip before a creation writes nothing. -/
theorem idle_creationTip (config : ClientConfig) : OnlyIdles (creationTip config) := by
  unfold creationTip
  split
  · trivial
  · refine OnlyCalls.bind (fun _ => ?_) (idle_fallible .buildChain trivial id _)
    exact OnlyCalls.bind (fun _ => Program.onlyCalls_pure _)
      (idle_fallible .tipHeight trivial id _)

/-- Reading it before a recovery writes nothing either, also where no chain can be built. -/
theorem idle_recoveryTip : OnlyIdles recoveryTip := by
  refine ⟨trivial, fun answer => ?_⟩
  cases answer with
  | error e => trivial
  | ok built => exact ⟨trivial, fun _ => Program.onlyCalls_orThrow_bind fun _ _ => trivial⟩

/-- A request that has been saved is repeated as it is: no write comes with it. -/
theorem idle_repeatRequest (rec : SwapRecord) (request : SwapRequest) :
    OnlyIdles (repeatRequest rec request) := by
  unfold repeatRequest
  split
  · exact idle_fallible (.recoverCreation request) trivial id _
  · exact idle_fallible (.create request) trivial id _

variable [ClientCrates]

/-- Deciding where a claim is paid to writes nothing. -/
theorem idle_claimDestination (config : ClientConfig) (network : NetworkSpec) :
    OnlyIdles (claimDestination config network) := by
  unfold claimDestination
  split
  · exact OnlyCalls.bind (fun _ => idle_walletDestination)
      (idle_fallible .buildWallet trivial id _)
  · simp

/-- Reading back where it is paid to, or deciding it for a record without a destination,
writes nothing. -/
theorem idle_recoveryDestination (config : ClientConfig) (network : NetworkSpec)
    (rec : SwapRecord) : OnlyIdles (recoveryDestination config network rec) := by
  refine Program.onlyCalls_orThrow_bind fun found _ => ?_
  cases found with
  | some destination => trivial
  | none =>
      dsimp only
      split
      · simp
      · exact OnlyCalls.bind (fun _ => idle_walletDestination)
          (idle_fallible .buildWallet trivial id _)

end

/-! ## Negotiating -/

section

variable [Crypto] [ClientCrates] {decode : String → Option DecodedHoldInvoice}
  {legacy : List SwapRecord} {calls : List ClientCall} {w : ClientWorld} {swapId : Uuid}
  {agreed : SwapRecord}
  {quote : Quote} {floor : ℕ} {J : ClientWorld → Prop}

/-- What a negotiation remembers of its swap: what was agreed, under which quote, and
that nothing has been funded or paid for it. -/
structure Agreed (calls : List ClientCall) (swapId : Uuid) (agreed : SwapRecord) (quote : Quote)
    (floor : ℕ) (w : ClientWorld) : Prop where
  agreement : w.agreementAt swapId = some agreed
  requested : agreed.swapRequest.isSome
  unfunded : fundingsOf swapId w.runs = 0
  unpaid : NeverPaid swapId w.runs
  negotiated : Negotiated calls w.quotes swapId quote floor

omit [Crypto] [ClientCrates] in
/-- What was agreed is on record for good: no later write of this swap changes it. -/
theorem stable_agreed : Stable (Agreed calls swapId agreed quote floor) := by
  intro w rec old hold hcont hw
  exact { hw with
    agreement := stable_agreementAt swapId (some agreed) w rec old hold hcont hw.agreement }

omit [Crypto] [ClientCrates] in
/-- The swap's driver may be started as a first run. -/
theorem Agreed.first (h : Agreed calls swapId agreed quote floor w) :
    NeverPaid swapId w.runs ∧ ∃ rec, w.store swapId = some rec ∧ rec.swapRequest.isSome := by
  obtain ⟨rec, hrec, hagree⟩ := Option.map_eq_some_iff.mp h.agreement
  refine ⟨h.unpaid, rec, hrec, ?_⟩
  show rec.agreement.swapRequest.isSome
  rw [hagree]
  exact h.requested

omit [Crypto] [ClientCrates] in
/-- The rule for reading an invoice. -/
theorem sound_decodeInvoice_bind {α : Type} {I : ClientWorld → Prop}
    {P : α → ClientWorld → Prop} {what invoice : String} {f : DecodedHoldInvoice → ClientProgram α}
    (hw : I w)
    (hf : ∀ decoded, decode invoice = some decoded →
      Sound (Moves decode) I (OnOk P) (f decoded) w) :
    Sound (Moves decode) I (OnOk P) ((decodeInvoice what invoice).bind f) w := by
  refine ⟨hw, fun answer w' hmove => ?_⟩
  obtain ⟨rfl, hdecoded⟩ := hmove
  exact sound_orThrow_bind hw (fun _ _ => trivial) fun decoded hanswer =>
    hf decoded (hdecoded decoded hanswer)

/-- What has to be known of a swap before its first record is written. -/
structure NewClientSwap.Proper (calls : List ClientCall) (swap : NewClientSwap) (quote : Quote)
    (floor : ℕ) (w : ClientWorld) : Prop where
  fresh : w.store swap.swapId = none
  negotiated : Negotiated calls w.quotes swap.swapId quote floor
  reverse : swap.direction = .reverse → quote.direction = .reverse ∧
    swap.requiredConfirmations = max quote.requiredConfirmations floor ∧
    ∃ preimage, swap.preimage = some preimage ∧ swap.paymentHash = PubkySwap.paymentHash preimage

/-- The record a negotiation starts with. -/
def NewClientSwap.intent (swap : NewClientSwap) (quote : Quote) (request : SwapRequest) :
    SwapRecord :=
  { clientRecord swap with swapRequest := some request, clientQuote := some quote }

/-- **The first write of a swap.** -/
theorem sound_recordNegotiationIntent {swap : NewClientSwap} {request : SwapRequest}
    (hw : Kept decode legacy calls w) (hswap : swap.Proper calls quote floor w) :
    Sound (Moves decode) (Kept decode legacy calls)
      (OnOk fun _ w' =>
        Agreed calls swap.swapId (swap.intent quote request).agreement quote floor w')
      (recordNegotiationIntent swap quote request) w := by
  unfold recordNegotiationIntent
  split
  · exact ⟨hw, trivial⟩
  have hsourced : Sourced decode legacy calls w.quotes (swap.intent quote request) := by
    refine Or.inl ⟨rfl, ⟨rfl, nofun⟩, fun hdirection => ?_⟩
    obtain ⟨hquote, hconfirmations, preimage, hpreimage, hhash⟩ := hswap.reverse hdirection
    refine ⟨quote, floor, preimage, rfl, hswap.negotiated, hconfirmations, hquote, ?_, ?_,
      nofun, nofun⟩
    · exact congrArg (Option.map fun preimage => Hex.encode preimage.val) hpreimage
    · exact congrArg (fun hash => Hex.encode hash.val) hhash
  have hunfunded : fundingsOf swap.swapId w.runs = 0 := by
    rcases (hw.funded swap.swapId).2 with hnone | ⟨rec, hrec, -⟩
    · exact hnone
    · rw [hswap.fresh] at hrec
      cases hrec
  have hunpaid : NeverPaid swap.swapId w.runs := by
    rcases hw.paid swap.swapId with hnone | ⟨rec, hrec, -⟩
    · exact hnone
    · rw [hswap.fresh] at hrec
      cases hrec
  refine sound_persist_of hw fun existing unix => ?_
  have hfresh (old : SwapRecord) (hold : w.store swap.swapId = some old) : False := by
    rw [hswap.fresh] at hold
    cases hold
  have hkept : Kept decode legacy calls
      (w.write ((swap.intent quote request).stamped existing unix)) :=
    hw.write (hsourced.of_terms rfl) fun old hold => (hfresh old hold).elim
  refine ⟨hkept, ?_, rfl, hunfunded, hunpaid,
    hswap.negotiated⟩
  show Option.map SwapRecord.agreement ((w.write
    ((swap.intent quote request).stamped existing unix)).store swap.swapId) = _
  rw [ClientWorld.store_write]
  exact congrArg (Option.map SwapRecord.agreement) (if_pos rfl)

/-- The creation is marked as started and the request sent; the reply is saved before it is
acted on. -/
theorem sound_createSwap (hJ : Stable J) (hw : Keeps decode legacy calls J w)
    (request : SwapRequest)
    (tip : Option ℕ) :
    Sound (Moves decode) (Keeps decode legacy calls J) (OnOk fun _ _ => True)
      (createSwap swapId request tip) w := by
  refine Sound.bindOk (sound_recordCreationStarted hJ hw tip) fun w₁ _ hw₁ _ => ?_
  refine (idle_fallible (.create request) trivial id _).sound_bind hw₁ fun accept => ?_
  refine Sound.bindOk (sound_recordCreationReply hJ hw₁ _ accept) fun w₂ _ hw₂ _ => ?_
  exact (idle_fallible (.acknowledge request) trivial id _).sound_bind hw₂
    fun _ => ⟨hw₂, trivial⟩

omit [Crypto] [ClientCrates] in
/-- A property that holds of every store is kept by the run of any driver. -/
theorem steady_always (swapId : Uuid) : Steady swapId fun _ => True :=
  fun _ _ _ _ _ _ _ => trivial

omit [Crypto] [ClientCrates] in
/-- Nor can a write end it. -/
theorem stable_always : Stable fun _ => True := fun _ _ _ _ _ _ => trivial

/-- An operation that ends by writing the outcome down. -/
theorem sound_outcome (hw : Kept decode legacy calls w) (state : SwapState) :
    Sound (Moves decode) (Kept decode legacy calls) (OnOk fun _ _ => True)
      (bestEffort (recordTerminal swapId state)) w := by
  refine Sound.mono (fun _ h => h.1) (fun _ r _ _ => by cases r <;> trivial)
    (sound_bestEffort (sound_recordTerminal stable_always ⟨hw, trivial⟩ state))

/-- What an operation remembers is still there when it goes on. -/
theorem sound_remember_bind {α β : Type} {P : α → ClientWorld → Prop} {P' : β → ClientWorld → Prop}
    {p : ClientProgram α} {f : α → ClientProgram β}
    (h : Sound (Moves decode) (Keeps decode legacy calls J) (OnOk P) p w)
    (hf : ∀ w' a, Keeps decode legacy calls J w' →
      Sound (Moves decode) (Kept decode legacy calls) (OnOk P') (f a) w') :
    Sound (Moves decode) (Kept decode legacy calls) (OnOk P') (p.bind f) w := by
  have hkeeps : Sound (Moves decode) (Kept decode legacy calls)
      (fun w' _ => Keeps decode legacy calls J w') p w :=
    Sound.mono (fun _ hw => hw.1) (fun _ _ hw _ => hw) h
  exact Sound.bind (fun w' a _ hw => hf w' a hw) (fun _ _ _ _ => trivial) hkeeps

omit [Crypto] [ClientCrates] in
/-- A preimage is read back from its hex text. -/
theorem preimage_of_hex {rec : SwapRecord} {preimage : Preimage}
    (h : rec.preimageHex = some (Hex.encode preimage.val)) :
    rec.preimage = .ok (some preimage) := by
  unfold SwapRecord.preimage
  rw [h]
  dsimp only
  rw [Hex.decode_encode]
  exact dif_pos preimage.property

/-- The script of a verified contract is the HTLC of the acceptance. -/
theorem verifyP2wshContract_eq_ok {accept : SwapAccept} {direction : SwapDirection}
    {hash : PaymentHash} {ours : PublicKey} {network : NetworkSpec} {script spk : Bytes}
    (h : verifyP2wshContract accept direction hash ours network = .ok (script, spk)) :
    accept.scriptType = .p2wsh ∧ ∃ provider, script =
      buildHtlcScript hash (branchKeys direction ours provider).1
        (branchKeys direction ours provider).2 accept.timeoutBlockHeight := by
  unfold verifyP2wshContract at h
  split at h
  · cases h
  rename_i htype
  obtain ⟨found, -, h⟩ := bind_eq_ok h
  obtain ⟨provider, -, h⟩ := bind_eq_ok h
  cases direction <;> cases h <;> exact ⟨not_not.mp htype, provider, rfl⟩

/-- The script a fresh negotiation has verified. -/
theorem scriptOf_of_verify {accept : SwapAccept} {hash : PaymentHash} {key : SecretKey}
    {direction : SwapDirection} {network : NetworkSpec} {script spk : Bytes}
    (hhash : agreed.paymentHashHex = Hex.encode hash.val)
    (hkey : agreed.secretKeyHex = Hex.encode key.val) (hdirection : agreed.direction = direction)
    (h : verifyP2wshContract accept direction hash (ClientCrates.publicKey key) network =
      .ok (script, spk)) : ScriptOf agreed accept script := by
  obtain ⟨htype, provider, hscript⟩ := verifyP2wshContract_eq_ok h
  refine ⟨hash, key, provider, paymentHash_of_hex hhash, Or.inr ?_, htype, ?_⟩
  · rw [hkey, Hex.decode_encode]
  · rw [hdirection, hscript]

/-- **The last checks of a reverse swap, and its driver.** -/
theorem sound_executeNegotiatedReverse {config : ClientConfig} {network : NetworkSpec}
    {draws : Draws} {accept : SwapAccept} {tip : Option ℕ} {script spk : Bytes} {fuel : ℕ}
    (hw : Keeps decode legacy calls (Agreed calls draws.swapId agreed quote
      (clientPolicy config network).minRequiredConfirmations) w)
    (hquote : agreed.clientQuote = some quote)
    (hhash : agreed.paymentHashHex = Hex.encode (paymentHash draws.preimage).val)
    (hown : agreed.direction = .reverse ∧ agreed.preimage = .ok (some draws.preimage))
    (hamount : accept.onchainAmountSat = quote.amountSat)
    (hscript : ScriptOf agreed accept script) :
    Sound (Moves decode) (Kept decode legacy calls) (OnOk fun _ _ => True)
      (executeNegotiatedReverse config network draws quote accept tip script spk fuel) w := by
  unfold executeNegotiatedReverse
  refine sound_orThrow_bind hw.1 (fun _ _ => trivial) fun invoice hinvoice => ?_
  rw [okOr_eq_ok] at hinvoice
  refine (idle_claimDestination config network).sound_bind hw.1 fun destSpk => ?_
  refine (idle_fallible .makeBackend trivial id _).sound_bind hw.1 fun _ => ?_
  refine sound_orThrow_bind hw.1 (fun _ _ => trivial) fun _ _ => ?_
  refine sound_decodeInvoice_bind hw.1 fun decoded hdecoded => ?_
  refine ⟨hw.1, fun unix w' hmove => ?_⟩
  obtain rfl : w' = w := hmove
  refine sound_orThrow_bind hw.1 (fun _ _ => trivial) fun _ hvalid => ?_
  refine (idle_fallible .tipHeight trivial id _).sound_bind hw.1 fun currentTip => ?_
  refine sound_orThrow_bind hw.1 (fun _ _ => trivial) fun _ _ => ?_
  -- The invoice is bound to the quote, so the record may be made ready, and driven.
  have hbinds : InvoiceBinds decode invoice (paymentHash draws.preimage) quote :=
    ⟨decoded, hdecoded, amount_of_validateHoldInvoice hvalid⟩
  have haccept : Acceptable decode agreed accept :=
    ⟨quote, invoice, _, hquote, hinvoice, paymentHash_of_hex hhash, hbinds, hamount⟩
  refine sound_remember_bind (sound_recordAccept stable_agreed hw hw.2.agreement (fun _ => haccept)
    hscript destSpk) ?_
  rintro w₁ - ⟨hkept, hagreed⟩
  have hheld : w₁.HeldAt draws.swapId draws.preimage := by
    obtain ⟨rec, hrec, hagree⟩ := Option.map_eq_some_iff.mp hagreed.agreement
    refine ⟨rec, hrec, ?_⟩
    show rec.agreement.direction = .reverse ∧ rec.agreement.preimage = .ok (some draws.preimage)
    rw [hagree]
    exact hown
  refine Sound.bind (Q := fun w' _ => Kept decode legacy calls w') ?_ (fun _ _ _ _ => trivial)
    (Sound.attempt (fun _ _ hI _ => hI) (Sound.mono (fun _ h => h.1) (fun _ _ _ h => h)
      (sound_driveReverse stable_always (steady_always draws.swapId) hkept trivial trivial
        (Or.inl ⟨quote, _, hagreed.negotiated, rfl, rfl, hbinds⟩) hheld
        (Or.inr hagreed.unfunded) fun _ => hagreed.first)))
  rintro w₂ result - hw₂
  cases result with
  | ok txid => exact sound_outcome hw₂ .claimed
  | error e => exact ⟨hw₂, trivial⟩

/-- The reverse part of a negotiation. -/
theorem sound_negotiateReverse {config : ClientConfig} {network : NetworkSpec}
    {clientPkarr : String} {draws : Draws} {fuel : ℕ} (hw : Kept decode legacy calls w)
    (hfresh : w.store draws.swapId = none) (hdirection : quote.direction = .reverse)
    (hnegotiated : Negotiated calls w.quotes draws.swapId quote
      (clientPolicy config network).minRequiredConfirmations) :
    Sound (Moves decode) (Kept decode legacy calls) (OnOk fun _ _ => True)
      (negotiateReverse config network clientPkarr draws quote fuel) w := by
  unfold negotiateReverse
  refine Sound.bindOk (sound_recordNegotiationIntent hw ⟨hfresh, hnegotiated, fun _ =>
    ⟨hdirection, rfl, draws.preimage, rfl, rfl⟩⟩) ?_
  rintro w₁ - hw₁ hagreed
  refine (idle_creationTip config).sound_bind hw₁ fun tip => ?_
  refine sound_remember_bind (sound_createSwap stable_agreed ⟨hw₁, hagreed⟩ _ tip) ?_
  intro w₂ accept hw₂
  refine sound_orThrow_bind hw₂.1 (fun _ _ => trivial) fun _ hvalid => ?_
  refine sound_orThrow_bind hw₂.1 (fun _ _ => trivial) fun contract hcontract => ?_
  obtain ⟨script, spk⟩ := contract
  dsimp only
  split
  · exact ⟨hw₂.1, trivial⟩
  · refine sound_executeNegotiatedReverse hw₂ rfl rfl ⟨rfl, preimage_of_hex rfl⟩ ?_
      (scriptOf_of_verify rfl rfl rfl hcontract)
    rw [onchain_of_validateAccept hvalid, Quote.onchainAmountSat, hdirection]

/-- The last checks of a submarine swap, and its driver. -/
theorem sound_executeNegotiatedSubmarine {config : ClientConfig} {network : NetworkSpec}
    {draws : Draws} {hash : PaymentHash} {accept : SwapAccept} {script spk : Bytes} {fuel : ℕ}
    (hw : Keeps decode legacy calls (Agreed calls draws.swapId agreed quote floor) w)
    (hdirection : agreed.direction = .submarine) (hscript : ScriptOf agreed accept script) :
    Sound (Moves decode) (Kept decode legacy calls) (OnOk fun _ _ => True)
      (executeNegotiatedSubmarine config network draws quote hash accept script spk fuel) w := by
  unfold executeNegotiatedSubmarine
  refine (idle_fallible .buildWallet trivial id _).sound_bind hw.1 fun _ => ?_
  refine idle_walletDestination.sound_bind hw.1 fun destSpk => ?_
  refine (idle_fallible .tipHeight trivial id _).sound_bind hw.1 fun currentTip => ?_
  refine sound_orThrow_bind hw.1 (fun _ _ => trivial) fun _ _ => ?_
  have hnoReverse (h : agreed.direction = .reverse) : Acceptable decode agreed accept :=
    absurd (hdirection.symm.trans h) nofun
  refine sound_remember_bind (sound_recordAccept stable_agreed hw hw.2.agreement hnoReverse hscript
    destSpk) ?_
  rintro w₁ - ⟨hkept, hagreed⟩
  exact sound_remember_bind (sound_driveSubmarine stable_always (steady_always draws.swapId) hkept
    trivial trivial (Or.inr hagreed.unfunded)) fun w₂ state hw₂ => sound_outcome hw₂.1 state

/-- The submarine part of a negotiation. -/
theorem sound_runSubmarine {config : ClientConfig} {network : NetworkSpec} {clientPkarr : String}
    {draws : Draws} {fuel : ℕ} (hw : Kept decode legacy calls w)
    (hfresh : w.store draws.swapId = none)
    (hnegotiated : Negotiated calls w.quotes draws.swapId quote floor) :
    Sound (Moves decode) (Kept decode legacy calls) (OnOk fun _ _ => True)
      (runSubmarine config network clientPkarr draws quote fuel) w := by
  unfold runSubmarine
  split
  · exact ⟨hw, trivial⟩
  refine (idle_fallible .makeBackend trivial id _).sound_bind hw fun _ => ?_
  refine OnlyIdles.sound_bind ⟨trivial, fun _ => Program.onlyCalls_orThrow _ _⟩ hw fun created => ?_
  obtain ⟨hash, invoice⟩ := created
  refine Sound.bindOk (sound_recordNegotiationIntent hw ⟨hfresh, hnegotiated, nofun⟩) ?_
  rintro w₁ - hw₁ hagreed
  refine (idle_fallible .buildChain trivial id _).sound_bind hw₁ fun _ => ?_
  refine (idle_fallible .tipHeight trivial id _).sound_bind hw₁ fun tip => ?_
  refine sound_remember_bind (sound_createSwap stable_agreed ⟨hw₁, hagreed⟩ _ (some tip)) ?_
  intro w₂ accept hw₂
  refine sound_orThrow_bind hw₂.1 (fun _ _ => trivial) fun _ _ => ?_
  refine sound_orThrow_bind hw₂.1 (fun _ _ => trivial) fun contract hcontract => ?_
  exact sound_executeNegotiatedSubmarine hw₂ rfl (scriptOf_of_verify rfl rfl rfl hcontract)

/-- **A negotiation keeps the invariant.** -/
theorem sound_runNegotiation {config : ClientConfig} {network : NetworkSpec}
    {clientPkarr : String} {draws : Draws} {fuel : ℕ} (hw : Kept decode legacy calls w)
    (hcall : ClientCall.negotiate config network clientPkarr draws ∈ calls)
    (hfresh : w.store draws.swapId = none) :
    Sound (Moves decode) (Kept decode legacy calls) (OnOk fun _ _ => True)
      (runNegotiation config network clientPkarr draws fuel) w := by
  unfold runNegotiation
  refine (idle_checkOffer config).sound_bind hw fun _ => ?_
  refine ⟨hw, fun answer w₁ hmove => ?_⟩
  cases answer with
  | error e =>
      obtain rfl : w₁ = w := hmove
      exact ⟨hw, trivial⟩
  | ok quote =>
      have hw₁ (request : QuoteRequest) : Kept decode legacy calls (w.answered request quote) :=
        hw.answered request quote
      have hnegotiated (request : QuoteRequest) (unix : ℕ)
          (hvalid : validateQuote quote request unix (clientPolicy config network) = .ok ()) :
          Negotiated calls (w.answered request quote).quotes draws.swapId quote
            (clientPolicy config network).minRequiredConfirmations :=
        ⟨config, network, clientPkarr, draws, request, unix, hcall, rfl, List.mem_cons_self ..,
          hvalid, rfl⟩
      obtain rfl : w₁ = w.answered _ quote := hmove
      refine ⟨hw₁ _, fun unix w₂ hmove => ?_⟩
      obtain rfl : w₂ = w.answered _ quote := hmove
      refine sound_orThrow_bind (hw₁ _) (fun _ _ => trivial) fun _ hvalid => ?_
      split
      · exact ⟨hw₁ _, trivial⟩
      split
      · exact sound_runSubmarine (hw₁ _) hfresh (hnegotiated _ unix hvalid)
      · rename_i hdirection
        exact sound_negotiateReverse (hw₁ _) hfresh
          ((quoteBinds_of_validateQuote hvalid).direction.trans hdirection)
          (hnegotiated _ unix hvalid)

/-! ## Recovering negotiations -/

variable {config : ClientConfig} {network : NetworkSpec} {rec : SwapRecord} {accept : SwapAccept}

/-- A saved request that passes is the one of the record's quote, and of its direction. -/
theorem validateIntent_eq_ok (h : validateIntent rec = .ok quote) :
    rec.clientQuote = some quote ∧ quote.direction = rec.direction := by
  unfold validateIntent at h
  obtain ⟨request, -, h⟩ := bind_eq_ok h
  obtain ⟨saved, hsaved, h⟩ := bind_eq_ok h
  rw [okOr_eq_ok] at hsaved
  obtain ⟨key, -, h⟩ := bind_eq_ok h
  dsimp only at h
  split at h
  · cases h
  rename_i hmatches
  simp only [not_or, not_not] at hmatches
  have hquote : saved = quote := by
    split at h
    · obtain ⟨found, -, h⟩ := bind_eq_ok h
      obtain ⟨preimage, -, h⟩ := bind_eq_ok h
      obtain ⟨hash, -, h⟩ := bind_eq_ok h
      split at h
      · cases h
      · exact Except.ok.inj h
    · split at h
      · cases h
      · exact Except.ok.inj h
  subst hquote
  exact ⟨hsaved, hmatches.2.2.2.1⟩

/-- A recovered acceptance locks what the saved quote says, under the record's own script. -/
theorem validateContract_eq_ok {policy : ClientPolicy} {tip : Option ℕ} {script : Bytes}
    (h : validateContract rec accept network policy tip = .ok script) :
    (∃ quote, rec.clientQuote = some quote ∧ quote.direction = rec.direction ∧
      accept.onchainAmountSat = quote.onchainAmountSat) ∧ ScriptOf rec accept script := by
  unfold validateContract at h
  obtain ⟨quote, hintent, h⟩ := bind_eq_ok h
  obtain ⟨hquote, hdirection⟩ := validateIntent_eq_ok hintent
  split at h
  · cases h
  obtain ⟨_, hvalid, h⟩ := bind_eq_ok h
  refine ⟨⟨quote, hquote, hdirection, onchain_of_validateAccept (mapError_eq_ok.mp hvalid)⟩, ?_⟩
  obtain ⟨key, hkey, h⟩ := bind_eq_ok h
  obtain ⟨hash, hhash, h⟩ := bind_eq_ok h
  obtain ⟨⟨found, spk⟩, hcontract, h⟩ := bind_eq_ok h
  cases h
  obtain ⟨htype, provider, hscript⟩ := verifyP2wshContract_eq_ok (mapError_eq_ok.mp hcontract)
  exact ⟨hash, key, provider, hhash, Or.inl hkey, htype, hscript⟩

omit [Crypto] [ClientCrates] in
/-- The invoice of a recovered reverse swap is bound to its quote. -/
theorem sound_validateSavedInvoice {I : ClientWorld → Prop} {policy : ClientPolicy} (hw : I w) :
    Sound (Moves decode) I
      (OnOk fun _ w' => w' = w ∧ (rec.direction = .reverse → ∃ invoice hash,
        accept.invoice = some invoice ∧ rec.paymentHash = .ok hash ∧
          InvoiceBinds decode invoice hash quote))
      (validateSavedInvoice rec accept quote policy) w := by
  unfold validateSavedInvoice
  split
  · rename_i hdirection
    exact ⟨hw, rfl, fun h => absurd (hdirection.symm.trans h) nofun⟩
  · refine (idle_fallible .makeBackend trivial id _).sound_bind hw fun _ => ?_
    refine sound_orThrow_bind hw (fun _ _ => trivial) fun invoice hinvoice => ?_
    rw [okOr_eq_ok] at hinvoice
    refine sound_decodeInvoice_bind hw fun decoded hdecoded => ?_
    refine sound_orThrow_bind hw (fun _ _ => trivial) fun hash hhash => ?_
    refine ⟨hw, fun unix w' hmove => ?_⟩
    obtain rfl : w' = w := hmove
    dsimp only [Program.pure_bind]
    cases hvalid : validateHoldInvoice decoded quote hash unix policy with
    | error e => exact ⟨hw, trivial⟩
    | ok _ =>
        exact ⟨hw, rfl, fun _ => ⟨invoice, hash, hinvoice, hhash, decoded, hdecoded,
          amount_of_validateHoldInvoice hvalid⟩⟩

/-- **A recovered record is made ready** through the same checks as a fresh one. -/
theorem sound_acceptRecovered (hJ : Stable J) (hw : Keeps decode legacy calls J w)
    (hat : w.agreementAt rec.swapId = some rec.agreement) (tip : Option ℕ) :
    Sound (Moves decode) (Keeps decode legacy calls J) (OnOk fun _ _ => True)
      (acceptRecovered config network rec accept tip) w := by
  unfold acceptRecovered
  refine sound_orThrow_bind hw (fun _ _ => trivial) fun script hscript => ?_
  obtain ⟨⟨quote, hquote, hdirection, honchain⟩, hown⟩ := validateContract_eq_ok hscript
  refine sound_orThrow_bind hw (fun _ _ => trivial) fun currentTip _ => ?_
  refine sound_orThrow_bind hw (fun _ _ => trivial) fun _ _ => ?_
  refine sound_orThrow_bind hw (fun _ _ => trivial) fun saved hsaved => ?_
  rw [okOr_eq_ok, hquote, Option.some.injEq] at hsaved
  subst hsaved
  refine Sound.bindOk (sound_validateSavedInvoice hw) ?_
  rintro w₁ - - ⟨rfl, hbound⟩
  refine (idle_recoveryDestination config network rec).sound_bind hw fun destination => ?_
  have haccept (hreverse : rec.agreement.direction = .reverse) :
      Acceptable decode rec.agreement accept := by
    obtain ⟨invoice, hash, hinvoice, hhash, hbinds⟩ := hbound hreverse
    refine ⟨quote, invoice, hash, hquote, hinvoice, hhash, hbinds, ?_⟩
    rw [honchain, Quote.onchainAmountSat, hdirection.trans hreverse]
  exact Sound.mono (fun _ h => h) (fun _ r _ _ => by cases r <;> trivial)
    (sound_recordAccept hJ hw hat haccept hown destination)

/-- The acceptance is asked for again with the saved request, and saved before it is
acknowledged. -/
theorem sound_obtainAcceptance (hJ : Stable J) (hw : Keeps decode legacy calls J w)
    (tip : Option ℕ) :
    Sound (Moves decode) (Keeps decode legacy calls J) (OnOk fun _ _ => True)
      (obtainAcceptance rec tip) w := by
  refine sound_orThrow_bind hw (fun _ _ => trivial) fun request _ => ?_
  refine Sound.bindOk (sound_recordCreationStarted hJ hw tip) fun w₁ _ hw₁ _ => ?_
  refine (idle_repeatRequest rec request).sound_bind hw₁ fun accept => ?_
  refine Sound.bindOk (sound_recordCreationReply hJ hw₁ _ accept) fun w₂ _ hw₂ _ => ?_
  exact (idle_fallible (.acknowledge request) trivial id _).sound_bind hw₂
    fun _ => ⟨hw₂, trivial⟩

/-- The acceptance of a recovery is the one on record, or it is obtained. -/
theorem sound_recoverAcceptance (hJ : Stable J) (hw : Keeps decode legacy calls J w)
    (tip : Option ℕ) :
    Sound (Moves decode) (Keeps decode legacy calls J) (OnOk fun _ _ => True)
      (recoverAcceptance rec tip) w := by
  unfold recoverAcceptance
  split
  · exact ⟨hw, trivial⟩
  · refine ⟨hw, fun answer w' hmove => ?_⟩
    obtain rfl : w' = w := hmove
    refine sound_orThrow_bind hw (fun _ _ => trivial) fun owner _ => ?_
    refine sound_orThrow_bind hw (fun _ _ => trivial) fun request _ => ?_
    split
    · exact ⟨hw, trivial⟩
    · exact sound_obtainAcceptance hJ hw tip

/-- **One pending swap is recovered**: its saved request is checked, its acceptance obtained
and validated as at its creation, and its record made ready for a driver. -/
theorem sound_recoverOne (hJ : Stable J) (hw : Keeps decode legacy calls J w)
    (hat : w.agreementAt rec.swapId = some rec.agreement) :
    Sound (Moves decode) (Keeps decode legacy calls J) (OnOk fun _ _ => True)
      (recoverOne config network rec) w := by
  unfold recoverOne
  split
  · exact ⟨hw, trivial⟩
  refine sound_orThrow_bind hw (fun _ _ => trivial) fun _ _ => ?_
  refine (idle_recoveryTip).sound_bind hw fun tip => ?_
  -- The agreement is remembered while the acceptance is obtained.
  have hboth : Stable fun w => J w ∧ w.agreementAt rec.swapId = some rec.agreement :=
    hJ.and (stable_agreementAt rec.swapId (some rec.agreement))
  refine Sound.mono (fun _ h => ⟨h.1, h.2.1⟩) (fun _ _ _ h => h)
    (Sound.bindOk (sound_recoverAcceptance hboth ⟨hw.1, hw.2, hat⟩ tip) ?_)
  rintro w₁ accept hw₁ -
  refine ⟨hw₁, fun answer w₂ hmove => ?_⟩
  obtain ⟨rfl, hfound⟩ := hmove
  refine sound_orThrow_bind hw₁ (fun _ _ => trivial) fun found hanswer => ?_
  refine sound_orThrow_bind hw₁ (fun _ _ => trivial) fun saved hsaved => ?_
  rw [okOr_eq_ok] at hsaved
  have hstore : w₂.store rec.swapId = some saved := by
    rw [← hfound found hanswer, hsaved]
  refine sound_acceptRecovered hboth hw₁ ?_ tip
  rw [hw₁.1.keyed rec.swapId saved hstore, ClientWorld.agreementAt, hstore]
  rfl

/-- The records belong to the agreements on disk. -/
def Current (records : List SwapRecord) (w : ClientWorld) : Prop :=
  ∀ rec ∈ records, w.agreementAt rec.swapId = some rec.agreement

omit [Crypto] [ClientCrates] in
/-- Writes elsewhere do not end it: what agreed with the store when it was listed still
does. -/
theorem stable_current (records : List SwapRecord) : Stable (Current records) :=
  fun w written old hold hcont hw rec hmem =>
    stable_agreementAt rec.swapId _ w written old hold hcont (hw rec hmem)

omit [Crypto] [ClientCrates] in
/-- What is listed is what is on record. -/
theorem Listing.current {records : List SwapRecord} (h : Listing w records) :
    Current records w := by
  intro rec hmem
  rw [ClientWorld.agreementAt, h.2 rec hmem, Option.map_some]

/-- The pending swaps are recovered one after the other, by induction on the list; each finds
its record as it was listed. -/
theorem sound_recoverEach : ∀ {records : List SwapRecord} {w : ClientWorld},
    Keeps decode legacy calls (Current records) w →
      Sound (Moves decode) (Kept decode legacy calls) (OnOk fun _ _ => True)
        (recoverEach config network records) w := by
  intro records
  induction records with
  | nil => exact fun hw => ⟨hw.1, trivial⟩
  | cons rec rest ih =>
      intro w hw
      have hrest (w' : ClientWorld) (hw' : Keeps decode legacy calls (Current (rec :: rest)) w') :
          Sound (Moves decode) (Kept decode legacy calls) (OnOk fun _ _ => True)
            (recoverEach config network rest) w' :=
        ih ⟨hw'.1, fun other hmem => hw'.2 other (List.mem_cons_of_mem _ hmem)⟩
      refine ⟨hw.1, fun unix w' hmove => ?_⟩
      obtain rfl : w' = w := hmove
      dsimp only [Program.pure_bind]
      split
      · exact sound_remember_bind (sound_recordTerminal (stable_current _) hw .expired)
          fun w₁ _ hw₁ => hrest w₁ hw₁
      · refine sound_remember_bind (P := fun _ _ => True) (Sound.attempt (fun _ _ _ _ => trivial)
          (sound_recoverOne (stable_current _) hw (hw.2 rec (List.mem_cons_self ..)))) ?_
        intro w₁ result hw₁
        refine Sound.bindOk (hrest w₁ hw₁) fun w₂ failures hw₂ _ => ?_
        cases result with
        | ok _ => exact ⟨hw₂, trivial⟩
        | error e => exact ⟨hw₂, trivial⟩

/-- **Recovering keeps the invariant.** -/
theorem sound_recoverPending (hw : Kept decode legacy calls w) :
    Sound (Moves decode) (Kept decode legacy calls) (OnOk fun _ _ => True)
      (recoverPending config network) w := by
  refine ⟨hw, fun answer w' hmove => ?_⟩
  obtain ⟨rfl, hlisting⟩ := hmove
  refine sound_orThrow_bind hw (fun _ _ => trivial) fun records hrecords => ?_
  have hcurrent := (hlisting records hrecords).current
  refine Sound.bindOk (sound_recoverEach ⟨hw, fun rec hmem =>
    hcurrent rec (List.mem_of_mem_filter hmem)⟩) fun w₁ failures hw₁ _ => ?_
  split
  · exact ⟨hw₁, trivial⟩
  · exact ⟨hw₁, trivial⟩

/-! ## Restoring from a listing -/

/-- What a rebuilt record takes from its listing, and from the wallet. -/
structure ListedRecord (snapshot : SwapStatusSnapshot) (keys : RestoredKeys) (rec : SwapRecord) :
    Prop where
  swapId : rec.swapId = snapshot.accept.swapId
  direction : rec.direction = .reverse
  preimage : ∃ preimage, keys.preimage = some preimage ∧
    rec.preimageHex = some (Hex.encode preimage.val) ∧
    rec.paymentHashHex = Hex.encode (paymentHash preimage).val
  invoice : snapshot.accept.invoice = some rec.invoice
  confirmations : rec.requiredConfirmations = snapshot.requiredConfirmations
  amount : rec.onchainAmountSat = snapshot.accept.onchainAmountSat
  request : rec.swapRequest = none

/-- What a snapshot has to be for a record to be made from it, and what the record then
has. -/
theorem reverseRecord_eq_ok {target : Restore} {provider : String} {snapshot : SwapStatusSnapshot}
    {keys : RestoredKeys} (h : reverseRecord target provider snapshot keys = .ok rec) :
    ListedRecord snapshot keys rec := by
  unfold reverseRecord at h
  obtain ⟨preimage, hpreimage, h⟩ := bind_eq_ok h
  rw [okOr_eq_ok] at hpreimage
  dsimp only at h
  split at h
  · cases h
  split at h
  · cases h
  obtain ⟨_, -, h⟩ := bind_eq_ok h
  obtain ⟨_, -, h⟩ := bind_eq_ok h
  obtain ⟨contract, -, h⟩ := bind_eq_ok h
  obtain ⟨htlcScriptHex, taproot⟩ := contract
  obtain ⟨invoice, hinvoice, h⟩ := bind_eq_ok h
  rw [okOr_eq_ok] at hinvoice
  cases h
  exact ⟨rfl, rfl, ⟨preimage, hpreimage, rfl, rfl⟩, hinvoice, rfl, rfl, rfl⟩

variable {target : Restore} {provider : String}
  {resolve : SwapStatusSnapshot → Option RestoredKeys} {snapshots : List SwapStatusSnapshot}

/-- **A rebuilt record is one of the listing**, and takes no other record's place. -/
theorem sound_restoreSnapshot (hw : Kept decode legacy calls w)
    (hcall : ClientCall.restore target provider snapshots resolve ∈ calls)
    {snapshot : SwapStatusSnapshot} (hmem : snapshot ∈ snapshots) (report : RestoreReport) :
    Sound (Moves decode) (Kept decode legacy calls) (OnOk fun _ _ => True)
      (restoreSnapshot target provider resolve report snapshot) w := by
  refine ⟨hw, fun answer w' hmove => ?_⟩
  obtain ⟨rfl, hfound⟩ := hmove
  refine sound_orThrow_bind hw (fun _ _ => trivial) fun found hanswer => ?_
  have hstore := hfound found hanswer
  split
  · exact ⟨hw, trivial⟩
  rename_i hnone
  split
  · exact ⟨hw, trivial⟩
  split
  · exact ⟨hw, trivial⟩
  cases hkeys : resolve snapshot with
  | none => exact ⟨hw, trivial⟩
  | some keys =>
      dsimp only
      cases hrec : reverseRecord target provider snapshot keys with
      | error e => exact ⟨hw, trivial⟩
      | ok rec =>
          dsimp only
          have hlisted := reverseRecord_eq_ok hrec
          have hfresh : w'.store rec.swapId = none := by
            rw [hlisted.swapId, ← hstore]
            simpa using hnone
          have hsourced : Sourced decode legacy calls w'.quotes rec :=
            Or.inr ⟨hlisted.request, Or.inl ⟨target, provider, snapshots, resolve, snapshot, keys,
              rec, hcall, hmem, hkeys, hrec, rfl⟩⟩
          refine Sound.bindOk (P := fun _ _ => True) (sound_persist_of hw fun existing unix => ?_)
            fun w₁ _ hw₁ _ => ⟨hw₁, trivial⟩
          have hkept : Kept decode legacy calls (w'.write (rec.stamped existing unix)) :=
            hw.write (hsourced.of_terms rfl) fun old hold => absurd (hold.symm.trans hfresh) nofun
          exact ⟨hkept, trivial⟩

/-- **Restoring keeps the invariant.** -/
theorem sound_restoreSnapshots
    (hcall : ClientCall.restore target provider snapshots resolve ∈ calls) :
    ∀ {rest : List SwapStatusSnapshot} {report : RestoreReport} {w : ClientWorld},
      rest ⊆ snapshots → Kept decode legacy calls w →
        Sound (Moves decode) (Kept decode legacy calls) (OnOk fun _ _ => True)
          (restoreSnapshots target provider resolve report rest) w := by
  intro rest
  induction rest with
  | nil => exact fun _ hw => ⟨hw, trivial⟩
  | cons snapshot rest ih =>
      intro report w hsubset hw
      refine Sound.bindOk (sound_restoreSnapshot hw hcall (hsubset (List.mem_cons_self ..)) report)
        fun w₁ report hw₁ _ => ?_
      exact ih (fun other hmem => hsubset (List.mem_cons_of_mem _ hmem)) hw₁

/-! ## Resuming -/

/-- What a claim takes from its record. -/
structure ClaimOf (rec : SwapRecord) (claim : ReverseClaim) : Prop where
  preimage : rec.preimage = .ok (some claim.preimage)
  invoice : claim.invoice = rec.invoice
  amount : claim.onchainAmountSat = rec.onchainAmountSat
  htlcScript : rec.htlcScript = .ok claim.htlcScript
  claimKey : rec.secretKey = .ok claim.claimKey

/-- What a record has to be for a claim to be read from it, and what the claim then has. -/
theorem reverseClaimFromRecord_eq_ok {claim : ReverseClaim}
    (h : reverseClaimFromRecord rec = .ok claim) : ClaimOf rec claim := by
  unfold reverseClaimFromRecord at h
  obtain ⟨hex, hhex, h⟩ := bind_eq_ok h
  rw [okOr_eq_ok] at hhex
  obtain ⟨bytes, hbytes, h⟩ := bind_eq_ok h
  rw [okOr_eq_ok] at hbytes
  obtain ⟨preimage, hpreimage, h⟩ := bind_eq_ok h
  rw [okOr_eq_ok] at hpreimage
  obtain ⟨destSpkHex, -, h⟩ := bind_eq_ok h
  obtain ⟨htlcScript, hscript, h⟩ := bind_eq_ok h
  obtain ⟨htlcSpk, -, h⟩ := bind_eq_ok h
  obtain ⟨claimKey, hkey, h⟩ := bind_eq_ok h
  obtain ⟨destSpk, -, h⟩ := bind_eq_ok h
  cases h
  refine ⟨?_, rfl, rfl, hscript, hkey⟩
  unfold SwapRecord.preimage
  rw [hhex]
  dsimp only
  rw [hbytes]
  by_cases hlength : bytes.length = 32
  · rw [dif_pos hlength, Option.some.injEq] at hpreimage
    rw [← hpreimage]
    exact dif_pos hlength
  · rw [dif_neg hlength] at hpreimage
    cases hpreimage

omit [Crypto] [ClientCrates] in
/-- A resumed run is marked if the record is. -/
theorem marked_reverseResume : (reverseResume rec).marked = rec.marked := by
  unfold reverseResume
  dsimp only
  split <;> rfl

/-- A record that was read without a request is on disk as it was read, but for its
progress. -/
def Standing (rec : SwapRecord) (w : ClientWorld) : Prop :=
  rec.swapRequest = none → ∃ found, w.store rec.swapId = some found ∧ found.terms = rec.terms

/-- **What a resumed driver is given**: the claim of a ready record is for the preimage the
record has. -/
theorem given_of_sourced {claim : ReverseClaim}
    (h : Sourced decode legacy calls w.quotes rec) (hstanding : Standing rec w)
    (hdirection : rec.direction = .reverse)
    (hready : rec.executionReady = true) (hclaim : reverseClaimFromRecord rec = .ok claim) :
    Given decode calls w rec.swapId claim rec.requiredConfirmations := by
  rcases h.reverse hdirection with ⟨quote, floor, preimage, hrequest, hrec⟩ | ⟨hnone, -⟩
  · obtain ⟨hpreimage, hinvoice, hamount⟩ := reverseClaimFromRecord_eq_ok hclaim
    obtain rfl : claim.preimage = preimage :=
      Option.some.inj (Except.ok.inj (hpreimage.symm.trans (preimage_of_hex hrec.preimageHex)))
    have hexec : rec.clientExecutionReady = true := by
      rw [Option.isSome_iff_exists] at hrequest
      obtain ⟨request, hrequest⟩ := hrequest
      simpa [SwapRecord.executionReady, hrequest] using hready
    obtain ⟨-, hbinds, honchain⟩ := hrec.ready hexec
    refine Or.inl ⟨quote, floor, hrec.negotiated, hrec.confirmations, hamount.trans honchain, ?_⟩
    rw [hinvoice]
    exact hbinds
  · obtain ⟨found, hfound, hterms⟩ := hstanding hnone
    refine Or.inr ⟨found, hfound, ?_, ?_, ?_⟩
    · show found.terms.swapRequest = none
      rw [hterms]
      exact hnone
    · show reverseClaimFromRecord found.terms = .ok claim
      rw [hterms]
      exact hclaim
    · show rec.terms.requiredConfirmations = found.terms.requiredConfirmations
      rw [hterms]

/-- What is remembered of the records that are still to be resumed. -/
structure Resumable (decode : String → Option DecodedHoldInvoice) (legacy : List SwapRecord)
    (calls : List ClientCall) (records : List SwapRecord) (w : ClientWorld) : Prop where
  current : Current records w
  standing : ∀ rec ∈ records, Standing rec w
  sourced : ∀ rec ∈ records, Sourced decode legacy calls w.quotes rec
  free : ∀ rec ∈ records, rec.marked = true ∨ fundingsOf rec.swapId w.runs = 0
  unpaid : ∀ rec ∈ records, NeverPaid rec.swapId w.runs ∨ rec.invoicePayStartedAtUnix.isSome

omit [Crypto] [ClientCrates] in
/-- A resumed run counts as fresh only if there was a request and no payment has been started:
a record that was rebuilt never does. -/
theorem reverseResume_fresh (h : (reverseResume rec).isFresh = true) :
    rec.swapRequest.isSome ∧ rec.invoicePayStartedAtUnix = none := by
  have hfresh : reverseResume rec = {} := of_decide_eq_true h
  have hmark : (reverseResume rec).invoicePayStartedAtUnix = none := by rw [hfresh]
  unfold reverseResume at hmark
  dsimp only at hmark
  split at hmark
  · cases hmark
  · rename_i hneither
    have hnone : rec.invoicePayStartedAtUnix = none := hmark
    refine ⟨Option.isSome_iff_ne_none.mpr fun hrequest => hneither ⟨?_, ?_⟩, hnone⟩
    · rw [hrequest]
      rfl
    · show rec.invoicePayStartedAtUnix.isNone
      rw [hnone]
      rfl

/-- What can be resumed after the first can be resumed. -/
theorem Resumable.tail {rest : List SwapRecord}
    (h : Resumable decode legacy calls (rec :: rest) w) : Resumable decode legacy calls rest w where
  current other hmem := h.current other (List.mem_cons_of_mem _ hmem)
  standing other hmem := h.standing other (List.mem_cons_of_mem _ hmem)
  sourced other hmem := h.sourced other (List.mem_cons_of_mem _ hmem)
  free other hmem := h.free other (List.mem_cons_of_mem _ hmem)
  unpaid other hmem := h.unpaid other (List.mem_cons_of_mem _ hmem)

/-- Writes do not end it. -/
theorem stable_resumable (records : List SwapRecord) :
    Stable (Resumable decode legacy calls records) :=
  fun w written old hold hcont hw =>
    ⟨stable_current records w written old hold hcont hw.current,
      fun rec hmem hnone => stable_foreignAt rec.swapId rec.terms hnone w written old hold hcont
        (hw.standing rec hmem hnone),
      hw.sourced, hw.free, hw.unpaid⟩

omit [Crypto] [ClientCrates] in
/-- A driver funds for its own swap only. -/
theorem fundingsOf_drove {run : DriverRun} {older : List DriverRun} {event : Event}
    (hruns : w.runs = run :: older) (hid : run.start.swapId ≠ swapId) :
    fundingsOf swapId (w.drove event).runs = fundingsOf swapId w.runs := by
  rw [ClientWorld.runs_drove hruns, hruns]
  simp [fundingsOf, hid]

omit [Crypto] [ClientCrates] in
/-- A run that begins has funded nothing. -/
theorem fundingsOf_called (start : DriverStart) :
    fundingsOf swapId (w.called start).runs = fundingsOf swapId w.runs := by
  simp [ClientWorld.called, fundingsOf, DriverRun.fundings]

/-- The run of another swap does not end it either. -/
theorem steady_resumable {records : List SwapRecord}
    (hothers : ∀ rec ∈ records, rec.swapId ≠ swapId) :
    Steady swapId (Resumable decode legacy calls records) := by
  rintro w run older event hruns hid ⟨hcurrent, hstanding, hsourced, hfree, hunpaid⟩
  refine ⟨fun rec hmem => ?_, fun rec hmem hnone => ?_, fun rec hmem => ?_, fun rec hmem => ?_,
    fun rec hmem => ?_⟩
  · have hat := hcurrent rec hmem
    rwa [ClientWorld.agreementAt, ← ClientWorld.store_drove w event] at hat
  · rw [ClientWorld.store_drove]
    exact hstanding rec hmem hnone
  · rw [ClientWorld.quotes_drove]
    exact hsourced rec hmem
  · rw [fundingsOf_drove hruns (hid.trans_ne (hothers rec hmem).symm)]
    exact hfree rec hmem
  · refine (hunpaid rec hmem).imp_left fun hnone found hfound hsame => ?_
    rw [ClientWorld.runs_drove hruns] at hfound
    rcases List.mem_cons.mp hfound with rfl | hfound
    · exact absurd (hsame.symm.trans hid) (hothers rec hmem)
    · exact hnone found (by rw [hruns]; exact List.mem_cons_of_mem _ hfound) hsame

/-- Nor does a run that begins. -/
theorem Resumable.called {records : List SwapRecord} (h : Resumable decode legacy calls records w)
    (start : DriverStart) : Resumable decode legacy calls records (w.called start) where
  current := h.current
  standing := h.standing
  sourced := h.sourced
  free := by
    intro rec hmem
    rw [fundingsOf_called]
    exact h.free rec hmem
  unpaid := by
    intro rec hmem
    refine (h.unpaid rec hmem).imp_left fun hnone found hfound hsame => ?_
    rcases List.mem_cons.mp hfound with rfl | hfound
    · exact DriverRun.pays_nil start
    · exact hnone found hfound hsame

/-- One unfinished swap, driven while the others wait. -/
theorem sound_resumeOne {rest : List SwapRecord} {hasWallet : Bool}
    {maxRoutingFeeMsat fuel : ℕ} (hw : Kept decode legacy calls w)
    (hrecs : Resumable decode legacy calls (rec :: rest) w) (hready : rec.executionReady = true)
    (hothers : ∀ other ∈ rest, other.swapId ≠ rec.swapId) :
    Sound (Moves decode) (Keeps decode legacy calls (Resumable decode legacy calls rest))
      (OnOk fun _ _ => True)
      (resumeOne hasWallet maxRoutingFeeMsat rec fuel) w := by
  have hrest : Resumable decode legacy calls rest w := hrecs.tail
  have hfree := hrecs.free rec (List.mem_cons_self ..)
  have hkeeps : Keeps decode legacy calls (Resumable decode legacy calls rest) w := ⟨hw, hrest⟩
  unfold resumeOne
  split
  · unfold resumeSubmarine
    split
    · refine sound_orThrow_bind hkeeps (fun _ _ => trivial) fun funding _ => ?_
      exact sound_driveSubmarine (stable_resumable rest) (steady_resumable hothers) hw
        (hrest.called _) hrest hfree
    · exact ⟨hkeeps, trivial⟩
  · rename_i hdirection
    refine sound_orThrow_bind hkeeps (fun _ _ => trivial) fun claim hclaim => ?_
    have hgiven := given_of_sourced (hrecs.sourced rec (List.mem_cons_self ..))
      (hrecs.standing rec (List.mem_cons_self ..)) hdirection hready hclaim
    obtain ⟨found, hfound, hagree⟩ :=
      Option.map_eq_some_iff.mp (hrecs.current rec (List.mem_cons_self ..))
    have hheld : w.HeldAt rec.swapId claim.preimage := ⟨found, hfound, held_of_agreement hagree
      ⟨hdirection, (reverseClaimFromRecord_eq_ok hclaim).preimage⟩⟩
    have hfirst (hfresh : (reverseResume rec).isFresh = true) : NeverPaid rec.swapId w.runs ∧
        ∃ rec', w.store rec.swapId = some rec' ∧ rec'.swapRequest.isSome := by
      obtain ⟨hrequest, hnone⟩ := reverseResume_fresh hfresh
      refine ⟨?_, found, hfound, request_of_agreement hagree hrequest⟩
      rcases hrecs.unpaid rec (List.mem_cons_self ..) with hunpaid | hpaying
      · exact hunpaid
      · rw [hnone] at hpaying
        cases hpaying
    have hfree' : (reverseResume rec).marked = true ∨ fundingsOf rec.swapId w.runs = 0 := by
      rw [marked_reverseResume]
      exact hfree
    refine Sound.bindOk (P := fun _ _ => True) (sound_driveReverse (stable_resumable rest)
      (steady_resumable hothers) hw (hrest.called _) hrest hgiven hheld hfree' hfirst) ?_
    exact fun w₁ _ hw₁ _ => ⟨hw₁, trivial⟩

/-- The swaps are resumed one after the other, by induction on the list.  Each is listed once,
so that no run of another changes what its own is given. -/
theorem sound_resumeEach {hasWallet : Bool} {maxRoutingFeeMsat fuel : ℕ} :
    ∀ {records : List SwapRecord} {w : ClientWorld}, (records.map SwapRecord.swapId).Nodup →
      Kept decode legacy calls w → Resumable decode legacy calls records w →
        Sound (Moves decode) (Kept decode legacy calls) (OnOk fun _ _ => True)
          (resumeEach hasWallet maxRoutingFeeMsat fuel records) w := by
  intro records
  induction records with
  | nil => exact fun _ hw _ => ⟨hw, trivial⟩
  | cons rec rest ih =>
      intro w hnodup hw hrecs
      obtain ⟨hnot, hnodup⟩ := List.nodup_cons.mp hnodup
      have hothers (other : SwapRecord) (hmem : other ∈ rest) : other.swapId ≠ rec.swapId :=
        fun heq => hnot (heq ▸ List.mem_map_of_mem hmem)
      unfold resumeEach
      split
      · exact ih hnodup hw hrecs.tail
      rename_i hready
      have hready' : rec.executionReady = true := by simpa using hready
      refine sound_remember_bind (P := fun _ _ => True) (Sound.attempt (fun _ _ _ _ => trivial)
        (sound_resumeOne hw hrecs hready' hothers)) ?_
      intro w₁ outcome hw₁
      cases outcome with
      | error e => exact ih hnodup hw₁.1 hw₁.2
      | ok state =>
          refine sound_remember_bind (P := fun _ _ => True) (Sound.mono (fun _ h => h)
            (fun _ r _ _ => by cases r <;> trivial)
            (sound_bestEffort (sound_recordTerminal (stable_resumable rest) hw₁ state))) ?_
          exact fun w₂ _ hw₂ => ih hnodup hw₂.1 hw₂.2

/-- **Resuming keeps the invariant.** -/
theorem sound_resumeUnfinished {hasWallet : Bool} {maxRoutingFeeMsat fuel : ℕ}
    (hw : Kept decode legacy calls w) :
    Sound (Moves decode) (Kept decode legacy calls) (OnOk fun _ _ => True)
      (resumeUnfinished hasWallet maxRoutingFeeMsat fuel) w := by
  refine ⟨hw, fun answer w' hmove => ?_⟩
  obtain ⟨rfl, hlisting⟩ := hmove
  cases answer with
  | error e => exact ⟨hw, trivial⟩
  | ok records =>
      obtain ⟨hnodup, hstored⟩ := hlisting records rfl
      have hfilter (f : SwapRecord → Bool) (rec : SwapRecord) (hmem : rec ∈ records.filter f) :
          w'.store rec.swapId = some rec := hstored rec (List.mem_of_mem_filter hmem)
      refine sound_resumeEach (hnodup.sublist ((List.filter_sublist).map _)) hw
        ⟨fun rec hmem => ?_, fun rec hmem _ => ⟨rec, hfilter _ rec hmem, rfl⟩, fun rec hmem => ?_,
          fun rec hmem => ?_, fun rec hmem => ?_⟩
      · rw [ClientWorld.agreementAt, hfilter _ rec hmem, Option.map_some]
      · exact hw.sourced rec.swapId rec (hfilter _ rec hmem)
      · rcases (hw.funded rec.swapId).2 with hnone | ⟨found, hfound, hmarked⟩
        · exact Or.inr hnone
        · rw [hfilter _ rec hmem] at hfound
          cases hfound
          exact Or.inl hmarked
      · rcases hw.paid rec.swapId with hunpaid | ⟨found, hfound, hpaying⟩
        · exact Or.inl hunpaid
        · rw [hfilter _ rec hmem] at hfound
          cases hfound
          exact Or.inr hpaying

/-! ## Histories -/

/-- **Every operation keeps the invariant**: a negotiation, a recovery, a restore and a resume
of what is unfinished. -/
theorem ClientCall.sound {call : ClientCall} {fuel : ℕ} (hw : Kept decode legacy calls w)
    (hcall : call ∈ calls) (hfresh : ∀ swapId, call.draws = some swapId → w.store swapId = none) :
    Sound (Moves decode) (Kept decode legacy calls) (OnOk fun _ _ => True)
      (call.program fuel) w := by
  cases call with
  | negotiate config network clientPkarr draws =>
      exact sound_runNegotiation hw hcall (hfresh draws.swapId rfl)
  | recover config network => exact sound_recoverPending hw
  | restore target provider snapshots resolve =>
      refine Sound.bindOk (sound_restoreSnapshots hcall (fun _ hmem => hmem) hw) ?_
      exact fun w₁ _ hw₁ _ => ⟨hw₁, trivial⟩
  | resume hasWallet maxRoutingFeeMsat => exact sound_resumeUnfinished hw

/-- The invariant at the start: there are records of an older build, and nothing else. -/
theorem kept_start {store : Uuid → Option SwapRecord}
    (hlegacy : ∀ swapId rec, store swapId = some rec →
      rec.swapId = swapId ∧ rec ∈ legacy ∧ rec.swapRequest = none) :
    Kept decode legacy [] ⟨store, [], []⟩ where
  keyed swapId rec h := (hlegacy swapId rec h).1
  sourced swapId rec h :=
    Or.inr ⟨(hlegacy swapId rec h).2.2, Or.inr ⟨rec, (hlegacy swapId rec h).2.1, rfl⟩⟩
  funded swapId := ⟨Nat.zero_le _, Or.inl rfl⟩
  paid swapId := Or.inl fun run hmem => absurd hmem List.not_mem_nil
  runs run hmem := absurd hmem List.not_mem_nil
  fresh newer run older hruns := absurd (congrArg List.length hruns) (by simp)

/-- **The invariant holds in every history.** -/
theorem kept_of_history (h : History decode legacy calls w) : Kept decode legacy calls w := by
  induction h with
  | start store hlegacy => exact kept_start hlegacy
  | call _ call fuel hfresh hreach ih =>
      have hw := ih.mono (List.subset_cons_self call _)
      exact hreach.invariant (ClientCall.sound hw (List.mem_cons_self ..)
        fun swapId hdraws => (hfresh swapId hdraws).1)

end

end PubkySwap
