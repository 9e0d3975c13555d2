import PubkySwap.ClientWorld

/-!
# What the client's store functions keep

Every function of the store is a load and a put of the record with some fields
changed, so one rule covers them: `sound_persist`, for a record that belongs to the
same agreement as the one on disk and has lost no mark.  Besides the invariant the
functions keep every `Stable` property, one that such a write cannot end; that is how
an operation remembers what it has read.

`sound_recordAccept` is the one write that makes a record executable, and it asks for
what the record will then be relied on for.
-/

namespace PubkySwap

open BitcoinScript (Bytes)
open Program (orThrow Sound OnOk Guarded sound_orThrow_bind)

/-! ## Steps of the world -/

namespace ClientWorld

@[simp] theorem store_write (w : ClientWorld) (rec : SwapRecord) (swapId : Uuid) :
    (w.write rec).store swapId = if swapId = rec.swapId then some rec else w.store swapId :=
  Function.update_apply ..

@[simp] theorem quotes_write (w : ClientWorld) (rec : SwapRecord) :
    (w.write rec).quotes = w.quotes := rfl

@[simp] theorem runs_write (w : ClientWorld) (rec : SwapRecord) :
    (w.write rec).runs = w.runs := rfl

@[simp] theorem store_called (w : ClientWorld) (start : DriverStart) :
    (w.called start).store = w.store := rfl

@[simp] theorem quotes_called (w : ClientWorld) (start : DriverStart) :
    (w.called start).quotes = w.quotes := rfl

@[simp] theorem store_drove (w : ClientWorld) (event : Event) :
    (w.drove event).store = w.store := by
  unfold drove
  split <;> rfl

@[simp] theorem quotes_drove (w : ClientWorld) (event : Event) :
    (w.drove event).quotes = w.quotes := by
  unfold drove
  split <;> rfl

/-- An exchange of a driver is added to the run that goes on, which is the first of the
list. -/
theorem runs_drove {w : ClientWorld} {run : DriverRun} {older : List DriverRun}
    (h : w.runs = run :: older) (event : Event) :
    (w.drove event).runs = { run with log := run.log ++ [event] } :: older := by
  unfold drove
  rw [h]

end ClientWorld

/-- A run pays nothing before its first exchange. -/
theorem DriverRun.pays_nil (start : DriverStart) : DriverRun.pays ⟨start, []⟩ = false := by
  unfold DriverRun.pays
  split <;> rfl

/-- A run that pays after an exchange has paid before, or pays by it. -/
theorem DriverRun.pays_append {run : DriverRun} {event : Event}
    (h : DriverRun.pays { run with log := run.log ++ [event] } = true) :
    run.pays = true ∨
      event.1.pays = true ∧ ∃ claim n, run.start.execution = .reverse claim n := by
  unfold DriverRun.pays at h ⊢
  dsimp only at h
  split at h
  · rename_i claim n hexec
    rw [List.any_append, Bool.or_eq_true, List.any_cons, List.any_nil, Bool.or_false] at h
    rw [hexec]
    exact h.imp_right fun hpays => ⟨hpays, claim, n, rfl⟩
  · cases h

section

variable {decode : String → Option DecodedHoldInvoice} {legacy : List SwapRecord}
  {calls : List ClientCall}
  {quotes : List (QuoteRequest × Quote)} {w : ClientWorld} {swapId : Uuid}

/-- What was agreed stays agreed as calls are made and quotes come in. -/
theorem Negotiated.mono {calls' : List ClientCall} {quotes' : List (QuoteRequest × Quote)}
    {quote : Quote} {floor : ℕ} (hcalls : calls ⊆ calls') (hquotes : quotes ⊆ quotes')
    (h : Negotiated calls quotes swapId quote floor) :
    Negotiated calls' quotes' swapId quote floor := by
  obtain ⟨config, network, pkarr, draws, request, unix, hcall, hid, hquote, hvalid⟩ := h
  exact ⟨config, network, pkarr, draws, request, unix, hcalls hcall, hid, hquotes hquote, hvalid⟩

variable [Crypto] [ClientCrates]

/-- What a listing has rebuilt stays so as calls are made. -/
theorem Rebuilt.mono {calls' : List ClientCall} {rec : SwapRecord} (hcalls : calls ⊆ calls')
    (h : Rebuilt calls rec) : Rebuilt calls' rec := by
  obtain ⟨target, provider, snapshots, resolve, snapshot, keys, listed, hcall, hrest⟩ := h
  exact ⟨target, provider, snapshots, resolve, snapshot, keys, listed, hcalls hcall, hrest⟩

/-- Where a record has come from stays so as calls are made and quotes come in. -/
theorem Sourced.mono {calls' : List ClientCall} {quotes' : List (QuoteRequest × Quote)}
    {rec : SwapRecord} (hcalls : calls ⊆ calls') (hquotes : quotes ⊆ quotes')
    (h : Sourced decode legacy calls quotes rec) : Sourced decode legacy calls' quotes' rec := by
  rcases h with ⟨hrequest, hcontract, hrecs⟩ | ⟨hrequest, hrebuilt⟩
  · refine Or.inl ⟨hrequest, hcontract, fun hdirection => ?_⟩
    obtain ⟨quote, floor, preimage, hrec⟩ := hrecs hdirection
    exact ⟨quote, floor, preimage,
      { hrec with negotiated := hrec.negotiated.mono hcalls hquotes }⟩
  · exact Or.inr ⟨hrequest, hrebuilt.imp_left (Rebuilt.mono hcalls)⟩

/-- A driver's claim was given by a record that is still there. -/
theorem Given.mono {calls' : List ClientCall} {w' : ClientWorld}
    {claim : ReverseClaim} {requiredConfirmations : ℕ} (hcalls : calls ⊆ calls')
    (hquotes : w.quotes ⊆ w'.quotes) (hstore : w'.store = w.store)
    (h : Given decode calls w swapId claim requiredConfirmations) :
    Given decode calls' w' swapId claim requiredConfirmations := by
  rcases h with ⟨quote, floor, hnegotiated, hrest⟩ | ⟨rec, hrec, hrest⟩
  · exact Or.inl ⟨quote, floor, hnegotiated.mono hcalls hquotes, hrest⟩
  · exact Or.inr ⟨rec, by rw [hstore, hrec], hrest⟩

/-- What a driver was given still stands on disk after a write: the terms of a record
without a request do not change. -/
theorem Given.write {rec : SwapRecord} {claim : ReverseClaim} {requiredConfirmations : ℕ}
    (h : Given decode calls w swapId claim requiredConfirmations)
    (hold : ∀ old, w.store rec.swapId = some old → old.Continues rec) :
    Given decode calls (w.write rec) swapId claim requiredConfirmations := by
  refine h.imp_right ?_
  rintro ⟨old, hstore, hrequest, hclaim, hconfirmations⟩
  by_cases hid : swapId = rec.swapId
  · subst hid
    have hterms : rec.terms = old.terms := (hold old hstore).foreign hrequest
    refine ⟨rec, by simp, ?_, ?_, ?_⟩
    · show rec.terms.swapRequest = none
      rw [hterms]
      exact hrequest
    · show reverseClaimFromRecord rec.terms = .ok claim
      rw [hterms]
      exact hclaim
    · show requiredConfirmations = rec.terms.requiredConfirmations
      rw [hterms]
      exact hconfirmations
  · exact ⟨old, by simpa [hid] using hstore, hrequest, hclaim, hconfirmations⟩

/-- Where the record of a reverse swap comes from. -/
theorem Sourced.reverse {rec : SwapRecord} (h : Sourced decode legacy calls quotes rec)
    (hdirection : rec.direction = .reverse) :
    (∃ quote floor preimage, rec.swapRequest.isSome ∧
      NegotiatedRecord decode calls quotes rec.terms quote floor preimage) ∨
    (rec.swapRequest = none ∧ (Rebuilt calls rec ∨ Inherited legacy rec)) := by
  rcases h with ⟨hrequest, -, hrecs⟩ | hother
  · obtain ⟨quote, floor, preimage, hrec⟩ := hrecs hdirection
    exact Or.inl ⟨quote, floor, preimage, hrequest, hrec⟩
  · exact Or.inr hother

/-- What a record with a request says of its contract. -/
theorem Sourced.contracted {rec : SwapRecord} (h : Sourced decode legacy calls quotes rec)
    (hrequest : rec.swapRequest.isSome) : Contracted rec.terms := by
  rcases h with ⟨-, hcontract, -⟩ | ⟨hnone, -⟩
  · exact hcontract
  · rw [hnone] at hrequest
    cases hrequest

/-- Where a record comes from is a matter of its terms. -/
theorem Sourced.of_terms {rec old : SwapRecord} (h : Sourced decode legacy calls quotes old)
    (hterms : rec.terms = old.terms) : Sourced decode legacy calls quotes rec := by
  have hview (rec : SwapRecord) :
      Sourced decode legacy calls quotes rec ↔ Sourced decode legacy calls quotes rec.terms :=
        Iff.rfl
  rw [hview, hterms, ← hview]
  exact h

omit [Crypto] [ClientCrates] in
/-- What a record holds is part of its agreement. -/
theorem held_of_agreement {rec old : SwapRecord} {preimage : Preimage}
    (h : rec.agreement = old.agreement)
    (hheld : old.direction = .reverse ∧ old.preimage = .ok (some preimage)) :
    rec.direction = .reverse ∧ rec.preimage = .ok (some preimage) := by
  show rec.agreement.direction = .reverse ∧ rec.agreement.preimage = .ok (some preimage)
  rw [h]
  exact hheld

omit [Crypto] [ClientCrates] in
/-- Records that agree about the contract agree about whether there was a request. -/
theorem request_of_agreement {rec old : SwapRecord} (h : rec.agreement = old.agreement)
    (hrequest : old.swapRequest.isSome) : rec.swapRequest.isSome := by
  show rec.agreement.swapRequest.isSome
  rw [h]
  exact hrequest

namespace Kept

/-- **A write** keeps the invariant, if the record belongs to the same agreement as the
one on disk, where there is one, and has lost no mark. -/
theorem write (h : Kept decode legacy calls w) {rec : SwapRecord}
    (hsourced : Sourced decode legacy calls w.quotes rec)
    (hold : ∀ old, w.store rec.swapId = some old → old.Continues rec) :
    Kept decode legacy calls (w.write rec) where
  keyed := by
    intro swapId found hfound
    rw [ClientWorld.store_write] at hfound
    split at hfound
    · cases hfound
      exact (by assumption : swapId = rec.swapId).symm
    · exact h.keyed swapId found hfound
  sourced := by
    intro swapId found hfound
    rw [ClientWorld.store_write] at hfound
    split at hfound
    · cases hfound
      exact hsourced
    · exact h.sourced swapId found hfound
  funded := by
    intro swapId
    refine ⟨(h.funded swapId).1, (h.funded swapId).2.imp_right ?_⟩
    rintro ⟨old, hstore, hmarked⟩
    by_cases hid : swapId = rec.swapId
    · subst hid
      exact ⟨rec, by simp, (hold old hstore).marked hmarked⟩
    · exact ⟨old, by simpa [hid] using hstore, hmarked⟩
  paid := by
    intro swapId
    refine (h.paid swapId).imp_right ?_
    rintro ⟨old, hstore, hpaying⟩
    by_cases hid : swapId = rec.swapId
    · subst hid
      exact ⟨rec, by simp, (hold old hstore).paying hpaying⟩
    · exact ⟨old, by simpa [hid] using hstore, hpaying⟩
  runs := by
    intro run hrun claim n hexec
    have hkept := h.runs run hrun claim n hexec
    obtain ⟨old, hstore, hheld⟩ := hkept.held
    refine { hkept with given := hkept.given.write hold, held := ?_ }
    by_cases hid : run.start.swapId = rec.swapId
    · rw [hid] at hstore ⊢
      exact ⟨rec, by simp, held_of_agreement (hold old hstore).agreement hheld⟩
    · exact ⟨old, by simpa [hid] using hstore, hheld⟩
  fresh := by
    intro newer run older hruns hfresh
    obtain ⟨hunpaid, old, hstore, hrequest⟩ := h.fresh newer run older hruns hfresh
    refine ⟨hunpaid, ?_⟩
    by_cases hid : run.start.swapId = rec.swapId
    · rw [hid] at hstore ⊢
      exact ⟨rec, by simp, request_of_agreement (hold old hstore).agreement hrequest⟩
    · exact ⟨old, by simpa [hid] using hstore, hrequest⟩

/-- More calls and more quotes leave everything as it was. -/
theorem mono {calls' : List ClientCall} (h : Kept decode legacy calls w) (hcalls : calls ⊆ calls') :
    Kept decode legacy calls' w where
  keyed := h.keyed
  sourced swapId rec hrec := (h.sourced swapId rec hrec).mono hcalls (fun _ hmem => hmem)
  funded := h.funded
  paid := h.paid
  runs run hrun claim n hexec := by
    have hkept := h.runs run hrun claim n hexec
    exact { hkept with given := hkept.given.mono hcalls (fun _ hmem => hmem) rfl }
  fresh := h.fresh

/-- A quote that comes in changes no record. -/
theorem answered (h : Kept decode legacy calls w) (request : QuoteRequest) (quote : Quote) :
    Kept decode legacy calls (w.answered request quote) where
  keyed := h.keyed
  sourced swapId rec hrec :=
    (h.sourced swapId rec hrec).mono (fun _ hmem => hmem) fun _ hmem => List.mem_cons_of_mem _ hmem
  funded := h.funded
  paid := h.paid
  runs run hrun claim n hexec := by
    have hkept := h.runs run hrun claim n hexec
    exact { hkept with
      given := hkept.given.mono (fun _ hmem => hmem) (fun _ hmem => List.mem_cons_of_mem _ hmem)
        rfl }
  fresh := h.fresh

/-- **A driver is called**: a reverse one with what it may be given, and as a first run
only if no earlier one has paid. -/
theorem called (h : Kept decode legacy calls w) {start : DriverStart}
    (hreverse : ∀ claim n, start.execution = .reverse claim n →
      Given decode calls w start.swapId claim n ∧
        w.HeldAt start.swapId claim.preimage)
    (hfresh : start.Fresh → NeverPaid start.swapId w.runs ∧
      ∃ rec, w.store start.swapId = some rec ∧ rec.swapRequest.isSome) :
    Kept decode legacy calls (w.called start) where
  keyed := h.keyed
  sourced := h.sourced
  funded := by
    intro swapId
    have hsum : fundingsOf swapId (w.called start).runs = fundingsOf swapId w.runs := by
      simp [ClientWorld.called, fundingsOf, DriverRun.fundings]
    rw [hsum]
    exact h.funded swapId
  paid := by
    intro swapId
    refine (h.paid swapId).imp_left fun hunpaid run hrun hid => ?_
    rcases List.mem_cons.mp hrun with rfl | hrun
    · exact DriverRun.pays_nil start
    · exact hunpaid run hrun hid
  runs := by
    intro run hrun claim n hexec
    rcases List.mem_cons.mp hrun with rfl | hrun
    · obtain ⟨hgiven, hheld⟩ := hreverse claim n hexec
      exact ⟨hgiven, hheld, Program.guarded_nil, nofun, Program.guarded_nil⟩
    · have hkept := h.runs run hrun claim n hexec
      exact { hkept with }
  fresh := by
    intro newer run older hruns hstart
    rcases List.cons_eq_append_iff.mp hruns with ⟨rfl, hrest⟩ | ⟨newer, rfl, hrest⟩
    · cases hrest
      exact hfresh hstart
    · exact h.fresh newer run older hrest hstart

/-- **A driver makes a call**: the wallet is asked to fund only while no run of the swap
has asked before, and with the record marked; the node is asked to pay only with the
record saying so. -/
theorem drove (h : Kept decode legacy calls w) {run : DriverRun} {older : List DriverRun}
    {event : Event} (hruns : w.runs = run :: older)
    (hreverse : ∀ claim n, run.start.execution = .reverse claim n →
      Gated claim n (run.log ++ [event]) ∧ PaysOnly claim.invoice (run.log ++ [event]) ∧
        PaysCleared claim.paymentHash run.start.resume (run.log ++ [event]))
    (hfunds : event.1.funds = true →
      fundingsOf run.start.swapId w.runs = 0 ∧ w.MarkedAt run.start.swapId)
    (hpays : event.1.pays = true → (∃ claim n, run.start.execution = .reverse claim n) →
      w.PayingAt run.start.swapId) :
    Kept decode legacy calls (w.drove event) where
  keyed := by simpa using h.keyed
  sourced := by simpa using h.sourced
  funded := by
    intro swapId
    have hkept := h.funded swapId
    have hmarked : (w.drove event).MarkedAt swapId ↔ w.MarkedAt swapId := by
      simp [ClientWorld.MarkedAt]
    rw [hmarked, ClientWorld.runs_drove hruns]
    rw [hruns] at hkept hfunds
    by_cases hevent : event.1.funds = true
    -- the driver has asked for a funding: of its own swap, which had none and is marked
    · by_cases hid : run.start.swapId = swapId
      · subst hid
        obtain ⟨hnone, hat⟩ := hfunds hevent
        simp only [fundingsOf, List.map_cons, List.sum_cons, if_true, DriverRun.fundings,
          List.countP_append, List.countP_singleton, hevent] at hnone ⊢
        exact ⟨by omega, Or.inr hat⟩
      · simpa [fundingsOf, hid] using hkept
    · simpa [fundingsOf, DriverRun.fundings, hevent] using hkept
  paid := by
    intro swapId
    have hpaying : (w.drove event).PayingAt swapId ↔ w.PayingAt swapId := by
      simp [ClientWorld.PayingAt]
    rw [hpaying, ClientWorld.runs_drove hruns]
    rcases h.paid swapId with hunpaid | hat
    -- the payment is of this swap, and recorded; or the runs have paid nothing still
    · by_cases hnow : event.1.pays = true ∧ (∃ claim n, run.start.execution = .reverse claim n) ∧
          run.start.swapId = swapId
      · obtain ⟨hevent, hexec, rfl⟩ := hnow
        exact Or.inr (hpays hevent hexec)
      · refine Or.inl fun found hmem hid => ?_
        rcases List.mem_cons.mp hmem with rfl | hmem
        · rw [Bool.eq_false_iff]
          intro hfound
          rcases DriverRun.pays_append hfound with hbefore | ⟨hevent, hexec⟩
          · rw [hunpaid run (by rw [hruns]; exact List.mem_cons_self ..) hid] at hbefore
            cases hbefore
          · exact hnow ⟨hevent, hexec, hid⟩
        · exact hunpaid found (by rw [hruns]; exact List.mem_cons_of_mem _ hmem) hid
    · exact Or.inr hat
  runs := by
    intro run' hrun' claim n hexec
    rw [ClientWorld.runs_drove hruns] at hrun'
    have hgiven {id : Uuid} {claim : ReverseClaim} {n : ℕ} (hat : Given decode calls w id claim n) :
        Given decode calls (w.drove event) id claim n :=
      hat.mono (fun _ hmem => hmem) (by simp) (by simp)
    have hheld {id : Uuid} {preimage : Preimage} (hat : w.HeldAt id preimage) :
        (w.drove event).HeldAt id preimage := by
      unfold ClientWorld.HeldAt
      rw [ClientWorld.store_drove]
      exact hat
    rcases List.mem_cons.mp hrun' with rfl | hrun'
    · obtain ⟨hgated, hpays, hcleared⟩ := hreverse claim n hexec
      have hkept := h.runs run (by rw [hruns]; exact List.mem_cons_self ..) claim n hexec
      exact ⟨hgiven hkept.given, hheld hkept.held, hgated, hpays, hcleared⟩
    · have hkept := h.runs run' (by rw [hruns]; exact List.mem_cons_of_mem _ hrun') claim n hexec
      exact ⟨hgiven hkept.given, hheld hkept.held, hkept.gated, hkept.pays, hkept.cleared⟩
  fresh := by
    intro newer run' older' hruns' hfresh
    rw [ClientWorld.runs_drove hruns] at hruns'
    rw [ClientWorld.store_drove]
    -- only the newest run has changed
    rcases List.cons_eq_append_iff.mp hruns' with ⟨rfl, hrest⟩ | ⟨newer, rfl, hrest⟩
    · cases hrest
      exact h.fresh [] run older hruns hfresh
    · exact h.fresh (run :: newer) run' older' (by rw [hruns, hrest]; rfl) hfresh

end Kept

/-! ## Rules -/

/-- A property that no write of the same agreement ends. -/
def Stable (J : ClientWorld → Prop) : Prop :=
  ∀ (w : ClientWorld) (rec old : SwapRecord), w.store rec.swapId = some old →
    old.Continues rec → J w → J (w.write rec)

omit [Crypto] [ClientCrates] in
/-- Two properties that no such write can end are one. -/
theorem Stable.and {J J' : ClientWorld → Prop} (hJ : Stable J) (hJ' : Stable J') :
    Stable fun w => J w ∧ J' w :=
  fun w rec old hold hcont hw => ⟨hJ w rec old hold hcont hw.1, hJ' w rec old hold hcont hw.2⟩

omit [Crypto] [ClientCrates] in
/-- What was agreed stays agreed. -/
theorem stable_agreementAt (swapId : Uuid) (agreed : Option SwapRecord) :
    Stable fun w => w.agreementAt swapId = agreed := by
  intro w rec old hold hcont hw
  unfold ClientWorld.agreementAt at hw ⊢
  rw [ClientWorld.store_write]
  split
  · rename_i hid
    rw [hid, hold] at hw
    rw [Option.map_some, hcont.agreement, ← hw, Option.map_some]
  · exact hw

omit [Crypto] [ClientCrates] in
/-- A mark is not taken off a record by a write that continues it. -/
theorem stable_markedAt (swapId : Uuid) : Stable fun w => w.MarkedAt swapId := by
  rintro w rec old hold hcont ⟨found, hfound, hmarked⟩
  by_cases hid : swapId = rec.swapId
  · subst hid
    rw [hold] at hfound
    cases hfound
    exact ⟨rec, by simp, hcont.marked hmarked⟩
  · exact ⟨found, by simpa [hid] using hfound, hmarked⟩

omit [Crypto] [ClientCrates] in
/-- A payment that has been started stays on record. -/
theorem stable_payingAt (swapId : Uuid) : Stable fun w => w.PayingAt swapId := by
  rintro w rec old hold hcont ⟨found, hfound, hpaying⟩
  by_cases hid : swapId = rec.swapId
  · subst hid
    rw [hold] at hfound
    cases hfound
    exact ⟨rec, by simp, hcont.paying hpaying⟩
  · exact ⟨found, by simpa [hid] using hfound, hpaying⟩

omit [Crypto] [ClientCrates] in
/-- A record without a request, on disk with these terms. -/
theorem stable_foreignAt (swapId : Uuid) (terms : SwapRecord)
    (hforeign : terms.swapRequest = none) :
    Stable fun w => ∃ rec, w.store swapId = some rec ∧ rec.terms = terms := by
  rintro w rec old hold hcont ⟨found, hfound, hterms⟩
  by_cases hid : swapId = rec.swapId
  · subst hid
    rw [hold] at hfound
    cases hfound
    have hrequest : old.swapRequest = none := by
      show old.terms.swapRequest = none
      rw [hterms]
      exact hforeign
    exact ⟨rec, by simp, (hcont.foreign hrequest).trans hterms⟩
  · exact ⟨found, by simpa [hid] using hfound, hterms⟩

/-- The invariant, and what an operation remembers. -/
abbrev Keeps (decode : String → Option DecodedHoldInvoice) (legacy : List SwapRecord)
    (calls : List ClientCall) (J : ClientWorld → Prop) (w : ClientWorld) : Prop :=
  Kept decode legacy calls w ∧ J w

variable {J : ClientWorld → Prop} {rec : SwapRecord} {context : String}

omit [Crypto] [ClientCrates] in
/-- A record is loaded, or the operation ends with the error; what follows may rely on the
record being the one on disk. -/
theorem sound_load_bind {α : Type} {I : ClientWorld → Prop}
    {Q : ClientWorld → Except DriverError α → Prop} {f : SwapRecord → ClientProgram α} (hw : I w)
    (herr : ∀ e, Q w (.error e))
    (hf : ∀ rec, w.store swapId = some rec → Sound (Moves decode) I Q (f rec) w) :
    Sound (Moves decode) I Q ((load swapId).bind f) w := by
  refine ⟨hw, fun answer w' hmove => ?_⟩
  obtain ⟨rfl, hfound⟩ := hmove
  cases answer with
  | error e => exact ⟨hw, herr _⟩
  | ok found =>
      have hstore := hfound found rfl
      cases found with
      | none => exact ⟨hw, herr _⟩
      | some rec => exact hf rec hstore.symm

omit [Crypto] [ClientCrates] in
/-- A put, whatever comes of it. -/
theorem sound_persist_of {I : ClientWorld → Prop} {P : Unit → ClientWorld → Prop} (hw : I w)
    (hwritten : ∀ existing unix, I (w.write (rec.stamped existing unix)) ∧
      P () (w.write (rec.stamped existing unix))) :
    Sound (Moves decode) I (OnOk P) (persist rec context) w := by
  refine ⟨hw, fun answer w' hmove => ?_⟩
  cases answer with
  | ok done =>
      obtain ⟨existing, unix, -, rfl⟩ := hmove
      exact hwritten existing unix
  | error e =>
      rcases hmove with rfl | ⟨existing, unix, -, rfl⟩
      · exact ⟨hw, trivial⟩
      · exact ⟨(hwritten existing unix).1, trivial⟩

/-- **A put of the same agreement.** -/
theorem sound_persist {old : SwapRecord} (hJ : Stable J) (hw : Keeps decode legacy calls J w)
    (hold : w.store rec.swapId = some old) (hsourced : Sourced decode legacy calls w.quotes rec)
    (hcont : old.Continues rec) :
    Sound (Moves decode) (Keeps decode legacy calls J)
      (OnOk fun _ w' => ∃ saved, w'.store rec.swapId = some saved ∧ saved.terms = rec.terms ∧
        rec.Continues saved)
      (persist rec context) w := by
  refine sound_persist_of hw fun existing unix => ⟨⟨?_, ?_⟩, ?_⟩
  · refine hw.1.write (hsourced.of_terms rfl) fun found hfound => ?_
    rw [show (rec.stamped existing unix).swapId = rec.swapId from rfl, hold] at hfound
    cases hfound
    exact hcont.stamped existing unix
  · exact hJ w _ old hold (hcont.stamped existing unix) hw.2
  · exact ⟨rec.stamped existing unix, by simp [SwapRecord.stamped], rfl, rfl, id, id, fun _ => rfl⟩

/-- **A change of progress only.** -/
theorem sound_progress {old : SwapRecord} (hJ : Stable J) (hw : Keeps decode legacy calls J w)
    (hold : w.store swapId = some old) (hterms : rec.terms = old.terms)
    (hmark : old.marked = true → rec.marked = true)
    (hpaying : old.invoicePayStartedAtUnix.isSome → rec.invoicePayStartedAtUnix.isSome) :
    Sound (Moves decode) (Keeps decode legacy calls J)
      (OnOk fun _ w' => (rec.marked = true → w'.MarkedAt swapId) ∧
        (rec.invoicePayStartedAtUnix.isSome → w'.PayingAt swapId)) (persist rec context) w := by
  have hid : rec.swapId = swapId := by
    rw [← hw.1.keyed swapId old hold]
    show rec.terms.swapId = old.terms.swapId
    rw [hterms]
  subst hid
  refine Sound.mono (fun _ h => h) ?_ (sound_persist hJ hw hold
    ((hw.1.sourced _ old hold).of_terms hterms)
    ⟨SwapRecord.agreement_of_terms hterms, hmark, hpaying, fun _ => hterms⟩)
  rintro w' r - hr
  cases r with
  | error e => trivial
  | ok _ =>
      obtain ⟨saved, hstore, -, hsaved⟩ := hr
      exact ⟨fun hmarked => ⟨saved, hstore, hsaved.marked hmarked⟩,
        fun hpaying => ⟨saved, hstore, hsaved.paying hpaying⟩⟩

/-! ## The functions of the store -/

/-- The creation is marked as started, once, before the request is sent. -/
theorem sound_recordCreationStarted (hJ : Stable J) (hw : Keeps decode legacy calls J w)
    (tip : Option ℕ) :
    Sound (Moves decode) (Keeps decode legacy calls J) (OnOk fun _ _ => True)
      (recordCreationStarted swapId tip) w := by
  refine sound_load_bind hw (fun _ => trivial) fun rec hrec => ?_
  split
  · exact ⟨hw, trivial⟩
  · exact Sound.mono (fun _ h => h) (fun _ r _ _ => by cases r <;> trivial)
      (sound_progress hJ hw hrec rfl id id)

/-- After the payment is recorded, the record says so. -/
theorem sound_recordPaymentStarted (hJ : Stable J) (hw : Keeps decode legacy calls J w) :
    Sound (Moves decode) (Keeps decode legacy calls J) (OnOk fun _ w' => w'.PayingAt swapId)
      (recordPaymentStarted swapId) w := by
  refine sound_load_bind hw (fun _ => trivial) fun rec hrec => ?_
  split
  · rename_i hpaying
    exact ⟨hw, rec, hrec, hpaying⟩
  · refine ⟨hw, fun unix w' hmove => ?_⟩
    obtain rfl : w' = w := hmove
    refine Sound.mono (fun _ h => h) ?_ (sound_progress hJ hw hrec rfl id fun _ => rfl)
    intro w' r _ hr
    cases r with
    | error e => trivial
    | ok _ => exact hr.2 rfl

/-- After the intent is recorded, the record is marked. -/
theorem sound_recordFundingIntent (hJ : Stable J) (hw : Keeps decode legacy calls J w) (tip : ℕ) :
    Sound (Moves decode) (Keeps decode legacy calls J) (OnOk fun _ w' => w'.MarkedAt swapId)
      (recordFundingIntent swapId tip) w := by
  have hmarked (rec : SwapRecord) (attempts : ℕ) :
      { rec with fundingIntentAtHeight := some tip, fundingAttempts := attempts,
                 state := .lockupPending }.marked = true :=
    SwapRecord.marked_iff.mpr (Or.inr rfl)
  refine sound_load_bind hw (fun _ => trivial) fun rec hrec => ?_
  refine Sound.mono (fun _ h => h) ?_ (sound_progress hJ hw hrec rfl
    (fun _ => hmarked rec _) id)
  intro w' r _ hr
  cases r with
  | error e => trivial
  | ok _ => exact hr.1 (hmarked rec _)

/-- The funding is recorded, on a record that exists. -/
theorem sound_recordFunded (hJ : Stable J) (hw : Keeps decode legacy calls J w)
    (outpoint : OutPoint) :
    Sound (Moves decode) (Keeps decode legacy calls J) (OnOk fun _ _ => True)
      (recordFunded swapId outpoint) w := by
  refine sound_load_bind hw (fun _ => trivial) fun rec hrec => ?_
  -- The outpoint takes the place of the intent.
  exact Sound.mono (fun _ h => h) (fun _ r _ _ => by cases r <;> trivial)
    (sound_progress hJ hw hrec rfl (fun _ => SwapRecord.marked_iff.mpr (Or.inl ⟨rfl, rfl⟩)) id)

/-- A spend is noted among the client's own. -/
theorem sound_recordOurSpend (hJ : Stable J) (hw : Keeps decode legacy calls J w) (txid : Txid) :
    Sound (Moves decode) (Keeps decode legacy calls J) (OnOk fun _ _ => True)
      (recordOurSpend swapId txid) w := by
  refine sound_load_bind hw (fun _ => trivial) fun rec hrec => ?_
  exact Sound.mono (fun _ h => h) (fun _ r _ _ => by cases r <;> trivial)
    (sound_progress hJ hw hrec rfl id id)

/-- The state the driver has ended with is recorded. -/
theorem sound_recordTerminal (hJ : Stable J) (hw : Keeps decode legacy calls J w)
    (state : SwapState) :
    Sound (Moves decode) (Keeps decode legacy calls J) (OnOk fun _ _ => True)
      (recordTerminal swapId state) w := by
  refine sound_load_bind hw (fun _ => trivial) fun rec hrec => ?_
  refine ⟨hw, fun unix w' hmove => ?_⟩
  obtain rfl : w' = w := hmove
  exact Sound.mono (fun _ h => h) (fun _ r _ _ => by cases r <;> trivial)
    (sound_progress hJ hw hrec rfl id id)

/-- A reply that is saved: the record is still waiting for one, and a reverse swap's
invoice is the reply's. -/
theorem Sourced.withReply {accept : SwapAccept} {replied : SwapRecord}
    (h : Sourced decode legacy calls quotes rec) (hrequest : rec.swapRequest.isSome)
    (hwaiting : rec.swapAccept = none) (hreply : rec.withReply accept = .ok replied) :
    Sourced decode legacy calls quotes replied ∧ rec.Continues replied ∧
      replied.swapId = rec.swapId ∧ replied.swapAccept = some accept := by
  -- A record that was ready had a reply.
  have hcontract := h.contracted hrequest
  have hunready : ¬rec.clientExecutionReady = true := by
    intro hready
    obtain ⟨saved, -, hsaved, -⟩ := hcontract.ready hready
    rw [show rec.terms.swapAccept = rec.swapAccept from rfl, hwaiting] at hsaved
    cases hsaved
  have hforeign (replied : SwapRecord) (hnone : rec.swapRequest = none) :
      replied.terms = rec.terms := by
    rw [hnone] at hrequest
    cases hrequest
  unfold SwapRecord.withReply at hreply
  split at hreply
  · rename_i hdirection
    cases hreply
    refine ⟨Or.inl ⟨hrequest, ⟨hcontract.taproot, fun hready => absurd hready hunready⟩,
      fun hreverse => ?_⟩, ⟨rfl, id, id, hforeign _⟩, rfl, rfl⟩
    exact absurd (hdirection.symm.trans hreverse) nofun
  · rename_i hdirection
    obtain ⟨invoice, hinvoice, hreply⟩ := bind_eq_ok hreply
    rw [okOr_eq_ok] at hinvoice
    cases hreply
    refine ⟨Or.inl ⟨hrequest, ⟨hcontract.taproot, fun hready => absurd hready hunready⟩,
      fun _ => ?_⟩, ⟨rfl, id, id, hforeign _⟩, rfl, rfl⟩
    rcases h.reverse hdirection with ⟨quote, floor, preimage, -, hrec⟩ | ⟨hnone, -⟩
    · refine ⟨quote, floor, preimage, ?_⟩
      refine ⟨hrec.clientQuote, hrec.negotiated, hrec.confirmations, hrec.direction,
        hrec.preimageHex, hrec.hashHex, ?_, fun hready => ?_⟩
      · rintro saved ⟨⟩
        exact hinvoice
      · exact absurd hready hunready
    · rw [hnone] at hrequest
      cases hrequest

/-- The reply of the swap is saved. -/
def ClientWorld.RepliedAt (w : ClientWorld) (swapId : Uuid) (accept : SwapAccept) : Prop :=
  ∃ rec, w.store swapId = some rec ∧ rec.swapRequest.isSome ∧ rec.swapAccept = some accept

/-- The reply is saved, and is the reply of the swap from then on: a second one that differs
is refused. -/
theorem sound_recordCreationReply (hJ : Stable J) (hw : Keeps decode legacy calls J w)
    (swapId : Uuid) (accept : SwapAccept) :
    Sound (Moves decode) (Keeps decode legacy calls J) (OnOk fun _ w' => w'.RepliedAt swapId accept)
      (recordCreationReply swapId accept) w := by
  refine sound_load_bind hw (fun _ => trivial) fun rec hrec => ?_
  split
  · exact ⟨hw, trivial⟩
  rename_i hmatches
  have hrequest : rec.swapRequest.isSome := by
    cases hnone : rec.swapRequest with
    | none => exact absurd (Or.inl (by rw [hnone]; rfl)) hmatches
    | some request => rfl
  split
  · exact ⟨hw, trivial⟩
  rename_i hchanged
  split
  · rename_i hsame
    exact ⟨hw, rec, hrec, hrequest, hsame⟩
  rename_i hnew
  have hwaiting : rec.swapAccept = none := by
    cases hsaved : rec.swapAccept with
    | none => rfl
    | some saved =>
        rw [hsaved] at hchanged hnew
        exact absurd (by simpa using hchanged) fun h : saved = accept => hnew (congrArg some h)
  refine sound_orThrow_bind hw (fun _ _ => trivial) fun replied hreplied => ?_
  obtain ⟨hsourced, hcont, hid, haccept⟩ :=
    (hw.1.sourced swapId rec hrec).withReply hrequest hwaiting hreplied
  have hold : w.store replied.swapId = some rec := by
    rw [hid, hw.1.keyed swapId rec hrec, hrec]
  refine Sound.mono (fun _ h => h) ?_ (sound_persist hJ hw hold hsourced hcont)
  intro w' r _ hr
  cases r with
  | error e => trivial
  | ok _ =>
      obtain ⟨saved, hstore, hterms, -⟩ := hr
      rw [hid, hw.1.keyed swapId rec hrec] at hstore
      refine ⟨saved, hstore, ?_, ?_⟩
      · rw [show saved.swapRequest = saved.agreement.swapRequest from rfl,
          SwapRecord.agreement_of_terms hterms, hcont.agreement]
        exact hrequest
      · rw [show saved.swapAccept = saved.terms.swapAccept from rfl, hterms]
        exact haccept

omit [Crypto] [ClientCrates] in
/-- A payment hash is read back from its hex text. -/
theorem paymentHash_of_hex {hash : PaymentHash} (h : rec.paymentHashHex = Hex.encode hash.val) :
    rec.paymentHash = .ok hash := by
  unfold SwapRecord.paymentHash
  rw [h, Hex.decode_encode]
  exact dif_pos hash.property

/-- What makes an acceptance fit for execution: it locks the agreed amount, and its
invoice is bound to the agreed hash and total. -/
def Acceptable (decode : String → Option DecodedHoldInvoice) (agreed : SwapRecord)
    (accept : SwapAccept) : Prop :=
  ∃ quote invoice hash, agreed.clientQuote = some quote ∧ accept.invoice = some invoice ∧
    agreed.paymentHash = .ok hash ∧ InvoiceBinds decode invoice hash quote ∧
    accept.onchainAmountSat = quote.amountSat

/-- **A record made ready** is one whose acceptance is fit for execution. -/
theorem Sourced.readied {accept : SwapAccept} {agreed : SwapRecord}
    (h : Sourced decode legacy calls quotes rec) (hagreed : rec.agreement = agreed)
    (hrequest : rec.swapRequest.isSome) (hreply : rec.swapAccept = some accept)
    (haccept : rec.direction = .reverse → Acceptable decode agreed accept)
    {htlcScript : Bytes} (hscript : ScriptOf agreed accept htlcScript) (destSpk : Bytes) :
    Sourced decode legacy calls quotes (rec.readied accept htlcScript (Hex.encode destSpk)) := by
  have hcontract : Contracted (rec.readied accept htlcScript (Hex.encode destSpk)).terms := by
    refine ⟨(h.contracted hrequest).taproot,
      fun _ => ⟨accept, htlcScript, hreply, rfl, rfl, ?_, destSpk, rfl⟩⟩
    show ScriptOf rec.agreement accept htlcScript
    rw [hagreed]
    exact hscript
  refine Or.inl ⟨hrequest, hcontract, fun hdirection => ?_⟩
  rcases h.reverse hdirection with ⟨quote, floor, preimage, -, hrec⟩ | ⟨hnone, -⟩
  · obtain ⟨quote', invoice, hash, hquote, hinvoice, hhash, hbinds, hamount⟩ := haccept hdirection
    subst hagreed
    obtain rfl : quote = quote' := Option.some.inj (hrec.clientQuote.symm.trans hquote)
    obtain rfl : invoice = rec.invoice :=
      Option.some.inj (hinvoice.symm.trans (hrec.replied accept hreply))
    obtain rfl : paymentHash preimage = hash :=
      Except.ok.inj ((paymentHash_of_hex hrec.hashHex).symm.trans hhash)
    refine ⟨quote, floor, preimage, ?_⟩
    exact ⟨hrec.clientQuote, hrec.negotiated, hrec.confirmations, hrec.direction, hrec.preimageHex,
      hrec.hashHex, hrec.replied, fun _ => ⟨by
        rw [show (rec.readied accept htlcScript (Hex.encode destSpk)).terms.swapAccept =
          rec.swapAccept
          from rfl, hreply]
        rfl, hbinds, hamount⟩⟩
  · rw [hnone] at hrequest
    cases hrequest

/-- **Making a record executable.** -/
theorem sound_recordAccept {agreed : SwapRecord} {accept : SwapAccept} (hJ : Stable J)
    (hw : Keeps decode legacy calls J w) (hagreed : w.agreementAt swapId = some agreed)
    (haccept : agreed.direction = .reverse → Acceptable decode agreed accept)
    {htlcScript : Bytes} (hscript : ScriptOf agreed accept htlcScript) (destSpk : Bytes) :
    Sound (Moves decode) (Keeps decode legacy calls J) (OnOk fun _ w' => (w'.store swapId).isSome)
      (recordAccept swapId accept htlcScript (Hex.encode destSpk)) w := by
  -- The agreement is remembered while the reply is saved.
  have hstable : Stable fun w => J w ∧ w.agreementAt swapId = some agreed :=
    hJ.and (stable_agreementAt swapId (some agreed))
  have hreply := sound_recordCreationReply hstable ⟨hw.1, hw.2, hagreed⟩ swapId accept
  suffices h : Sound (Moves decode)
      (Keeps decode legacy calls fun w => J w ∧ w.agreementAt swapId = some agreed)
      (OnOk fun _ w' => (w'.store swapId).isSome)
      (recordAccept swapId accept htlcScript (Hex.encode destSpk)) w
    from Sound.mono (fun _ h => ⟨h.1, h.2.1⟩) (fun _ _ _ h => h) h
  refine Sound.bindOk hreply ?_
  rintro w₁ - ⟨hkept, hj, hat⟩ ⟨rec, hrec, hrequest, hsaved⟩
  refine sound_load_bind ⟨hkept, hj, hat⟩ (fun _ => trivial) fun found hfound => ?_
  rw [hrec] at hfound
  cases hfound
  have hagree : rec.agreement = agreed := by
    rw [ClientWorld.agreementAt, hrec] at hat
    exact Option.some.inj hat
  have hid := hkept.keyed swapId rec hrec
  have hdirection (h : rec.direction = .reverse) : Acceptable decode agreed accept :=
    haccept (by rw [← hagree]; exact h)
  have hkeyed : (rec.readied accept htlcScript (Hex.encode destSpk)).swapId = rec.swapId := rfl
  have hold : w₁.store (rec.readied accept htlcScript (Hex.encode destSpk)).swapId = some rec := by
    rw [hkeyed, hid, hrec]
  have hsourced : Sourced decode legacy calls w₁.quotes
      (rec.readied accept htlcScript (Hex.encode destSpk)) :=
    (hkept.sourced swapId rec hrec).readied hagree hrequest hsaved hdirection hscript destSpk
  refine Sound.mono (fun _ h => h) ?_
    (sound_persist hstable ⟨hkept, hj, hat⟩ hold hsourced ⟨rfl, id, id, fun hnone => ?_⟩)
  swap
  · rw [hnone] at hrequest
    cases hrequest
  intro w₂ r _ hr
  cases r with
  | error e => trivial
  | ok _ =>
      obtain ⟨saved, hstore, -⟩ := hr
      rw [hkeyed, hid] at hstore
      exact Option.isSome_iff_exists.mpr ⟨saved, hstore⟩

end

end PubkySwap
