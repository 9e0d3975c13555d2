import PubkySwap.ClientHistoryVerdict

/-!
# When a client pays again

`ClientWorld.timeline` is everything the drivers of a history have exchanged with the
outside, in order.  A node is honest if it says of a hash that it knows no payment, or
that the payment has failed, only when nothing that was asked for may still come of it.

`never_pays_twice`: with an honest node a client never asks for a payment of a swap while
an earlier one of the same swap may be in flight, have settled, or still have to be
admitted.  A run that was told of no earlier one pays even if the node knows nothing, and
the marker on the record makes sure that there was none.

The node is asked about the hash of the record, so this needs the record's invoice to be
for that hash.  A record that was rebuilt from a listing need not have such an invoice:
`pays_a_listed_invoice_twice`.
-/

namespace PubkySwap

open Program (Guarded)

/-! ## The exchange of all drivers -/

/-- What the drivers have exchanged with the outside, in order. -/
def timelineOf : List DriverRun → List (DriverStart × Event)
  | [] => []
  | run :: older => timelineOf older ++ run.log.map fun event => (run.start, event)

def ClientWorld.timeline (w : ClientWorld) : List (DriverStart × Event) := timelineOf w.runs

section

variable {runs older newer : List DriverRun} {run : DriverRun} {start : DriverStart}
  {event : Event} {t : ℕ}

/-- An exchange belongs to a run. -/
theorem exists_of_timelineOf (h : (timelineOf runs)[t]? = some (start, event)) :
    ∃ newer run older before after, runs = newer ++ run :: older ∧ run.start = start ∧
      run.log = before ++ event :: after ∧ t = (timelineOf older).length + before.length := by
  induction runs with
  | nil => cases h
  | cons run older ih =>
      by_cases hlt : t < (timelineOf older).length
      · unfold timelineOf at h
        rw [List.getElem?_append_left hlt] at h
        obtain ⟨newer, found, rest, before, after, rfl, hstart, hlog, ht⟩ := ih h
        exact ⟨run :: newer, found, rest, before, after, rfl, hstart, hlog, ht⟩
      · unfold timelineOf at h
        rw [List.getElem?_append_right (by omega), List.getElem?_map,
          Option.map_eq_some_iff] at h
        obtain ⟨found, hfound, heq⟩ := h
        obtain ⟨rfl, rfl⟩ := Prod.mk.inj heq
        obtain ⟨hlength, hget⟩ := List.getElem?_eq_some_iff.mp hfound
        refine ⟨[], run, older, run.log.take (t - (timelineOf older).length),
          run.log.drop (t - (timelineOf older).length + 1), rfl, rfl, ?_, ?_⟩
        · rw [← hget, List.cons_getElem_drop_succ, List.take_append_drop]
        · rw [List.length_take]
          omega

/-- The exchanges of older runs come first. -/
theorem timelineOf_append (newer older : List DriverRun) :
    ∃ rest, timelineOf (newer ++ older) = timelineOf older ++ rest := by
  induction newer with
  | nil => exact ⟨[], (List.append_nil _).symm⟩
  | cons run newer ih =>
      obtain ⟨rest, hrest⟩ := ih
      refine ⟨rest ++ run.log.map fun event => (run.start, event), ?_⟩
      rw [List.cons_append, timelineOf, hrest, List.append_assoc]

/-- The exchanges of a run, where it stands. -/
theorem timelineOf_run (hruns : runs = newer ++ run :: older) {i : ℕ}
    (hi : run.log[i]? = some event) :
    (timelineOf runs)[(timelineOf older).length + i]? = some (run.start, event) := by
  obtain ⟨rest, hrest⟩ := timelineOf_append newer (run :: older)
  obtain ⟨hlength, -⟩ := List.getElem?_eq_some_iff.mp hi
  rw [hruns, hrest, timelineOf, List.append_assoc, List.getElem?_append_right (by omega),
    Nat.add_sub_cancel_left, List.getElem?_append_left (by simpa using hlength), List.getElem?_map,
    hi, Option.map_some]

theorem timelineOf_older (hruns : runs = newer ++ run :: older)
    (ht : t < (timelineOf older).length) : (timelineOf runs)[t]? = (timelineOf older)[t]? := by
  obtain ⟨rest, hrest⟩ := timelineOf_append (newer ++ [run]) older
  rw [hruns, ← List.singleton_append, ← List.append_assoc, hrest, List.getElem?_append_left ht]

end

/-! ## An honest node -/

/-- The exchange asks for a payment of the hash, for the swap. -/
def AsksFor (decode : String → Option DecodedHoldInvoice) (swapId : Uuid) (hash : PaymentHash)
    (entry : DriverStart × Event) : Prop :=
  entry.1.swapId = swapId ∧ (∃ claim n, entry.1.execution = .reverse claim n) ∧
    ∃ invoice fee cltv decoded,
      (entry.2.1 = .payInvoice invoice fee cltv ∨ entry.2.1 = .spawnPayInvoice invoice fee cltv) ∧
        decode invoice = some decoded ∧ decoded.paymentHash = hash

section

variable [Crypto] (decode : String → Option DecodedHoldInvoice) (w : ClientWorld)

/-- **An honest node.**  `live t swapId hash` says that before exchange `t` a payment of
the hash that was asked for on behalf of the swap may be in flight, have settled, or still
have to be admitted.

Such a payment was asked for before; the ones from before this history are those of
records that carry no request, for the hash of the record.  The node answers that it
knows no payment of a hash, or that the payment has failed, only if none is live. -/
structure HonestNode (live : ℕ → Uuid → PaymentHash → Prop) : Prop where
  start : ∀ swapId hash, live 0 swapId hash → ∃ rec preimage, w.store swapId = some rec ∧
    rec.swapRequest = none ∧ rec.preimage = .ok (some preimage) ∧ hash = paymentHash preimage
  step : ∀ t swapId hash, live (t + 1) swapId hash → live t swapId hash ∨
    ∃ entry, w.timeline[t]? = some entry ∧ AsksFor decode swapId hash entry
  status : ∀ t start hash answer,
    w.timeline[t]? = some (start, ⟨.paymentStatus hash, answer⟩) →
      (answer = .ok .notFound ∨ ∃ reason, answer = .ok (.failed reason)) →
        ∀ swapId, ¬live t swapId hash

/-- No payment of a swap is asked for while an earlier one of it is live. -/
def NeverPaysTwice (live : ℕ → Uuid → PaymentHash → Prop) : Prop :=
  ∀ t start event, w.timeline[t]? = some (start, event) → event.1.pays = true →
    (∃ claim n, start.execution = .reverse claim n) → ∀ hash, ¬live t start.swapId hash

/-- The record's invoice, if it can be read, is for the hash of the record's preimage. -/
def OwnInvoice (rec : SwapRecord) : Prop :=
  ∀ preimage decoded, rec.preimage = .ok (some preimage) → decode rec.invoice = some decoded →
    decoded.paymentHash = paymentHash preimage

end

section

variable [Crypto] [ClientCrates] {decode : String → Option DecodedHoldInvoice}
  {legacy : List SwapRecord} {calls : List ClientCall} {w : ClientWorld}
  {live : ℕ → Uuid → PaymentHash → Prop}

/-- What a reverse driver pays is for the hash of its own preimage. -/
theorem hash_of_given {swapId : Uuid} {claim : ReverseClaim}
    {n : ℕ} {decoded : DecodedHoldInvoice} (hgiven : Given decode calls w swapId claim n)
    (hforeign : EveryForeign w (OwnInvoice decode))
    (hdecoded : decode claim.invoice = some decoded) :
    decoded.paymentHash = claim.paymentHash := by
  rcases hgiven with ⟨quote, floor, -, -, -, found, hfound, hhash, -⟩ |
    ⟨rec, hstore, hrequest, hclaim, -⟩
  · obtain rfl := Option.some.inj (hfound.symm.trans hdecoded)
    exact hhash
  · obtain ⟨hread, hinvoice, -⟩ := reverseClaimFromRecord_eq_ok hclaim
    rw [hinvoice] at hdecoded
    exact hforeign swapId rec hstore hrequest claim.preimage decoded hread hdecoded

/-- **What is live for a swap** is for the hash of its record, and was asked for before the
history or by a run of the swap. -/
theorem live_of_kept (hkept : Kept decode legacy calls w)
    (hforeign : EveryForeign w (OwnInvoice decode)) (hnode : HonestNode decode w live)
    {swapId : Uuid} {hash : PaymentHash} : ∀ {t : ℕ}, live t swapId hash →
      ∃ rec preimage, w.store swapId = some rec ∧ rec.preimage = .ok (some preimage) ∧
        hash = paymentHash preimage ∧ (rec.swapRequest = none ∨
          ∃ t' < t, ∃ entry, w.timeline[t']? = some entry ∧ AsksFor decode swapId hash entry) := by
  intro t
  induction t with
  | zero =>
      intro hlive
      obtain ⟨rec, preimage, hstore, hrequest, hread, hhash⟩ := hnode.start swapId hash hlive
      exact ⟨rec, preimage, hstore, hread, hhash, Or.inl hrequest⟩
  | succ t ih =>
      intro hlive
      rcases hnode.step t swapId hash hlive with hbefore | ⟨⟨start, event⟩, hat, hasks⟩
      · obtain ⟨rec, preimage, hstore, hread, hhash, hasked⟩ := ih hbefore
        refine ⟨rec, preimage, hstore, hread, hhash, hasked.imp_right ?_⟩
        rintro ⟨t', hlt, hentry⟩
        exact ⟨t', by omega, hentry⟩
      · obtain ⟨rfl, ⟨claim, n, hexec⟩, invoice, fee, cltv, decoded, hcall, hdecoded, rfl⟩ := hasks
        obtain ⟨newer, run, older, before, after, hruns, rfl, hlog, -⟩ := exists_of_timelineOf hat
        have hrun : run ∈ w.runs := by
          rw [hruns]
          exact List.mem_append_right _ (List.mem_cons_self ..)
        obtain ⟨hgiven, ⟨rec, hstore, -, hread⟩, -, hpays, -⟩ := hkept.runs run hrun claim n hexec
        have hinvoice : invoice = claim.invoice :=
          hpays event (by rw [hlog]; simp) invoice fee cltv hcall
        refine ⟨rec, claim.preimage, hstore, hread, ?_, Or.inr ⟨t, by omega, _, hat, rfl, ⟨claim, n,
          hexec⟩, invoice, fee, cltv, decoded, hcall, hdecoded, rfl⟩⟩
        exact hash_of_given hgiven hforeign (hinvoice ▸ hdecoded)

omit [Crypto] [ClientCrates] in
/-- A run that asks for a payment is one that pays. -/
theorem pays_of_asksFor {run : DriverRun} {event : Event} {swapId : Uuid} {hash : PaymentHash}
    (hevent : event ∈ run.log) (h : AsksFor decode swapId hash (run.start, event)) :
    run.start.swapId = swapId ∧ run.pays = true := by
  obtain ⟨hid, ⟨claim, n, hexec⟩, invoice, fee, cltv, decoded, hcall, -⟩ := h
  refine ⟨hid, ?_⟩
  unfold DriverRun.pays
  rw [show run.start.execution = .reverse claim n from hexec]
  refine List.any_eq_true.mpr ⟨event, hevent, ?_⟩
  rcases hcall with hcall | hcall
  · rw [show event.1 = .payInvoice invoice fee cltv from hcall]
    rfl
  · rw [show event.1 = .spawnPayInvoice invoice fee cltv from hcall]
    rfl

/-- **A client never pays one swap twice**, if its node is honest and every record without
a request has an invoice for its own hash. -/
theorem never_pays_twice (h : History decode legacy calls w)
    (hforeign : EveryForeign w (OwnInvoice decode)) (hnode : HonestNode decode w live) :
    NeverPaysTwice w live := by
  rintro t start event hat hpays ⟨claim, n, hexec⟩ hash hlive
  have hkept := kept_of_history h
  obtain ⟨newer, run, older, before, after, hruns, rfl, hlog, rfl⟩ := exists_of_timelineOf hat
  have hrun : run ∈ w.runs := by
    rw [hruns]
    exact List.mem_append_right _ (List.mem_cons_self ..)
  obtain ⟨-, ⟨rec, hstore, -, hread⟩, -, -, hcleared⟩ := hkept.runs run hrun claim n hexec
  obtain ⟨answer, rfl, hanswer⟩ := hcleared before event after hlog hpays
  -- What is live is for the hash the node was asked about, right before.
  obtain ⟨found, preimage, hfound, hpreimage, rfl, -⟩ :=
    live_of_kept hkept hforeign hnode hlive
  rw [hstore] at hfound
  cases hfound
  obtain rfl : claim.preimage = preimage :=
    Option.some.inj (Except.ok.inj (hread.symm.trans hpreimage))
  have hasked : w.timeline[(timelineOf older).length]? =
      some (run.start, ⟨.paymentStatus claim.paymentHash, answer⟩) :=
    timelineOf_run (i := 0) hruns (by rw [hlog]; rfl)
  have hlive₀ : live (timelineOf older).length run.start.swapId claim.paymentHash := by
    rcases hnode.step _ _ _ hlive with hbefore | ⟨entry, hentry, -, -, _, _, _, _, hcall, -⟩
    · exact hbefore
    · rw [hasked] at hentry
      cases hentry
      rcases hcall with hcall | hcall <;> cases hcall
  rcases answer with e | status
  · exact hanswer.elim
  cases status with
  | notFound => exact hnode.status _ _ _ _ hasked (Or.inl rfl) _ hlive₀
  | failed reason => exact hnode.status _ _ _ _ hasked (Or.inr ⟨reason, rfl⟩) _ hlive₀
  | inFlight => exact hanswer.elim
  | succeeded result => exact hanswer.elim
  | unknown =>
      -- The first run of a negotiated swap: nobody has asked before.
      obtain ⟨hunpaid, first, hfirst, hrequest⟩ :=
        hkept.fresh newer run older hruns ⟨hanswer, claim, n, hexec⟩
      obtain ⟨rec', _, hrec', -, -, hnone | ⟨t', hlt, ⟨start', event'⟩, hentry, hasks⟩⟩ :=
        live_of_kept hkept hforeign hnode hlive₀
      · rw [hfirst] at hrec'
        cases hrec'
        rw [hnone] at hrequest
        cases hrequest
      · have hold : (timelineOf older)[t']? = some (start', event') :=
          (timelineOf_older hruns hlt).symm.trans hentry
        obtain ⟨newer', run', older', before', after', rfl, rfl, hlog', -⟩ :=
          exists_of_timelineOf hold
        obtain ⟨hid, hpaid⟩ := pays_of_asksFor (by rw [hlog']; simp) hasks
        rw [hunpaid run' (List.mem_append_right _ (List.mem_cons_self ..)) hid] at hpaid
        cases hpaid

end

/-! ## A listed swap that is resumed twice -/

namespace ResumedTwice

open ListingTrusted

local instance tables : Crypto := tableCrypto []

local instance crates : ClientCrates := plainCrates

/-- The world after the restored swap was resumed a second time. -/
def again (listed : SwapStatusSnapshot) : ClientWorld :=
  (resume.program 1).play ListingTrusted.outside (resumed listed)

theorem history_again (listed : SwapStatusSnapshot) :
    History decode [] [resume, resume, restore listed] (again listed) :=
  .call (history_resumed listed) resume 1 (fun _ h => by cases h)
    (reaches_play faithful (resume.program 1) _)

/-- What an exchange has to do with payments. -/
inductive Kind where
  | asks (invoice : String)
  | status (hash : PaymentHash)
  | other
  deriving DecidableEq

def kind (entry : DriverStart × Event) : Kind :=
  match entry.2.1 with
  | .spawnPayInvoice invoice _ _ => .asks invoice
  | .paymentStatus hash => .status hash
  | _ => .other

/-- Two runs that ask the node about the record's hash, and pay. -/
def twice (invoice : String) : List Kind :=
  [.status (Bytes32.ofNat 0), .asks invoice, .other, .other, .other, .other,
    .status (Bytes32.ofNat 0), .asks invoice, .other, .other, .other, .other]

/-- The world's drivers are those of the reverse swap, and do just that. -/
def Twice (w : ClientWorld) (invoice : String) : Prop :=
  w.timeline.map kind = twice invoice ∧
    w.timeline.all (fun entry => entry.1.swapId = 7 &&
      match entry.1.execution with
      | .reverse _ _ => true
      | .submarine _ => false) = true

instance (w : ClientWorld) (invoice : String) : Decidable (Twice w invoice) :=
  inferInstanceAs (Decidable (_ ∧ _))

section

variable {w : ClientWorld} {invoice : String} {t : ℕ} {start : DriverStart} {event : Event}

theorem Twice.kind_at (h : Twice w invoice) (hat : w.timeline[t]? = some (start, event)) :
    (twice invoice)[t]? = some (kind (start, event)) := by
  rw [← h.1, List.getElem?_map, hat, Option.map_some]

theorem Twice.reverse (h : Twice w invoice) (hat : w.timeline[t]? = some (start, event)) :
    start.swapId = 7 ∧ ∃ claim n, start.execution = .reverse claim n := by
  have hentry := List.all_eq_true.mp h.2 _ (List.mem_of_getElem? hat)
  obtain ⟨hid, hexec⟩ := Bool.and_eq_true_iff.mp hentry
  refine ⟨of_decide_eq_true hid, ?_⟩
  split at hexec
  · rename_i claim n heq
    exact ⟨claim, n, heq⟩
  · cases hexec

/-- The node is asked twice, about the record's hash. -/
theorem Twice.status (h : Twice w invoice) {hash : PaymentHash}
    {answer : Ans (.paymentStatus hash)}
    (hat : w.timeline[t]? = some (start, ⟨.paymentStatus hash, answer⟩)) :
    hash = Bytes32.ofNat 0 ∧ (t = 0 ∨ t = 6) := by
  have hkind : (twice invoice)[t]? = some (.status hash) := h.kind_at hat
  have hlt : t < 12 := (List.getElem?_eq_some_iff.mp hkind).1
  interval_cases t
  all_goals first
    | exact ⟨(Kind.status.inj (Option.some.inj hkind)).symm, by decide⟩
    | cases hkind

/-- It is asked to pay right after each time. -/
theorem Twice.asks (h : Twice w invoice) (ht : t = 1 ∨ t = 7) : ∃ entry,
    w.timeline[t]? = some entry ∧ ∃ fee cltv, entry.2.1 = .spawnPayInvoice invoice fee cltv := by
  have hkind : (w.timeline.map kind)[t]? = some (.asks invoice) := by
    rw [h.1]
    rcases ht with rfl | rfl <;> rfl
  rw [List.getElem?_map, Option.map_eq_some_iff] at hkind
  obtain ⟨entry, hentry, hasks⟩ := hkind
  refine ⟨entry, hentry, ?_⟩
  unfold kind at hasks
  split at hasks
  · rename_i found fee cltv heq
    cases hasks
    exact ⟨fee, cltv, heq⟩
  · cases hasks
  · cases hasks

/-- The payment that the first run asks for, and until when it lives. -/
def first (hash : PaymentHash) (last : ℕ) (t : ℕ) (swapId : Uuid) (found : PaymentHash) : Prop :=
  2 ≤ t ∧ t ≤ last ∧ swapId = 7 ∧ found = hash

/-- A node that is asked twice and pays in between is honest, if nothing comes of the first
payment any more when it is asked again, or if that payment is of another hash. -/
theorem Twice.honest (h : Twice w invoice) {decoded : DecodedHoldInvoice} {last : ℕ}
    (hdecoded : decode invoice = some decoded)
    (hother : decoded.paymentHash ≠ Bytes32.ofNat 0 ∨ last < 6) :
    HonestNode decode w (first decoded.paymentHash last) where
  start swapId hash hlive := absurd hlive.1 (by decide)
  step t swapId hash hlive := by
    obtain ⟨hlow, hhigh, rfl, rfl⟩ := hlive
    by_cases ht : t = 1
    · obtain ⟨⟨start, event⟩, hentry, fee, cltv, hcall⟩ := h.asks (Or.inl ht)
      obtain ⟨hid, hexec⟩ := h.reverse hentry
      exact Or.inr ⟨_, hentry, hid, hexec, invoice, fee, cltv, decoded, Or.inr hcall, hdecoded, rfl⟩
    · exact Or.inl ⟨by omega, by omega, rfl, rfl⟩
  status t start hash answer hat _ swapId hlive := by
    obtain ⟨hhash, ht⟩ := h.status hat
    obtain ⟨hlow, hhigh, -, hfound⟩ := hlive
    rcases hother with hother | hlast
    · exact hother (hfound.symm.trans hhash)
    · omega

end

/-- **A listed invoice is paid twice**: the node is asked about the hash of the record, and
the invoice is for another one. -/
theorem pays_a_listed_invoice_twice :
    History decode [] [resume, resume, restore (snapshot .taprootBoltz "chosen" 2)]
        (again (snapshot .taprootBoltz "chosen" 2)) ∧
      HonestNode decode (again (snapshot .taprootBoltz "chosen" 2))
        (first (Bytes32.ofNat 99) 12) ∧
      ¬NeverPaysTwice (again (snapshot .taprootBoltz "chosen" 2))
        (first (Bytes32.ofNat 99) 12) := by
  have htwice : Twice (again (snapshot .taprootBoltz "chosen" 2)) "chosen" := by decide +kernel
  have hdecoded : decode "chosen" = some ⟨Bytes32.ofNat 99, 5000000000, true, 0⟩ := rfl
  refine ⟨history_again _, htwice.honest hdecoded (Or.inl (by decide)), fun hnever => ?_⟩
  obtain ⟨⟨start, event⟩, hentry, fee, cltv, hcall⟩ := htwice.asks (Or.inr rfl)
  obtain ⟨hid, hexec⟩ := htwice.reverse hentry
  refine hnever 7 start event hentry ?_ hexec (Bytes32.ofNat 99) ⟨by decide, by decide, hid, rfl⟩
  rw [show event.1 = .spawnPayInvoice "chosen" fee cltv from hcall]
  rfl

/-- The general statement at a swap that is paid again after its first payment has failed. -/
theorem never_pays_twice_again :
    NeverPaysTwice (again (snapshot .taprootBoltz "agreed" 2)) (first (Bytes32.ofNat 0) 5) := by
  have htwice : Twice (again (snapshot .taprootBoltz "agreed" 2)) "agreed" := by decide +kernel
  have hdecoded : decode "agreed" = some ⟨Bytes32.ofNat 0, 100700000, true, 0⟩ := rfl
  refine never_pays_twice (history_again _) (everyForeign_of_onlySeven (history_again _) rfl
    fun rec hstore => ?_) (htwice.honest hdecoded (Or.inr (by decide)))
  have hsaved : ((again (snapshot .taprootBoltz "agreed" 2)).store 7).map
        (fun rec => (rec.invoice, rec.preimageHex)) =
      some ("agreed", some (Hex.encode (Bytes32.ofNat 81).val)) := by decide +kernel
  rw [hstore, Option.map_some, Option.some.injEq, Prod.mk.injEq] at hsaved
  obtain ⟨hinvoice, hhex⟩ := hsaved
  intro preimage found hpreimage hfound
  obtain rfl := preimage_unique hhex hpreimage
  rw [hinvoice, hdecoded] at hfound
  cases hfound
  rfl

end ResumedTwice

end PubkySwap
