import PubkySwap.ClientHistory

/-!
# Playing a history

An `Outside` answers every call a client operation makes, from what has happened so
far; the store does what it is asked, and never fails.  `ClientProgram.play` runs an
operation against it.  `reaches_play` says that this is one of the ways the operation
may go, so that a history can be built by playing one operation after another.
-/

namespace PubkySwap

open Program (Reaches)

/-- The outside of a client, but for its store. -/
structure Outside where
  /-- The swaps the store lists. -/
  listed : List Uuid
  answer : ClientWorld → (op : ClientOp) → ClientAns op

/-- What a client gets that has neither a provider nor backends. -/
def absent : (op : ClientOp) → ClientAns op
  | .get _ | .loadAll | .loadAllChecked => .error "no store"
  | .put _ => .error "no store"
  | .now => 0
  | .connect _ => .error "no provider"
  | .offer => .error "no provider"
  | .quote _ => .error "no provider"
  | .create _ | .recoverCreation _ => .error "no provider"
  | .acknowledge _ => .error "no provider"
  | .buildChain | .makeBackend | .buildWallet => .error "no backend"
  | .tipHeight => .error (.transient "no chain")
  | .receiveDestination => []
  | .createInvoice .. => .error (.backend "no node")
  | .decodeInvoice _ => .error (.backend "no node")
  | .execute _ => ()
  | .drive op => idle op

/-- The records on disk, in the order of the listing. -/
def ClientWorld.records (w : ClientWorld) (listed : List Uuid) : List SwapRecord :=
  listed.filterMap fun swapId => (w.store swapId).filter fun rec => rec.swapId = swapId

/-- One call against the outside. -/
def Outside.step (o : Outside) (w : ClientWorld) : (op : ClientOp) → ClientAns op × ClientWorld
  | .get swapId => (.ok (w.store swapId), w)
  | .put rec => (.ok (), w.write (rec.stamped none 0))
  | .loadAll => (.ok (w.records o.listed), w)
  | .loadAllChecked => (.ok (w.records o.listed), w)
  | .quote request =>
      match o.answer w (.quote request) with
      | .ok quote => (.ok quote, w.answered request quote)
      | .error e => (.error e, w)
  | .execute start => ((), w.called start)
  | .drive op => (o.answer w (.drive op), w.drove ⟨op, o.answer w (.drive op)⟩)
  | op => (o.answer w op, w)

/-- An operation against the outside, as far as it goes. -/
def ClientProgram.play {α : Type} (o : Outside) : ClientProgram α → ClientWorld → ClientWorld
  | .call op next, w => ClientProgram.play o (next (o.step w op).1) (o.step w op).2
  | _, w => w

/-- The outside reads invoices as `decode` does, and lists no swap twice. -/
structure Outside.Faithful (o : Outside) (decode : String → Option DecodedHoldInvoice) : Prop where
  listed : o.listed.Nodup
  decodes : ∀ w invoice decoded, o.answer w (.decodeInvoice invoice) = .ok decoded →
    decode invoice = some decoded

section

variable {o : Outside} {decode : String → Option DecodedHoldInvoice} {w : ClientWorld}

theorem ClientWorld.mem_records {listed : List Uuid} {rec : SwapRecord}
    (h : rec ∈ w.records listed) : rec.swapId ∈ listed ∧ w.store rec.swapId = some rec := by
  obtain ⟨swapId, hmem, hrec⟩ := List.mem_filterMap.mp h
  obtain ⟨hstore, hid⟩ := Option.filter_eq_some_iff.mp hrec
  have hid : rec.swapId = swapId := of_decide_eq_true hid
  rw [hid]
  exact ⟨hmem, hstore⟩

theorem ClientWorld.listing_records {listed : List Uuid} (h : listed.Nodup) :
    Listing w (w.records listed) := by
  refine ⟨?_, fun rec hmem => (mem_records hmem).2⟩
  induction listed with
  | nil => exact List.nodup_nil
  | cons swapId listed ih =>
      obtain ⟨hnot, hnodup⟩ := List.nodup_cons.mp h
      unfold ClientWorld.records
      rw [List.filterMap_cons]
      split
      · exact ih hnodup
      · rename_i rec hrec
        have hid : rec.swapId = swapId := of_decide_eq_true (Option.filter_eq_some_iff.mp hrec).2
        rw [List.map_cons, List.nodup_cons]
        refine ⟨fun hmem => hnot ?_, ih hnodup⟩
        obtain ⟨other, hother, hsame⟩ := List.mem_map.mp hmem
        rw [← hid, ← hsame]
        exact (mem_records hother).1

theorem Outside.step_moves (h : o.Faithful decode) (op : ClientOp) :
    Moves decode w op (o.step w op).1 (o.step w op).2 := by
  cases op with
  | get swapId => exact ⟨rfl, fun found hfound => (Except.ok.inj hfound).symm⟩
  | put rec => exact ⟨none, 0, Or.inr rfl, rfl⟩
  | loadAll =>
      refine ⟨rfl, fun records hrecords => ?_⟩
      rw [← Except.ok.inj hrecords]
      exact ClientWorld.listing_records h.listed
  | loadAllChecked =>
      refine ⟨rfl, fun records hrecords => ?_⟩
      rw [← Except.ok.inj hrecords]
      exact ClientWorld.listing_records h.listed
  | quote request =>
      cases hanswer : o.answer w (.quote request) with
      | ok quote => simp only [Outside.step, hanswer, Moves]
      | error e => simp only [Outside.step, hanswer, Moves]
  | decodeInvoice invoice => exact ⟨rfl, h.decodes w invoice⟩
  | _ => exact rfl

/-- **A play is one of the ways an operation may go.** -/
theorem reaches_play {α : Type} (h : o.Faithful decode) :
    ∀ (p : ClientProgram α) (w : ClientWorld), Reaches (Moves decode) p w (p.play o w) := by
  intro p
  induction p with
  | pure a => exact fun w => .stop _ w
  | throw e => exact fun w => .stop _ w
  | halt => exact fun w => .stop _ w
  | call op next ih => exact fun w => .call _ (Outside.step_moves h op) (ih _ _)

end

end PubkySwap
