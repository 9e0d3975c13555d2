import PubkySwap.OutboxRun

/-!
# The journal reopens

Whatever calls are made, whichever writes are lost and whenever the process is restarted,
the file of the outbox holds a journal that can be opened: `Outbox.System.Reopens` holds
throughout.  A reservation that is answered leaves an entry with the bytes of its answer.
The entry stays in the journal until its deadline has come and it is removed, and as long
as it is there every reservation of its content is answered with the same bytes.
`ReservedTwice` has such an entry from its reservation to its removal.
-/

namespace PubkySwap

open Messenger (PreparedMessage)

namespace Outbox

section

variable [Messenger]

/-- Whether an operation is paused for a failure that needs attention. -/
def PausedFor (paused : Bool) (failure : Option DeliveryFailure) : Prop :=
  paused = true → ∃ reason, failure = some reason ∧ reason.isRetryable = false

omit [Messenger] in
theorem pausedFor_of_pausedInvalidly {paused : Bool} {failure : Option DeliveryFailure}
    (h : pausedInvalidly paused failure = false) : PausedFor paused failure := by
  intro hpaused
  unfold pausedInvalidly at h
  rw [hpaused, Bool.true_and] at h
  cases failure with
  | none => cases h
  | some reason => exact ⟨reason, rfl, h⟩

/-- An entry with this core is in the file. -/
def System.Holds (system : System) (entry : Entry) : Prop :=
  ∃ journal, system.file = some journal ∧ ∃ kept ∈ journal.entries, kept.core = entry.core

/-- The call is answered. -/
def System.Answers (system : System) (op : Op) (write : Write) (answer : Option PreparedMessage) :
    Prop :=
  ∃ state, system.process = some state ∧ (op.run write state system.file).1 = .ok answer

/-- A process has the outbox open, and all that it has written was saved. -/
def System.Ready (system : System) : Prop :=
  ∃ state, system.process = some state ∧ state.writeFailed = false

/-- The event removes what has this identifier. -/
def Event.Removes (id : String) : Event → Prop
  | .call (.removeDeleted ids _) _ => id ∈ ids
  | _ => False

/-- What an outbox keeps. -/
structure System.Reopens (system : System) : Prop where
  /-- Every journal in the file can be opened. -/
  opens : ∀ journal, system.file = some journal → journal.byteLength ≤ maxBytes ∧
    ∀ write, openAt write system.file = (.ok ⟨journal, false⟩, system.file)
  /-- Identifiers and reservations are unique, and what is paused needs attention. -/
  wellFormed : ∀ journal, system.file = some journal → (journal.entries.map Entry.id).Nodup ∧
    (journal.entries.map Entry.reservation).Nodup ∧ ∀ entry ∈ journal.entries,
      PausedFor entry.publicationPaused entry.publicationFailure ∧
        PausedFor entry.cleanupPaused entry.cleanupFailure
  /-- No call is refused for the size of the journal that it writes. -/
  fits : ∀ state, system.process = some state → state.writeFailed = false → ∀ op : Op,
    op.check = .ok () → ∀ answer after changed,
      op.change state.journal = .ok (answer, after, changed) →
        (op.run .saved state system.file).1 = .ok answer
  /-- A reservation that is answered leaves an entry of its peer, scope and content, in the
  file and in the process, with the bytes of the answer. -/
  reserves : ∀ peer scope content eligibleAfter prepared write answer,
    system.Answers (.prepare peer scope content eligibleAfter prepared) write answer →
      ∃ state entry,
        system.step (.call (.prepare peer scope content eligibleAfter prepared) write) =
            ⟨some state.journal, some state⟩ ∧
          entry ∈ state.journal.entries ∧ entry.peer = peer ∧ entry.scope = scope ∧
          entry.contentDigest = Messenger.contentHash content ∧ answer = some entry.prepared
  /-- Until that entry is removed, the same content is answered with the same bytes, whatever
  else is called, and however often the process is restarted. -/
  again : ∀ peer scope content eligibleAfter prepared write message,
    system.Answers (.prepare peer scope content eligibleAfter prepared) write (some message) →
      ∀ events, (∀ event ∈ events, ¬event.Removes (Messenger.id message)) →
        ∀ later, later = (system.step
            (.call (.prepare peer scope content eligibleAfter prepared) write)).run events →
          later.Ready → ∀ eligibleAfter' prepared',
            later.Answers (.prepare peer scope content eligibleAfter' prepared') .saved
              (some message)
  /-- Content that is still reserved is answered with the bytes it was reserved with. -/
  repeats : ∀ state, system.process = some state → state.writeFailed = false →
    ∀ entry, system.Holds entry → ∀ content, Messenger.contentHash content = entry.contentDigest →
      ∀ eligibleAfter prepared,
        ((Op.prepare entry.peer entry.scope content eligibleAfter prepared).run .saved state
          system.file).1 = .ok (some entry.prepared)
  /-- An entry goes when it is removed after its deadline, and not otherwise. -/
  removes : ∀ journal entry event, system.file = some journal → entry ∈ journal.entries →
    ¬(system.step event).Holds entry → ∃ ids now write,
      event = .call (.removeDeleted ids now) write ∧ entry.id ∈ ids ∧ cleanupDue entry now = true
  /-- A call that fails leaves the journal of the process as it was. -/
  unchanged : ∀ state, system.process = some state →
    ∀ (op : Op) (write : Write) (e : TransportError),
    (op.run write state system.file).1 = .error e →
      (op.run write state system.file).2.1.journal = state.journal

variable {system : System}

/-- What a call leaves in the journal. -/
theorem Changes.mem_or_removed {op : Op} {journal after : Journal}
    {answer : Option PreparedMessage} (h : Changes op journal answer after) {entry : Entry}
    (hentry : entry ∈ journal.entries) :
    (∃ kept ∈ after.entries, kept.core = entry.core) ∨
      ∃ ids now, op = .removeDeleted ids now ∧ entry.id ∈ ids ∧ cleanupDue entry now = true := by
  cases h with
  | kept h => exact .inl (h.exists_core hentry)
  | removed ids now hop h hdue =>
      rcases hdue entry hentry with hmem | ⟨hid, hcome⟩
      · exact .inl ⟨entry, hmem, rfl⟩
      · exact .inr ⟨ids, now, hop, hid, hcome⟩
  | reserved hop h => exact .inl ⟨entry, List.mem_append_left _ hentry, rfl⟩

/-- **A step that loses an entry removes it.** -/
theorem System.Sound.removes (h : system.Sound) {journal : Journal} {entry : Entry} {event : Event}
    (hfile : system.file = some journal) (hentry : entry ∈ journal.entries)
    (hlost : ¬(system.step event).Holds entry) :
    ∃ ids now write, event = .call (.removeDeleted ids now) write ∧ entry.id ∈ ids ∧
      cleanupDue entry now = true := by
  -- the entry is gone from the file, so that the file has changed
  have hgone {after : Journal} (hafter : (system.step event).file = some after)
      (hkept : ∃ kept ∈ after.entries, kept.core = entry.core) : False :=
    hlost ⟨after, hafter, hkept⟩
  have hstays (hsame : (system.step event).file = some journal) : False :=
    hgone hsame ⟨entry, hentry, rfl⟩
  obtain ⟨file, process⟩ := system
  obtain rfl : file = some journal := hfile
  cases event with
  | start write =>
      cases process with
      | some state => exact (hstays rfl).elim
      | none =>
          refine (hstays ?_).elim
          simp only [System.step, openAt_of_good (h.file journal rfl)]
  | stop =>
      cases process with
      | some state => exact (hstays rfl).elim
      | none => exact (hstays rfl).elim
  | call op write =>
      cases process with
      | none => exact (hstays rfl).elim
      | some state =>
          have hrun : (System.step (.call op write) ⟨some journal, some state⟩).file =
              (op.run write state (some journal)).2.2 := rfl
          rw [hrun] at hstays hgone
          unfold Op.run at hstays hgone
          cases hcheck : op.check with
          | error e =>
              rw [hcheck] at hstays
              exact (hstays rfl).elim
          | ok u =>
              simp only [hcheck] at hstays hgone
              have hupdates := updates_update write op.change state (some journal)
              generalize update write op.change state (some journal) = result
                at hstays hgone hupdates
              -- a change that was written is one of the journal in memory, which was the file
              have hchanged {answer : Option PreparedMessage} {after : Journal} {changed : Bool}
                  (hfailed : state.writeFailed = false)
                  (hok : op.change state.journal = .ok (answer, after, changed))
                  (hafter : result.2.2 = some after) : ∃ ids now write',
                    Event.call op write = .call (.removeDeleted ids now) write' ∧ entry.id ∈ ids ∧
                      cleanupDue entry now = true := by
                have hjournal := Option.some.inj (h.agrees state rfl hfailed)
                rcases (changes_of_change hok).mem_or_removed (hjournal ▸ hentry) with
                  hkept | ⟨ids, now, rfl, hid, hdue⟩
                · exact (hgone hafter hkept).elim
                · exact ⟨ids, now, write, rfl, hid, hdue⟩
              cases hupdates with
              | failed e hfailed => exact (hstays rfl).elim
              | refused hrefused => exact (hstays rfl).elim
              | unchanged hfailed hok => exact (hstays rfl).elim
              | saved hfailed hok => exact hchanged hfailed hok rfl
              | unsaved e hfailed hok hleft =>
                  -- a write that has failed has reached the disk or not
                  rcases hleft with rfl | rfl
                  · exact (hstays rfl).elim
                  · exact hchanged hfailed hok rfl

/-- **Content that is still reserved is answered with its message.** -/
theorem System.Sound.repeats (h : system.Sound) {state : State}
    (hprocess : system.process = some state) (hfailed : state.writeFailed = false) {entry : Entry}
    (hholds : system.Holds entry) {content : String}
    (hcontent : Messenger.contentHash content = entry.contentDigest) (eligibleAfter : Option UInt64)
    (prepared : Option PreparedMessage) :
    ((Op.prepare entry.peer entry.scope content eligibleAfter prepared).run .saved state
      system.file).1 = .ok (some entry.prepared) := by
  have hgood := h.journal state hprocess
  obtain ⟨journal, hfile, kept, hkept, hcore⟩ := hholds
  obtain rfl : state.journal = journal :=
    Option.some.inj ((h.agrees state hprocess hfailed).symm.trans hfile)
  have hreservation : kept.core.reservation = entry.core.reservation :=
    congrArg Entry.reservation hcore
  have hprepared : kept.core.prepared = entry.core.prepared := congrArg Entry.prepared hcore
  change kept.reservation = entry.reservation at hreservation
  have hassociated : kept.Associated state.journal.owner := hgood.valid.associated kept hkept
  simp only [Entry.reservation, Prod.mk.injEq] at hreservation
  obtain ⟨hpeer, hscope, hdigest⟩ := hreservation
  have hfind : state.journal.entries.find? (Entry.reserves entry.peer entry.scope
      (Messenger.contentHash content)) = some kept := by
    have hreserves :
        kept.reserves entry.peer entry.scope (Messenger.contentHash content) = true := by
      simp only [Entry.reserves, hpeer, hscope, hcontent, hdigest, beq_self_eq_true, Bool.and_self]
    obtain ⟨found, hfound⟩ := Option.isSome_iff_exists.mp
      (List.find?_isSome.mpr ⟨kept, hkept, hreserves⟩)
    have hfoundReserves := List.find?_some hfound
    simp only [Entry.reserves, Bool.and_eq_true, beq_iff_eq] at hfoundReserves
    have hsame : found.reservation = kept.reservation := by
      simp only [Entry.reservation, hfoundReserves, hpeer, hscope, hcontent, hdigest]
    rw [hfound, List.inj_on_of_nodup_map hgood.valid.reservations
      (List.mem_of_find?_eq_some hfound) hkept hsame]
  refine (run_saved_eq_ok_iff hgood).mpr ⟨?_, hfailed, change_prepare_eq_ok_iff.mpr
    ⟨_, rfl, .inl ⟨kept, hfind, hprepared.symm⟩⟩⟩
  rw [← hpeer, ← hscope]
  exact hassociated.1

/-- What a reservation is answered is the message of an entry of the journal it leaves. -/
theorem reserve_eq_ok {peer scope : String} {digest : Bytes32} {eligibleAfter : Option UInt64}
    {prepared : Option PreparedMessage} {journal after : Journal} {message : PreparedMessage}
    {changed : Bool}
    (h : reserve peer scope digest eligibleAfter prepared journal = .ok (message, after, changed)) :
    ∃ entry ∈ (if changed then after else journal).entries,
      entry.reservation = (peer, scope, digest) ∧ entry.prepared = message := by
  cases hfind : journal.entries.find? (Entry.reserves peer scope digest) with
  | none =>
      obtain ⟨-, -, rfl, rfl⟩ := (reserve_new hfind).mp h
      exact ⟨_, List.mem_append_right _ (List.mem_singleton_self _), rfl, rfl⟩
  | some entry =>
      have hreserves := List.find?_some hfind
      simp only [Entry.reserves, Bool.and_eq_true, beq_iff_eq] at hreserves
      have hreservation : entry.reservation = (peer, scope, digest) := by
        rw [Entry.reservation, hreserves.1.1, hreserves.1.2, hreserves.2]
      unfold reserve at h
      simp only [hfind] at h
      split at h
      · -- The deadline is filled in, and the rest stays.
        cases h
        obtain ⟨before, rest, -, hchanged⟩ := changeFirst_of_find?
          (f := fun entry => { entry with cleanupAfter := eligibleAfter }) hfind
        refine ⟨{ entry with cleanupAfter := eligibleAfter }, ?_, hreservation, rfl⟩
        show _ ∈ changeFirst _ _ _
        rw [hchanged]
        exact List.mem_append_right _ (List.mem_cons_self ..)
      · cases h
        exact ⟨entry, List.mem_of_find?_eq_some hfind, hreservation, rfl⟩

/-- **A reservation that is answered stands.** -/
theorem System.Sound.reserves (h : system.Sound) {peer scope content : String}
    {eligibleAfter : Option UInt64} {prepared answer : Option PreparedMessage} {write : Write}
    (hanswer : system.Answers (.prepare peer scope content eligibleAfter prepared) write answer) :
    ∃ state entry,
      system.step (.call (.prepare peer scope content eligibleAfter prepared) write) =
          ⟨some state.journal, some state⟩ ∧
        entry ∈ state.journal.entries ∧
        entry.reservation = (peer, scope, Messenger.contentHash content) ∧
        answer = some entry.prepared := by
  obtain ⟨state, hprocess, hanswer⟩ := hanswer
  obtain ⟨file, process⟩ := system
  obtain rfl : process = some state := hprocess
  -- What the change answers is what it leaves, and it is written before it is answered.
  have hchange {answer : Option PreparedMessage} {after : Journal} {changed : Bool}
      (hok : (Op.prepare peer scope content eligibleAfter prepared).change state.journal =
        .ok (answer, after, changed)) :
      ∃ entry ∈ (if changed then after else state.journal).entries,
        entry.reservation = (peer, scope, Messenger.contentHash content) ∧
          answer = some entry.prepared := by
    simp only [Op.change] at hok
    cases hreserve : reserve peer scope (Messenger.contentHash content) eligibleAfter prepared
        state.journal with
    | error e =>
        rw [hreserve] at hok
        cases hok
    | ok result =>
        rw [hreserve] at hok
        cases hok
        obtain ⟨entry, hmem, hreservation, hprepared⟩ := reserve_eq_ok hreserve
        exact ⟨entry, hmem, hreservation, congrArg some hprepared.symm⟩
  simp only [System.step]
  unfold Op.run at hanswer ⊢
  cases hcheck : (Op.prepare peer scope content eligibleAfter prepared).check with
  | error e =>
      rw [hcheck] at hanswer
      cases hanswer
  | ok u =>
      simp only [hcheck] at hanswer ⊢
      have hupdates := updates_update write
        (Op.prepare peer scope content eligibleAfter prepared).change state file
      generalize update write (Op.prepare peer scope content eligibleAfter prepared).change state
        file = result at hanswer hupdates ⊢
      cases hupdates with
      | failed e hfailed => cases hanswer
      | refused hrefused => cases hanswer
      | unchanged hfailed hok =>
          cases hanswer
          obtain ⟨entry, hmem, hreservation, hanswer⟩ := hchange hok
          have hfile : file = some state.journal := h.agrees state rfl hfailed
          exact ⟨state, entry, by rw [hfile], hmem, hreservation, hanswer⟩
      | @saved _ after hfailed hok =>
          cases hanswer
          obtain ⟨entry, hmem, hreservation, hanswer⟩ := hchange hok
          exact ⟨{ state with journal := after }, entry, rfl, hmem, hreservation, hanswer⟩
      | unsaved e hfailed hok hleft => cases hanswer

/-- **An entry stands** while nothing removes it. -/
theorem System.Sound.holds_run (h : system.Sound) {entry : Entry} (hholds : system.Holds entry) :
    ∀ events : List Event, (∀ event ∈ events, ¬event.Removes entry.id) →
      (system.run events).Holds entry := by
  intro events
  induction events generalizing system with
  | nil => exact fun _ => hholds
  | cons event events ih =>
      intro hstays
      obtain ⟨hhead, htail⟩ := List.forall_mem_cons.mp hstays
      refine ih (h.step event) ?_ htail
      obtain ⟨journal, hfile, kept, hkept, hcore⟩ := hholds
      have hsame (other : System) : other.Holds kept ↔ other.Holds entry := by
        unfold System.Holds
        rw [hcore]
      rw [← hsame]
      by_contra hlost
      obtain ⟨ids, now, write, rfl, hid, -⟩ := h.removes hfile hkept hlost
      have hkeptId : kept.core.id = entry.core.id := congrArg Entry.id hcore
      exact hhead (show entry.core.id ∈ ids from hkeptId ▸ hid)

/-- **The journal reopens**, whatever happens to it. -/
theorem System.reopens (events : List Event) : (System.initial.run events).Reopens where
  opens journal hfile := by
    have hgood := (System.sound events).file journal hfile
    refine ⟨hgood.roomy.byteLength_le, fun write => ?_⟩
    rw [hfile]
    exact openAt_of_good hgood
  wellFormed journal hfile := by
    have hvalid := ((System.sound events).file journal hfile).valid
    exact ⟨hvalid.ids, hvalid.reservations, fun entry hentry =>
      ⟨pausedFor_of_pausedInvalidly (hvalid.paused entry hentry).publication,
        pausedFor_of_pausedInvalidly (hvalid.paused entry hentry).cleanup⟩⟩
  fits state hprocess hfailed op hcheck answer after changed hchange :=
    (run_saved_eq_ok_iff ((System.sound events).journal state hprocess)).mpr
      ⟨hcheck, hfailed, after, changed, hchange⟩
  reserves peer scope content eligibleAfter prepared write answer hanswer := by
    obtain ⟨state, entry, hstep, hmem, hreservation, hprepared⟩ :=
      (System.sound events).reserves hanswer
    simp only [Entry.reservation, Prod.mk.injEq] at hreservation
    obtain ⟨hpeer, hscope, hdigest⟩ := hreservation
    exact ⟨state, entry, hstep, hmem, hpeer, hscope, hdigest, hprepared⟩
  again peer scope content eligibleAfter prepared write message hanswer events' hstays later
      hlater hready eligibleAfter' prepared' := by
    subst hlater
    have hsound := (System.sound events).step
      (.call (.prepare peer scope content eligibleAfter prepared) write)
    obtain ⟨state, entry, hstep, hmem, hreservation, hprepared⟩ :=
      (System.sound events).reserves hanswer
    obtain rfl := Option.some.inj hprepared
    simp only [Entry.reservation, Prod.mk.injEq] at hreservation
    obtain ⟨rfl, rfl, hdigest⟩ := hreservation
    have hholds := hsound.holds_run ⟨_, congrArg System.file hstep, entry, hmem, rfl⟩ events' hstays
    obtain ⟨state', hprocess, hsaved⟩ := hready
    exact ⟨state', hprocess, (hsound.run events').repeats hprocess hsaved hholds hdigest.symm
      eligibleAfter' prepared'⟩
  repeats state hprocess hfailed entry hholds content hcontent eligibleAfter prepared :=
    (System.sound events).repeats hprocess hfailed hholds hcontent eligibleAfter prepared
  removes journal entry event hfile hentry hlost :=
    (System.sound events).removes hfile hentry hlost
  unchanged state hprocess op write e herror := by
    generalize (System.initial.run events).file = file at herror ⊢
    unfold Op.run at herror ⊢
    cases hcheck : op.check with
    | error e' => rfl
    | ok u =>
        simp only [hcheck] at herror ⊢
        have hupdates := updates_update write op.change state file
        generalize update write op.change state file = result at herror hupdates ⊢
        cases hupdates with
        | failed e' hfailed => rfl
        | refused hrefused => rfl
        | unchanged hfailed hok => rfl
        | saved hfailed hok => cases herror
        | unsaved e' hfailed hok hleft => rfl

end

/-! ## A reservation from beginning to end -/

namespace ReservedTwice

/-- A messenger with two messages. -/
@[reducible] def messenger : Messenger where
  PreparedMessage := Bool
  version _ := 1
  id message := if message then "first" else "second"
  owner _ := "us"
  recipient _ := "peer"
  payload _ := [1]
  authentic _ := true
  toValue _ := .null
  publicKey key := some key
  contentHash _ := Bytes32.ofNat 0

local instance : Messenger := messenger

/-- A reservation of the one content there is, for which this message is encrypted. -/
def reservation (message : Bool) : Op := .prepare "peer" "swap" "" none (some message)

/-- The outbox is opened for the first time. -/
def opened : System := System.initial.run [.start .saved]

/-- The content is reserved, and the process restarted. -/
def restarted : System :=
  (opened.step (.call (reservation true) .saved)).run [.stop, .start .saved]

/-- The swap is over, and what was sent is removed. -/
def removed : System :=
  restarted.run [.call (.completeScope "peer" "swap" 10) .saved,
    .call (.removeDeleted ["first"] 10) .saved]

/-- What the process answers, if there is one. -/
def answer (system : System) (op : Op) :
    Option (Except TransportError (Option Bool)) :=
  system.process.map fun state => (op.run .saved state system.file).1

theorem answers_iff {system : System} {op : Op} {message : Bool} :
    system.Answers op .saved (some message) ↔ answer system op = some (.ok (some message)) :=
  Option.map_eq_some_iff.symm

/-- The general statement at content that is reserved, repeated after a restart with another
message, removed, and reserved anew. -/
theorem reopens_reservedTwice :
    opened.Answers (reservation true) .saved (some true) ∧
      restarted.Answers (reservation false) .saved (some true) ∧
      removed.Answers (reservation false) .saved (some false) := by
  have hfirst : opened.Answers (reservation true) .saved (some true) :=
    answers_iff.mpr (by decide +kernel)
  have hready : restarted.Ready := by
    have hprocess : restarted.process.map State.writeFailed = some false := by decide +kernel
    exact Option.map_eq_some_iff.mp hprocess
  refine ⟨hfirst, ?_, answers_iff.mpr (by decide +kernel)⟩
  refine (System.reopens [.start .saved]).again "peer" "swap" "" none (some true) .saved true hfirst
    [.stop, .start .saved] ?_ restarted rfl hready none (some false)
  intro event hmem
  rcases List.mem_pair.mp hmem with rfl | rfl <;> exact not_false

end ReservedTwice

end Outbox

end PubkySwap
