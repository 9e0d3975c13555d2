import PubkySwap.DeliveriesRun

/-!
# What holds of every run of the deliveries

A run interleaves calls of the outbox, the requests of several publications and deletions,
and restarts.  `Depot.Sound` holds of all of them:

- what is stored on the homeserver is in the journal on disk (`nothing_orphaned`);
- what the journal has as published, with no deadline, is stored (`published_stored`);
- what is stored of a scope stays stored until the scope is completed (`active_scope_stays`).
-/

namespace PubkySwap

open Messenger (PreparedMessage)

namespace Outbox

section

variable [Messenger]

/-! ## Locks -/

/-- Two requests for one resource exclude each other. -/
def Exclusive (works : List Work) : Prop :=
  ∀ (i j : ℕ) (a b : Work), works[i]? = some a → works[j]? = some b → a.phase.inside = true →
    b.phase.inside = true → a.id = b.id → i = j

variable {works : List Work} {work : Work} {i : ℕ} {phase : Phase}

omit [Messenger] in
/-- An element of a list after one is set: the one that was set, or one that was there. -/
theorem getElem?_set_eq_some {α : Type} {as : List α} {i k : ℕ} {a x : α}
    (h : (as.set i a)[k]? = some x) : k = i ∧ x = a ∨ k ≠ i ∧ as[k]? = some x := by
  rw [List.getElem?_set] at h
  split at h
  case isTrue heq =>
      subst heq
      split at h
      · exact .inl ⟨rfl, (Option.some.inj h).symm⟩
      · cases h
  case isFalse hne => exact .inr ⟨fun heq => hne heq.symm, h⟩

/-- The work goes on: it had the lock, or nobody has it, or it has not got it. -/
theorem Exclusive.set (h : Exclusive works) (hi : works[i]? = some work)
    (hlock : phase.inside = true → work.phase.inside = true ∨
      ∀ other ∈ works, other.id = work.id → other.phase.inside = false) :
    Exclusive (works.set i { work with phase := phase }) := by
  intro j k a b hj hk ha hb hid
  rcases getElem?_set_eq_some hj with ⟨rfl, rfl⟩ | ⟨hji, hj'⟩
  · rcases getElem?_set_eq_some hk with ⟨rfl, rfl⟩ | ⟨hki, hk'⟩
    · rfl
    · rcases hlock ha with hinside | hfree
      · exact h j k work b hi hk' hinside hb hid
      · simp [hfree b (List.mem_of_getElem? hk') hid.symm] at hb
  · rcases getElem?_set_eq_some hk with ⟨rfl, rfl⟩ | ⟨hki, hk'⟩
    · rcases hlock hb with hinside | hfree
      · exact h j k a work hj' hi ha hinside hid
      · simp [hfree a (List.mem_of_getElem? hj') hid] at ha
    · exact h j k a b hj' hk' ha hb hid

/-- More work that waits. -/
theorem Exclusive.append {more : List Work} (h : Exclusive works)
    (hmore : ∀ work ∈ more, work.phase.inside = false) : Exclusive (works ++ more) := by
  have hold : ∀ (k : ℕ) (other : Work), (works ++ more)[k]? = some other →
      other.phase.inside = true →
      works[k]? = some other := by
    intro k other hk hinside
    rw [List.getElem?_append] at hk
    split at hk
    · exact hk
    · simp [hmore other (List.mem_of_getElem? hk)] at hinside
  intro j k a b hj hk ha hb hid
  exact h j k a b (hold j a hj ha) (hold k b hk hb) ha hb hid

/-- No other work has the lock. -/
theorem Exclusive.other (h : Exclusive works) (hi : works[i]? = some work)
    (hinside : work.phase.inside = true) {other : Work} (hother : other ∈ works)
    (hotherInside : other.phase.inside = true) (hid : other.id = work.id) : other = work := by
  obtain ⟨k, hk⟩ := List.mem_iff_getElem?.mp hother
  obtain rfl := h k i other work hk hi hotherInside hinside hid
  exact Option.some.inj (hk.symm.trans hi)

/-! ## The invariant -/

/-- What its request leaves of the resource. -/
def Work.effect (work : Work) : Option PreparedMessage :=
  match work.operation with
  | .publication => some work.prepared
  | .cleanup => none

namespace Depot

/-- **The invariant**: the journals account for the storage, whatever work goes on. -/
structure Sound (depot : Depot) : Prop where
  outbox : depot.outbox.Sound
  idle : depot.outbox.process = none → depot.works = []
  filed : depot.outbox.file = none → depot.outbox.process = none ∧ depot.storage = ∅
  keys : ∀ id message, depot.storage.lookup id = some message → Messenger.id message = id
  exclusive : Exclusive depot.works
  landed : ∀ work ∈ depot.works, work.phase = .asked true →
    depot.storage.lookup work.id = work.effect
  journals : depot.outbox.All (Journal.Accounts depot.storage depot.works)

variable {depot : Depot}

/-- Before anything has happened the homeserver stores nothing and no journal exists. -/
theorem sound_initial : (initial : Depot).Sound where
  outbox := System.sound []
  idle _ := rfl
  filed _ := ⟨rfl, rfl⟩
  keys _ _ hlook := by cases hlook
  exclusive _ _ _ _ hi := by cases hi
  landed _ hwork := (List.not_mem_nil hwork).elim
  journals := ⟨by simp [initial, System.initial], by simp [initial, System.initial]⟩

/-- A work that ends, or waits: the locks are those that were. -/
theorem Sound.setPhase (h : depot.Sound) (hi : depot.works[i]? = some work)
    (hphase : phase.inside = false) : (depot.setPhase i work phase).Sound where
  outbox := h.outbox
  idle hnone := by
    rw [h.idle hnone] at hi
    cases hi
  filed := h.filed
  keys := h.keys
  exclusive := h.exclusive.set hi fun hinside => by simp [hphase] at hinside
  landed other hother hlanded := by
    rcases List.mem_or_eq_of_mem_set hother with hmem | rfl
    · exact h.landed other hmem hlanded
    · rw [show phase = .asked true from hlanded] at hphase
      cases hphase
  journals := h.journals.imp fun journal haccounts => haccounts.mono fun other hother hinside => by
    rcases List.mem_or_eq_of_mem_set hother with hmem | rfl
    · exact ⟨other, hmem, hinside, rfl, rfl⟩
    · simp [hphase] at hinside

/-- More work that waits for its locks. -/
theorem Sound.append {more : List Work} (h : depot.Sound)
    (hrunning : depot.outbox.process ≠ none)
    (hmore : ∀ work ∈ more, work.phase.inside = false) :
    { depot with works := depot.works ++ more }.Sound where
  outbox := h.outbox
  idle hnone := (hrunning hnone).elim
  filed := h.filed
  keys := h.keys
  exclusive := h.exclusive.append hmore
  landed other hother hlanded := by
    rcases List.mem_append.mp hother with hmem | hmem
    · exact h.landed other hmem hlanded
    · simpa [hlanded, Phase.inside] using hmore other hmem
  journals := h.journals.imp fun journal haccounts => haccounts.mono fun other hother hinside => by
    rcases List.mem_append.mp hother with hmem | hmem
    · exact ⟨other, hmem, hinside, rfl, rfl⟩
    · simp [hmore other hmem] at hinside

/-- **A call of the outbox** keeps the account. -/
theorem Sound.outboxCall {op : Op} (h : depot.Sound)
    (hforgets : ∀ ids now, op = .removeDeleted ids now → ∀ id ∈ ids,
      depot.storage.lookup id = none ∧ ∀ work ∈ depot.works, work.phase.inside = true →
        work.operation = .publication → work.id ≠ id)
    (hpublishes : ∀ state ∈ depot.outbox.process, ∀ id, op = .markPublished id →
      ∀ entry ∈ state.journal.entries, entry.id = id →
        depot.storage.lookup id = some entry.prepared ∧ ∀ work ∈ depot.works,
          work.phase.inside = true → work.operation = .cleanup → work.id ≠ id)
    (write : Write) :
    { depot with outbox := depot.outbox.step (.call op write) }.Sound where
  outbox := h.outbox.step _
  idle hnone := h.idle (System.process_eq_none_of_step (by simp) hnone)
  filed hnone := by
    cases hfile : depot.outbox.file with
    | none =>
        obtain ⟨hprocess, hstorage⟩ := h.filed hfile
        refine ⟨?_, hstorage⟩
        rcases hdepot : depot.outbox with ⟨file, process⟩
        rw [hdepot] at hprocess
        obtain rfl : process = none := hprocess
        rfl
    | some journal =>
        have hsome := System.file_isSome_step (by rw [hfile]; rfl) (.call op write)
        rw [show (depot.outbox.step (.call op write)).file = none from hnone] at hsome
        cases hsome
  keys := h.keys
  exclusive := h.exclusive
  landed := h.landed
  journals := h.journals.call (fun state hstate answer after changed hchange =>
    (h.journals.2 state hstate).change h.keys hchange hforgets (hpublishes state hstate)) write

/-- A call that neither publishes nor forgets keeps the account, since the storage and the
work do not change. -/
theorem Sound.call {op : Op} (h : depot.Sound) (own : String)
    (hforgets : ∀ ids now, op ≠ .removeDeleted ids now) (hpublishes : ∀ id, op ≠ .markPublished id)
    (write : Write) : (depot.call own op write).Sound := by
  unfold Depot.call
  split
  · exact h
  · split
    · exact h
    · exact h.outboxCall (fun ids now hop => (hforgets ids now hop).elim)
        (fun _ _ id hop => (hpublishes id hop).elim) write

/-! ## Requests -/

/-- What has been checked when a request is made. -/
theorem recheck_eq_asked {own : String} {now : UInt64} {state : State} {landed : Bool}
    (h : recheck own work now state = .asked landed) :
    landed = false ∧ state.writeFailed = false ∧
      ∃ entry ∈ state.journal.entries, entry.id = work.id ∧
        (work.operation = .cleanup → entry.cleanupReady work.now = true) := by
  have hwritten : ∀ {e : TransportError}, (if state.writeFailed then Except.error e else .ok ()) =
      .ok () → state.writeFailed = false := by
    intro e hok
    cases hfailed : state.writeFailed <;> simp_all
  unfold recheck at h
  cases howner : checkOwner own state with
  | error e => simp [howner] at h
  | ok u =>
      simp only [howner] at h
      cases hoperation : work.operation with
      | publication =>
          simp only [hoperation] at h
          unfold canPublish ensureWritten at h
          cases hfailed : state.writeFailed with
          | true => simp [hfailed] at h
          | false =>
              simp only [hfailed, Bool.false_eq_true, if_false] at h
              cases hfind : state.journal.entries.find? fun entry => entry.id == work.id with
              | none =>
                  simp only [hfind] at h
                  split at h <;> cases h
              | some entry =>
                  have hid : entry.id = work.id := by simpa using List.find?_some hfind
                  have hmem := List.mem_of_find?_eq_some hfind
                  simp only [hfind] at h
                  split at h
                  · cases h
                  · cases h
                    exact ⟨rfl, rfl, entry, hmem, hid, nofun⟩
                  · split at h <;> cases h
      | cleanup =>
          simp only [hoperation] at h
          unfold canCleanup at h
          cases hfailed : state.writeFailed with
          | true => simp [hfailed] at h
          | false =>
              simp only [hfailed, Bool.false_eq_true, if_false] at h
              split at h
              · cases h
              · rename_i hready
                cases h
                simp only [Except.ok.injEq, List.any_eq_true, Bool.and_eq_true, beq_iff_eq]
                  at hready
                obtain ⟨entry, hmem, hid, hready⟩ := hready
                exact ⟨rfl, rfl, entry, hmem, hid, fun _ => hready⟩
              · cases h

/-- An entry that is ready for cleanup has a deadline. -/
theorem cleanupAfter_of_ready {entry : Entry} {now : UInt64}
    (h : entry.cleanupReady now = true) : entry.cleanupAfter ≠ none := by
  unfold Entry.cleanupReady cleanupDue at h
  intro hnone
  simp [hnone] at h

section

variable [LawfulMessenger]

/-- **A request is made** for a resource that is recorded, and a deletion for one whose time
has come. -/
theorem Sound.advance (h : depot.Sound) (hi : depot.works[i]? = some work) (own : String)
    (now : UInt64) : (depot.advance own i work now).Sound := by
  unfold Depot.advance
  split
  case h_1 state hwaiting hprocess =>
      split
      case isFalse => exact h
      case isTrue hfree =>
          cases hphase : (recheck own work now state).inside with
          | false => exact h.setPhase hi hphase
          | true =>
              obtain ⟨landed, hasked⟩ : ∃ landed, recheck own work now state = .asked landed := by
                unfold Phase.inside at hphase
                split at hphase
                · exact ⟨_, ‹_›⟩
                · cases hphase
              obtain ⟨rfl, hwritten, entry, hentry, hid, hready⟩ := recheck_eq_asked hasked
              rw [hasked]
              have hfile := h.outbox.agrees state hprocess hwritten
              have haccounts := h.journals.2 state hprocess
              have hvalid := (h.outbox.journal state hprocess).valid
              have hafter : state.journal.Accounts depot.storage
                  (depot.works.set i { work with phase := .asked false }) := by
                refine ⟨haccounts.stored, fun other hother hinside hoperation => ?_,
                  haccounts.published,
                    fun other hother hinside hoperation other' hother' hid' => ?_⟩
                · rcases List.mem_or_eq_of_mem_set hother with hmem | rfl
                  · exact haccounts.publishing other hmem hinside hoperation
                  · exact ⟨entry, hentry, LawfulMessenger.id_injective hid⟩
                · rcases List.mem_or_eq_of_mem_set hother with hmem | rfl
                  · exact haccounts.deleting other hmem hinside hoperation other' hother' hid'
                  · obtain rfl : other' = entry :=
                      List.inj_on_of_nodup_map hvalid.ids hother' hentry (hid'.trans hid.symm)
                    exact fun _ => cleanupAfter_of_ready (hready hoperation)
              refine ⟨h.outbox, fun hnone => ?_, h.filed, h.keys, h.exclusive.set hi fun _ => ?_,
                fun other hother hlanded => ?_, fun journal hjournal => ?_,
                  fun state' hstate' => ?_⟩
              · rw [show depot.outbox.process = none from hnone] at hprocess
                cases hprocess
              · refine .inr fun other hother hid => ?_
                simpa [hid] using List.all_eq_true.mp hfree other hother
              · rcases List.mem_or_eq_of_mem_set hother with hmem | rfl
                · exact h.landed other hmem hlanded
                · cases hlanded
              · exact Option.some.inj (hfile.symm.trans hjournal) ▸ hafter
              · exact Option.some.inj (hprocess.symm.trans hstate') ▸ hafter
  case h_2 => exact h

/-- **A request has its effect**: what is stored now is recorded, and what is not stored any
more was to be deleted. -/
theorem Sound.land (h : depot.Sound) (hi : depot.works[i]? = some work) :
    (depot.land i work).Sound := by
  unfold Depot.land
  split
  case h_2 => exact h
  case h_1 hasked =>
      have hwork : work ∈ depot.works := List.mem_of_getElem? hi
      have hinside : work.phase.inside = true := by rw [hasked]; rfl
      -- the work has the lock, as it had before its effect
      have hmono : ∀ other ∈ depot.works.set i { work with phase := .asked true },
          other.phase.inside = true → ∃ old ∈ depot.works, old.phase.inside = true ∧
            old.operation = other.operation ∧ old.prepared = other.prepared := by
        intro other hother hotherInside
        rcases List.mem_or_eq_of_mem_set hother with hmem | rfl
        · exact ⟨other, hmem, hotherInside, rfl, rfl⟩
        · exact ⟨work, hwork, hinside, rfl, rfl⟩
      have hexclusive : Exclusive (depot.works.set i { work with phase := .asked true }) :=
        h.exclusive.set hi fun _ => .inl hinside
      -- another work that has had its effect is on another resource
      have hlanded : ∀ other ∈ depot.works.set i { work with phase := .asked true },
          other.phase = .asked true → other = { work with phase := .asked true } ∨
            other.id ≠ work.id ∧ depot.storage.lookup other.id = other.effect := by
        intro other hother hphase
        rcases List.mem_or_eq_of_mem_set hother with hmem | rfl
        · refine .inr ⟨fun hid => ?_, h.landed other hmem hphase⟩
          obtain rfl := h.exclusive.other hi hinside hmem (by rw [hphase]; rfl) hid
          rw [hasked] at hphase
          cases hphase
        · exact .inl rfl
      have hidle : depot.outbox.process = none → False := by
        intro hnone
        rw [h.idle hnone] at hi
        cases hi
      dsimp only
      cases hoperation : work.operation with
      | publication =>
          refine ⟨h.outbox, fun hnone => (hidle hnone).elim, fun hnone => ?_,
            fun id message hlook => ?_, hexclusive, fun other hother hphase => ?_,
            h.journals.imp fun journal haccounts => ?_⟩
          · exact (hidle (h.filed hnone).1).elim
          · rcases AList.lookup_insert_eq_some.mp hlook with ⟨rfl, rfl⟩ | ⟨-, hlook⟩
            · rfl
            · exact h.keys id message hlook
          · rcases hlanded other hother hphase with rfl | ⟨hne, heq⟩
            · simp [Work.effect, Work.id, hoperation, Depot.setPhase]
            · exact (AList.lookup_insert_ne hne).trans heq
          · refine { haccounts.mono hmono with
              stored := fun id message hlook => ?_
              published := fun entry hentry hpublished hnone => ?_ }
            · rcases AList.lookup_insert_eq_some.mp hlook with ⟨rfl, rfl⟩ | ⟨-, hlook⟩
              · exact haccounts.publishing work hwork hinside hoperation
              · exact haccounts.stored id message hlook
            · refine AList.lookup_insert_eq_some.mpr ?_
              -- an entry of this identifier has these bytes, since no two messages share one
              by_cases hid : entry.id = work.id
              · exact .inl ⟨hid, LawfulMessenger.id_injective hid.symm⟩
              · exact .inr ⟨hid, haccounts.published entry hentry hpublished hnone⟩
      | cleanup =>
          refine ⟨h.outbox, fun hnone => (hidle hnone).elim, fun hnone => ?_,
            fun id message hlook => ?_, hexclusive, fun other hother hphase => ?_,
            h.journals.imp fun journal haccounts => ?_⟩
          · exact (hidle (h.filed hnone).1).elim
          · exact h.keys id message (AList.lookup_erase_eq_some.mp hlook).2
          · rcases hlanded other hother hphase with rfl | ⟨hne, heq⟩
            · simp [Work.effect, Work.id, hoperation, Depot.setPhase]
            · exact (AList.lookup_erase_ne hne).trans heq
          · refine { haccounts.mono hmono with
              stored := fun id message hlook => ?_
              published := fun entry hentry hpublished hnone => ?_ }
            · exact haccounts.stored id message (AList.lookup_erase_eq_some.mp hlook).2
            · refine AList.lookup_erase_eq_some.mpr ⟨fun hid => ?_, ?_⟩
              · exact haccounts.deleting work hwork hinside hoperation entry hentry hid hpublished
                  hnone
              · exact haccounts.published entry hentry hpublished hnone

/-- **An answer is written down**: a success only once the request has had its effect. -/
theorem Sound.answer (h : depot.Sound) (hi : depot.works[i]? = some work)
    (failure : Option DeliveryFailure) (now : UInt64) (write : Write) :
    (depot.answer i work failure now write).Sound := by
  unfold Depot.answer
  split
  case h_2 => exact h
  case h_1 landed state hasked hprocess =>
      split
      case isFalse => exact h
      case isTrue hanswered =>
          have hwork : work ∈ depot.works := List.mem_of_getElem? hi
          have hinside : work.phase.inside = true := by rw [hasked]; rfl
          have hlanded : failure = none → depot.storage.lookup work.id = work.effect := by
            rintro rfl
            refine h.landed work hwork ?_
            rw [hasked]
            simpa using hanswered
          have hcall : ({ depot with
              outbox := depot.outbox.step (.call (outcome work failure now) write) } :
                Depot).Sound := by
            refine h.outboxCall (fun ids now' hop id hid => ?_)
              (fun state' _ id hop entry hentry hentryId => ?_) write
            · obtain ⟨hoperation, hfailure, rfl⟩ : work.operation = .cleanup ∧ failure = none ∧
                  ids = [work.id] := by
                unfold outcome at hop
                split at hop <;> simp_all
              obtain rfl := List.mem_singleton.mp hid
              refine ⟨?_, fun other hother hotherInside hotherOperation heq => ?_⟩
              · simpa [Work.effect, hoperation] using hlanded hfailure
              · obtain rfl := h.exclusive.other hi hinside hother hotherInside heq
                rw [hoperation] at hotherOperation
                cases hotherOperation
            · obtain ⟨hoperation, hfailure, rfl⟩ : work.operation = .publication ∧
                  failure = none ∧ id = work.id := by
                unfold outcome at hop
                split at hop <;> simp_all
              refine ⟨?_, fun other hother hotherInside hotherOperation heq => ?_⟩
              · rw [hlanded hfailure, Work.effect, hoperation]
                exact congrArg some (LawfulMessenger.id_injective hentryId.symm)
              · obtain rfl := h.exclusive.other hi hinside hother hotherInside heq
                rw [hoperation] at hotherOperation
                cases hotherOperation
          exact hcall.setPhase hi rfl

omit [LawfulMessenger] in
/-- What has been saved is published by work that waits. -/
theorem Sound.send {op : Op} (h : depot.Sound) (own : String)
    (hforgets : ∀ ids now, op ≠ .removeDeleted ids now) (hpublishes : ∀ id, op ≠ .markPublished id)
    (write : Write) : (depot.send own op write).Sound := by
  have hcall := h.call own hforgets hpublishes write
  unfold Depot.send
  cases hsent : depot.prepared own op write with
  | none => simpa using hcall
  | some message =>
      refine hcall.append (fun hnone => ?_) (by simp [Phase.inside])
      unfold Depot.prepared at hsent
      unfold Depot.call at hnone
      cases hprocess : depot.outbox.process with
      | none => simp [hprocess] at hsent
      | some state =>
          have hstays : (depot.outbox.step (.call op write)).process ≠ none := fun hnone => by
            have hbefore := System.process_eq_none_of_step (by simp) hnone
            rw [hprocess] at hbefore
            cases hbefore
          simp only [hprocess] at hnone
          split at hnone
          · rw [hprocess] at hnone
            cases hnone
          · exact hstays hnone

omit [LawfulMessenger] in
/-- Choosing what is due starts works outside their locks, so the account stays. -/
theorem Sound.process (h : depot.Sound) (own : String) (now : UInt64) (limit : ℕ) :
    (depot.process own now limit).Sound := by
  unfold Depot.process
  split
  · exact h
  case h_2 state hprocess =>
      split
      · rw [List.append_assoc]
        refine h.append (fun hnone => ?_) fun work hwork => ?_
        · rw [hprocess] at hnone
          cases hnone
        · rcases List.mem_append.mp hwork with hmem | hmem <;>
            obtain ⟨message, -, rfl⟩ := List.mem_map.mp hmem <;> rfl
      · exact h

/-- **Every step** keeps the invariant. -/
theorem Sound.step (h : depot.Sound) (own : String) (event : DepotEvent) :
    (depot.step own event).Sound := by
  have hworks : ∀ (i : ℕ) (f : Work → Depot),
      (∀ work, depot.works[i]? = some work → (f work).Sound) →
        (depot.works[i]?.elim depot f).Sound := by
    intro i f hf
    cases hi : depot.works[i]? with
    | none => exact h
    | some work => exact hf work hi
  cases event with
  | start write =>
      refine ⟨h.outbox.step _, fun hnone => ?_, fun hnone => ?_, h.keys, h.exclusive, h.landed,
        h.journals.start h.outbox (fun hfile hprocess => ?_) write⟩
      · exact h.idle (System.process_eq_none_of_step (by simp) hnone)
      · cases hfile : depot.outbox.file with
        | some journal =>
            have hsome := System.file_isSome_step (by rw [hfile]; rfl) (.start write)
            rw [show (depot.outbox.step (.start write)).file = none from hnone] at hsome
            cases hsome
        | none =>
            obtain ⟨hprocess, hstorage⟩ := h.filed hfile
            exact ⟨System.process_eq_none_of_start hfile hprocess hnone, hstorage⟩
      · have hworks := h.idle hprocess
        have hstorage := (h.filed hfile).2
        refine ⟨fun id message hlook => ?_, fun work hwork => ?_,
          fun _ hentry => (List.not_mem_nil hentry).elim,
          fun _ _ _ _ _ hentry => (List.not_mem_nil hentry).elim⟩
        · rw [show depot.storage = ∅ from hstorage] at hlook
          cases hlook
        · rw [show depot.works = [] from hworks] at hwork
          exact (List.not_mem_nil hwork).elim
  | stop =>
      have hfile : (depot.outbox.step .stop).file = depot.outbox.file := by
        rcases depot.outbox with ⟨file, process⟩
        cases process <;> rfl
      have hprocess : (depot.outbox.step .stop).process = none := by
        rcases depot.outbox with ⟨file, process⟩
        cases process <;> rfl
      refine ⟨h.outbox.step _, fun _ => rfl, fun hnone => ⟨hprocess, ?_⟩, h.keys,
        fun _ _ _ _ hi => by (cases hi), fun _ hwork => (List.not_mem_nil hwork).elim,
        h.journals.stop.imp fun journal haccounts => haccounts.mono
          fun _ hwork => (List.not_mem_nil hwork).elim⟩
      exact (h.filed (hfile.symm.trans hnone)).2
  | enqueue peer scope payload now prepared write =>
      exact h.call own (by simp [prepareScoped]) (by simp [prepareScoped]) write
  | send peer scope payload now prepared write =>
      exact h.send own (by simp [prepareScoped]) (by simp [prepareScoped]) write
  | completeScope peer scope eligibleAfter write => exact h.call own (by simp) (by simp) write
  | reopenScope peer scope write => exact h.call own (by simp) (by simp) write
  | retry id operation now write => exact h.call own (by simp) (by simp) write
  | process now limit => exact h.process own now limit
  | advance i now => exact hworks i _ fun work hi => h.advance hi own now
  | land i => exact hworks i _ fun work hi => h.land hi
  | answer i failure now write => exact hworks i _ fun work hi => h.answer hi failure now write
  | cancel i =>
      refine hworks i _ fun work hi => ?_
      unfold Depot.cancel
      split
      · exact h.setPhase hi rfl
      · exact h.setPhase hi rfl
      · exact h

/-- **Every run** does. -/
theorem Sound.run (h : depot.Sound) (own : String) (events : List DepotEvent) :
    (depot.run own events).Sound := by
  induction events generalizing depot with
  | nil => exact h
  | cons event events ih => exact ih (h.step own event)

/-- The deliveries of this identity, after these events. -/
def reached (own : String) (events : List DepotEvent) : Depot := initial.run own events

/-- The invariant holds after every list of events. -/
theorem sound_reached (own : String) (events : List DepotEvent) : (reached own events).Sound :=
  sound_initial.run own events

/-! ## A scope that is not completed -/

omit [LawfulMessenger] in
/-- What `prepare_scoped` gives a deadline is in a scope of read-only traffic. -/
theorem spares_prepareScoped {peer scope : String} (hscope : isEphemeral scope = false)
    (message : PreparedMessage) (peer' scope' payload : String) (now : UInt64)
    (prepared : Option PreparedMessage) :
    (prepareScoped peer' scope' payload now prepared).Spares peer scope message := by
  refine ⟨nofun, fun content eligibleAfter prepared' hprepare => ?_, nofun⟩
  unfold prepareScoped inScope at hprepare
  split at hprepare
  case isTrue hephemeral =>
      obtain ⟨-, rfl, -⟩ := Op.prepare.inj hprepare
      rw [isEphemeral, String.toList_append, String.toList_append, List.append_assoc] at hscope
      have hstart := List.isPrefixOf_iff_prefix.mp hephemeral
      rw [List.isPrefixOf_iff_prefix.mpr (hstart.trans (List.prefix_append _ _))] at hscope
      cases hscope
  case isFalse =>
      obtain ⟨-, -, -, hnone, -⟩ := Op.prepare.inj hprepare
      cases hnone

/-- **The message is stored and stays so**: both journals have it in its scope with no
deadline, and no deletion of it is under way. -/
structure Retained (peer scope : String) (message : PreparedMessage) (depot : Depot) : Prop where
  filed : depot.outbox.file.isSome = true
  shelved : depot.outbox.All (Journal.Shelves peer scope message)
  stored : depot.storage.lookup (Messenger.id message) = some message
  wanted : ∀ work ∈ depot.works, work.phase.inside = true → work.operation = .cleanup →
    work.id ≠ Messenger.id message

section

variable {peer scope : String} {message : PreparedMessage}
  (h : depot.Retained peer scope message)

include h

omit [LawfulMessenger] in
/-- The message stays when a work changes its phase, unless that work enters to delete it. -/
theorem Retained.setPhase (i : ℕ) {work : Work}
    (hphase : phase.inside = true → work.operation = .cleanup →
      work.id ≠ Messenger.id message) :
    (depot.setPhase i work phase).Retained peer scope message where
  filed := h.filed
  shelved := h.shelved
  stored := h.stored
  wanted other hother hinside hoperation := by
    rcases List.mem_or_eq_of_mem_set hother with hmem | rfl
    · exact h.wanted other hmem hinside hoperation
    · exact hphase hinside hoperation

omit [LawfulMessenger] in
/-- The message stays when works are added that are not inside their locks. -/
theorem Retained.append {more : List Work} (hmore : ∀ work ∈ more, work.phase.inside = false) :
    { depot with works := depot.works ++ more }.Retained peer scope message where
  filed := h.filed
  shelved := h.shelved
  stored := h.stored
  wanted other hother hinside := by
    rcases List.mem_append.mp hother with hmem | hmem
    · exact h.wanted other hmem hinside
    · simp [hmore other hmem] at hinside

omit [LawfulMessenger] in
/-- A call that completes nothing of the scope. -/
theorem Retained.outboxCall (hsound : depot.Sound) {op : Op} (hop : op.Spares peer scope message)
    (write : Write) :
    { depot with outbox := depot.outbox.step (.call op write) }.Retained peer scope message where
  filed := System.file_isSome_step h.filed _
  shelved := h.shelved.call (fun state hstate _ _ _ hchange =>
    (h.shelved.2 state hstate).change (hsound.outbox.journal state hstate).valid.ids hchange hop)
    write
  stored := h.stored
  wanted := h.wanted

omit [LawfulMessenger] in
/-- The message stays through a call that spares its scope. -/
theorem Retained.call (hsound : depot.Sound) (own : String) {op : Op}
    (hop : op.Spares peer scope message) (write : Write) :
    (depot.call own op write).Retained peer scope message := by
  unfold Depot.call
  split
  · exact h
  · split
    · exact h
    · exact h.outboxCall hsound hop write

omit [LawfulMessenger] in
/-- The message stays when another is sent, or the same again, by a call that spares its
scope. -/
theorem Retained.send (hsound : depot.Sound) (own : String) {op : Op}
    (hop : op.Spares peer scope message) (write : Write) :
    (depot.send own op write).Retained peer scope message := by
  refine (h.call hsound own hop write).append fun work hwork => ?_
  obtain ⟨sent, -, rfl⟩ := List.mem_map.mp hwork
  rfl

omit [LawfulMessenger] in
/-- The message stays when the journal is gone through for what is due. -/
theorem Retained.process (own : String) (now : UInt64) (limit : ℕ) :
    (depot.process own now limit).Retained peer scope message := by
  unfold Depot.process
  split
  · exact h
  · split
    · rw [List.append_assoc]
      refine h.append fun work hwork => ?_
      rcases List.mem_append.mp hwork with hmem | hmem <;>
        obtain ⟨sent, -, rfl⟩ := List.mem_map.mp hmem <;> rfl
    · exact h

omit [LawfulMessenger] in
/-- **No deletion of it is begun**: its entry has no deadline. -/
theorem Retained.advance (hsound : depot.Sound) (own : String) (i : ℕ) (work : Work)
    (now : UInt64) : (depot.advance own i work now).Retained peer scope message := by
  unfold Depot.advance
  split
  case h_1 state hwaiting hprocess =>
      split
      case isFalse => exact h
      case isTrue =>
          refine h.setPhase i fun hinside hoperation hid => ?_
          obtain ⟨landed, hasked⟩ : ∃ landed, recheck own work now state = .asked landed := by
            unfold Phase.inside at hinside
            split at hinside
            · exact ⟨_, ‹_›⟩
            · cases hinside
          obtain ⟨-, -, entry, hentry, hentryId, hready⟩ := recheck_eq_asked hasked
          obtain ⟨shelved, hshelved, rfl, -, -, hopen⟩ := h.shelved.2 state hprocess
          have hids := (hsound.outbox.journal state hprocess).valid.ids
          obtain rfl : entry = shelved :=
            List.inj_on_of_nodup_map hids hentry hshelved (hentryId.trans hid)
          exact cleanupAfter_of_ready (hready hoperation) hopen
  case h_2 => exact h

/-- A request that has its effect stores the same message again, or deletes another. -/
theorem Retained.land (hi : depot.works[i]? = some work) :
    (depot.land i work).Retained peer scope message := by
  unfold Depot.land
  split
  case h_2 => exact h
  case h_1 hasked =>
      have hinside : work.phase.inside = true := by rw [hasked]; rfl
      have hwanted := h.wanted work (List.mem_of_getElem? hi) hinside
      have hset := h.setPhase i fun (_ : (Phase.asked true).inside = true) => hwanted
      dsimp only
      cases hoperation : work.operation with
      | publication =>
          refine { hset with stored := AList.lookup_insert_eq_some.mpr ?_ }
          by_cases hid : Messenger.id message = work.id
          · exact .inl ⟨hid, LawfulMessenger.id_injective hid.symm⟩
          · exact .inr ⟨hid, h.stored⟩
      | cleanup =>
          refine { hset with stored := AList.lookup_erase_eq_some.mpr ⟨?_, h.stored⟩ }
          exact (hwanted hoperation).symm

omit [LawfulMessenger] in
/-- What is forgotten was another's deletion. -/
theorem Retained.answer (hsound : depot.Sound) (hi : depot.works[i]? = some work)
    (failure : Option DeliveryFailure) (now : UInt64) (write : Write) :
    (depot.answer i work failure now write).Retained peer scope message := by
  unfold Depot.answer
  split
  case h_2 => exact h
  case h_1 landed state hasked hprocess =>
      split
      case isFalse => exact h
      case isTrue =>
          have hinside : work.phase.inside = true := by rw [hasked]; rfl
          have hspares : (outcome work failure now).Spares peer scope message := by
            unfold outcome
            split
            case h_3 hoperation _ =>
                refine ⟨by simp, by simp, fun ids now' hremoves hmem => ?_⟩
                obtain ⟨rfl, -⟩ := Op.removeDeleted.inj hremoves
                exact h.wanted work (List.mem_of_getElem? hi) hinside hoperation
                  (List.mem_singleton.mp hmem).symm
            all_goals exact ⟨by simp, by simp, by simp⟩
          exact (h.outboxCall hsound hspares write).setPhase i nofun

/-- **Every step that does not complete the scope** leaves the message stored. -/
theorem Retained.step (hsound : depot.Sound) (hscope : isEphemeral scope = false) (own : String)
    {event : DepotEvent}
    (hevent : ∀ eligibleAfter write, event ≠ .completeScope peer scope eligibleAfter write) :
    (depot.step own event).Retained peer scope message := by
  have hworks : ∀ (i : ℕ) (f : Work → Depot),
      (∀ work, depot.works[i]? = some work → (f work).Retained peer scope message) →
        (depot.works[i]?.elim depot f).Retained peer scope message := by
    intro i f hf
    cases hi : depot.works[i]? with
    | none => exact h
    | some work => exact hf work hi
  cases event with
  | start write =>
      refine ⟨System.file_isSome_step h.filed _, ?_, h.stored, h.wanted⟩
      refine h.shelved.start hsound.outbox (fun hnone => ?_) write
      have hfiled := h.filed
      rw [hnone] at hfiled
      cases hfiled
  | stop =>
      exact ⟨System.file_isSome_step h.filed _, h.shelved.stop, h.stored,
        fun _ hwork => (List.not_mem_nil hwork).elim⟩
  | enqueue peer' scope' payload now prepared write =>
      exact h.call hsound own (spares_prepareScoped hscope message ..) write
  | send peer' scope' payload now prepared write =>
      exact h.send hsound own (spares_prepareScoped hscope message ..) write
  | completeScope peer' scope' eligibleAfter write =>
      refine h.call hsound own ⟨fun eligibleAfter' hcompletes => ?_, by simp, by simp⟩ write
      obtain ⟨rfl, rfl, -⟩ := Op.completeScope.inj hcompletes
      exact hevent eligibleAfter write rfl
  | reopenScope peer' scope' write => exact h.call hsound own ⟨by simp, by simp, by simp⟩ write
  | retry id operation now write => exact h.call hsound own ⟨by simp, by simp, by simp⟩ write
  | process now limit => exact h.process own now limit
  | advance i now => exact hworks i _ fun work _ => h.advance hsound own i work now
  | land i => exact hworks i _ fun work hi => h.land hi
  | answer i failure now write =>
      exact hworks i _ fun work hi => h.answer hsound hi failure now write
  | cancel i =>
      refine hworks i _ fun work _ => ?_
      unfold Depot.cancel
      split
      · exact h.setPhase i nofun
      · exact h.setPhase i nofun
      · exact h

/-- The message stays through every list of events that does not complete its scope. -/
theorem Retained.run (hsound : depot.Sound) (hscope : isEphemeral scope = false) (own : String)
    {events : List DepotEvent} (hevents : ∀ event ∈ events, ∀ eligibleAfter write,
      event ≠ .completeScope peer scope eligibleAfter write) :
    (depot.run own events).Retained peer scope message := by
  induction events generalizing depot with
  | nil => exact h
  | cons event events ih =>
      have hstep := h.step hsound hscope own (hevents event List.mem_cons_self)
      exact ih hstep (hsound.step own event) fun event' hmem =>
        hevents event' (List.mem_cons_of_mem _ hmem)

end

/-! ## The results -/

/-- **Nothing is orphaned.**  What is stored on the homeserver is in the journal on disk, with
its bytes, so that it can be deleted after any crash. -/
theorem nothing_orphaned (own : String) (events : List DepotEvent) (id : String)
    (message : PreparedMessage)
    (hstored : (reached own events).storage.lookup id = some message) :
    ∃ journal, (reached own events).outbox.file = some journal ∧
      ∃ entry ∈ journal.entries, entry.id = id ∧ entry.prepared = message := by
  have h := sound_reached own events
  cases hfile : (reached own events).outbox.file with
  | none =>
      rw [(h.filed hfile).2] at hstored
      cases hstored
  | some journal =>
      obtain ⟨entry, hentry, rfl⟩ := (h.journals.1 journal hfile).stored id message hstored
      exact ⟨journal, rfl, entry, hentry, h.keys id _ hstored, rfl⟩

/-- **What is published is stored.**  An entry that the journal has as published, on disk or in
memory, and that has no deadline, is stored with its bytes, whatever requests are under
way. -/
theorem published_stored (own : String) (events : List DepotEvent) :
    (reached own events).outbox.All fun journal =>
      ∀ entry ∈ journal.entries, entry.published = true → entry.cleanupAfter = none →
        (reached own events).storage.lookup entry.id = some entry.prepared :=
  (sound_reached own events).journals.imp fun _ haccounts => haccounts.published

/-- The message has been published in this scope and is not to be deleted, so far as the
journal on disk says and the one in memory. -/
def Publishes (peer scope : String) (message : PreparedMessage) (depot : Depot) : Prop :=
  depot.outbox.file.isSome = true ∧ depot.outbox.All fun journal =>
    ∃ entry ∈ journal.entries, entry.prepared = message ∧ entry.peer = peer ∧
      entry.scope = scope ∧ entry.published = true ∧ entry.cleanupAfter = none

end

end Depot

end

/-! ## A message that is published -/

namespace PublishedTwice

/-- A messenger with two messages. -/
@[reducible] def messenger : Messenger where
  PreparedMessage := Bool
  version _ := 1
  id message := if message then "first" else "second"
  owner _ := "us"
  recipient _ := "peer"
  payload _ := [1]
  authentic _ := true
  toValue _ := .null
  publicKey key := some key
  contentHash _ := Bytes32.ofNat 0

local instance : Messenger := messenger

local instance lawful : LawfulMessenger where
  id_injective a b h := by
    cases a <;> cases b <;> first | rfl | exact absurd h (by decide)

/-- The first message is saved, and published. -/
def published : List DepotEvent :=
  [.start .saved, .send "peer" "swap" "" 0 (some true) .saved, .advance 0 0, .land 0,
    .answer 0 none 0 .saved]

/-- The content is sent again, and the process dies before the answer is known. -/
def interrupted : List DepotEvent :=
  [.send "peer" "swap" "" 5 (some false) .saved, .advance 1 10, .land 1, .stop, .start .saved]

/-- The journal has the message in its scope, published and with no deadline. -/
def shows (journal : Journal) : Bool :=
  journal.entries.any fun entry => entry.peer == "peer" && entry.scope == "swap" &&
    (show Bool from entry.prepared) && entry.published && entry.cleanupAfter.isNone

/-- What the decidable check finds in a journal. -/
theorem exists_of_shows {journal : Journal} (h : shows journal = true) :
    ∃ entry ∈ journal.entries, entry.prepared = true ∧ entry.peer = "peer" ∧
      entry.scope = "swap" ∧ entry.published = true ∧ entry.cleanupAfter = none := by
  obtain ⟨entry, hentry, hshows⟩ := List.any_eq_true.mp h
  simp only [Bool.and_eq_true, beq_iff_eq, Option.isNone_iff_eq_none] at hshows
  obtain ⟨⟨⟨⟨hpeer, hscope⟩, hprepared⟩, hpublished⟩, hopen⟩ := hshows
  exact ⟨entry, hentry, hprepared, hpeer, hscope, hpublished, hopen⟩

/-- After the first three calls of the example the message is published in its scope. -/
theorem publishes : (Depot.reached "us" published).Publishes "peer" "swap" true := by
  have hfile : (Depot.reached "us" published).outbox.file.map shows = some true := by
    decide +kernel
  have hprocess : (Depot.reached "us" published).outbox.process.map (shows ∘ State.journal) =
      some true := by
    decide +kernel
  obtain ⟨journal, hjournal, hshows⟩ := Option.map_eq_some_iff.mp hfile
  obtain ⟨state, hstate, hstateShows⟩ := Option.map_eq_some_iff.mp hprocess
  refine ⟨by rw [hjournal]; rfl, fun journal' hjournal' => ?_, fun state' hstate' => ?_⟩
  · obtain rfl := Option.some.inj (hjournal.symm.trans hjournal')
    exact exists_of_shows hshows
  · obtain rfl := Option.some.inj (hstate.symm.trans hstate')
    exact exists_of_shows hstateShows

/-- The journal on disk accounts for it. -/
theorem nothing_orphaned_interrupted :
    ∃ journal, (Depot.reached "us" (published ++ interrupted)).outbox.file = some journal ∧
      ∃ entry ∈ journal.entries, entry.id = "first" ∧ entry.prepared = true := by
  have hstored : ((Depot.reached "us" (published ++ interrupted)).storage.lookup "first").map
      (fun message => show Bool from message) = some true := by
    decide +kernel
  obtain ⟨_, hstored, rfl⟩ := Option.map_eq_some_iff.mp hstored
  exact Depot.nothing_orphaned "us" (published ++ interrupted) "first" _ hstored

/-- It is published, so it is stored. -/
theorem published_stored_published :
    (Depot.reached "us" published).outbox.All fun journal =>
      ∀ entry ∈ journal.entries, entry.published = true → entry.cleanupAfter = none →
        (Depot.reached "us" published).storage.lookup entry.id = some entry.prepared :=
  Depot.published_stored "us" published

end PublishedTwice

end Outbox

end PubkySwap
