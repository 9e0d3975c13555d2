import PubkySwap.Lib.Program

/-!
# Programs with marks

A mark is a call that is answered with nothing: a program writes into its own trace what
cannot be seen from its calls, such as what a procedure is called with and what it returns.

`erase` takes the marks out of a program.  A program over the calls alone is a marked one
(`plain`), and every run of an erased program is a run of the marked one with its marks
taken out (`Run.exists_marked`), so what holds of every marked run holds of every run.
-/

namespace Program

variable {Op : Type} {Ans : Op → Type} {M ε ε' α β σ : Type}

/-- A mark has nothing for an answer. -/
@[reducible] def MarkedAns (Ans : Op → Type) (M : Type) : Op ⊕ M → Type
  | .inl op => Ans op
  | .inr _ => Unit

/-- A program over calls and marks. -/
abbrev Marked (Op : Type) (Ans : Op → Type) (M ε α : Type) : Type :=
  Program (Op ⊕ M) (MarkedAns Ans M) ε α

/-- An exchange of a marked program. -/
abbrev MarkedEvent (Op : Type) (Ans : Op → Type) (M : Type) : Type :=
  Event (Op ⊕ M) (MarkedAns Ans M)

/-- An exchange that is no mark. -/
def Event.plain (event : Event Op Ans) : MarkedEvent Op Ans M := ⟨.inl event.1, event.2⟩

/-- A mark as an exchange. -/
abbrev markEvent (m : M) : MarkedEvent Op Ans M := ⟨.inr m, ()⟩

/-- Leave a mark. -/
def mark (m : M) : Marked Op Ans M ε Unit := .call (.inr m) .pure

/-- A program that leaves no marks. -/
def plain : Program Op Ans ε α → Marked Op Ans M ε α
  | .pure a => .pure a
  | .throw e => .throw e
  | .halt => .halt
  | .call op next => .call (.inl op) fun a => plain (next a)

/-- A program without its marks. -/
def erase : Marked Op Ans M ε α → Program Op Ans ε α
  | .pure a => .pure a
  | .throw e => .throw e
  | .halt => .halt
  | .call (.inl op) next => .call op fun a => erase (next a)
  | .call (.inr _) next => erase (next ())

/-- An exchange, unless it is a mark. -/
def MarkedEvent.erase : MarkedEvent Op Ans M → Option (Event Op Ans)
  | ⟨.inl op, a⟩ => some ⟨op, a⟩
  | ⟨.inr _, _⟩ => none

theorem Event.plain_injective :
    Function.Injective (Event.plain : Event Op Ans → MarkedEvent Op Ans M) := by
  rintro ⟨op, a⟩ ⟨op', a'⟩ h
  cases h
  rfl

/-! ## Taking marks out -/

/-- Handing on a result does nothing. -/
theorem bind_pure : ∀ p : Program Op Ans ε α, (p.bind fun a => .pure a) = p
  | .pure _ => rfl
  | .throw _ => rfl
  | .halt => rfl
  | .call _ next => congrArg _ (funext fun a => bind_pure (next a))

@[simp] theorem erase_pure (a : α) : erase (.pure a : Marked Op Ans M ε α) = .pure a := rfl

@[simp] theorem erase_throw (e : ε) : erase (.throw e : Marked Op Ans M ε α) = .throw e := rfl

@[simp] theorem erase_plain : ∀ p : Program Op Ans ε α, erase (plain p : Marked Op Ans M ε α) = p
  | .pure _ => rfl
  | .throw _ => rfl
  | .halt => rfl
  | .call _ next => congrArg _ (funext fun a => erase_plain (next a))

@[simp] theorem erase_mark_bind (m : M) (f : Unit → Marked Op Ans M ε α) :
    erase ((mark m).bind f) = erase (f ()) := rfl

@[simp] theorem erase_bind (f : α → Marked Op Ans M ε β) :
    ∀ p : Marked Op Ans M ε α, erase (p.bind f) = (erase p).bind fun a => erase (f a)
  | .pure _ => rfl
  | .throw _ => rfl
  | .halt => rfl
  | .call (.inl _) next => congrArg _ (funext fun a => erase_bind f (next a))
  | .call (.inr _) next => erase_bind f (next ())

@[simp] theorem erase_mapError (f : ε → ε') :
    ∀ p : Marked Op Ans M ε α, erase (p.mapError f) = (erase p).mapError f
  | .pure _ => rfl
  | .throw _ => rfl
  | .halt => rfl
  | .call (.inl _) next => congrArg _ (funext fun a => erase_mapError f (next a))
  | .call (.inr _) next => erase_mapError f (next ())

theorem erase_iterate {body : σ → Marked Op Ans M ε (σ ⊕ β)} {body' : σ → Program Op Ans ε (σ ⊕ β)}
    (h : ∀ x, erase (body x) = body' x) (fuel : ℕ) (x : σ) :
    erase (iterate body fuel x) = iterate body' fuel x := by
  induction fuel generalizing x with
  | zero => rfl
  | succ fuel ih =>
      rw [iterate, iterate, erase_bind, h]
      congr 1
      funext r
      cases r with
      | inl x' => exact ih x'
      | inr b => rfl

/-- **Nothing is lost by leaving marks**: a run of the erased program is one of the marked
program without its marks. -/
theorem Run.exists_marked {p : Marked Op Ans M ε α} :
    ∀ {trace : List (Event Op Ans)} {ending : Ending ε α}, Run (erase p) trace ending →
      ∃ marked, Run p marked ending ∧ marked.filterMap MarkedEvent.erase = trace := by
  induction p with
  | pure a =>
      intro trace ending h
      cases h with
      | stop => exact ⟨[], .stop _, rfl⟩
      | pure => exact ⟨[], .pure a, rfl⟩
  | throw e =>
      intro trace ending h
      cases h with
      | stop => exact ⟨[], .stop _, rfl⟩
      | throw => exact ⟨[], .throw e, rfl⟩
  | halt =>
      intro trace ending h
      cases h with
      | stop => exact ⟨[], .stop _, rfl⟩
  | call op next ih =>
      intro trace ending h
      cases op with
      | inr m =>
          obtain ⟨marked, hrun, rfl⟩ := ih () h
          exact ⟨markEvent m :: marked,
            @Run.call (Op ⊕ M) (MarkedAns Ans M) ε α (.inr m) next () _ _ hrun, rfl⟩
      | inl op =>
          cases h with
          | stop => exact ⟨[], .stop _, rfl⟩
          | call _ a hrest =>
              obtain ⟨marked, hrun, rfl⟩ := ih a hrest
              exact ⟨⟨.inl op, a⟩ :: marked,
                @Run.call (Op ⊕ M) (MarkedAns Ans M) ε α (.inl op) next a _ _ hrun, rfl⟩

/-! ## What holds without marks -/

/-- A program that makes only calls in `P` leaves no marks either. -/
theorem OnlyCalls.plain {P : Op → Prop} :
    ∀ {p : Program Op Ans ε α}, OnlyCalls P p →
      OnlyCalls (Sum.elim P fun _ => False) (Program.plain p : Marked Op Ans M ε α) := by
  intro p
  induction p with
  | pure a => exact fun _ => trivial
  | throw e => exact fun _ => trivial
  | halt => exact fun _ => trivial
  | call op next ih => exact fun h => ⟨h.1, fun a => ih a (h.2 a)⟩

/-- **What is proved of a program holds of it in the middle of a marked run.** -/
theorem Sound.plain {K : List (Event Op Ans) → Prop}
    {L : List (Event Op Ans) → Except ε α → Prop} (start : List (MarkedEvent Op Ans M)) :
    ∀ {p : Program Op Ans ε α} {log : List (Event Op Ans)}, Sound Logged K L p log →
      Sound Logged (fun marked => ∃ log, marked = start ++ log.map Event.plain ∧ K log)
        (fun marked r => ∃ log, marked = start ++ log.map Event.plain ∧ L log r)
        (Program.plain p : Marked Op Ans M ε α) (start ++ log.map Event.plain) := by
  intro p
  induction p with
  | pure a => exact fun h => ⟨⟨_, rfl, h.1⟩, _, rfl, h.2⟩
  | throw e => exact fun h => ⟨⟨_, rfl, h.1⟩, _, rfl, h.2⟩
  | halt => exact fun h => ⟨_, rfl, h⟩
  | call op next ih =>
      intro log h
      refine (sound_logged_call _ _).mpr ⟨⟨log, rfl, h.1⟩, fun a => ?_⟩
      have hnext := ih a (h.2 a _ rfl)
      rwa [List.map_append, ← List.append_assoc] at hnext

section

variable {P : Op ⊕ M → Prop} {G : List (MarkedEvent Op Ans M) → Prop}

/-- What is left off the end of a log had its guards met. -/
theorem Guarded.of_snoc {Op : Type} {Ans : Op → Type} {P : Op → Prop}
    {G : List (Event Op Ans) → Prop} {log : List (Event Op Ans)} {event : Event Op Ans}
    (h : Guarded P G (log ++ [event])) : Guarded P G log ∧ (P event.1 → G log) := by
  refine ⟨fun before event' after heq => ?_, fun hP => h log event [] rfl hP⟩
  refine h before event' (after ++ [event]) ?_
  rw [heq, List.append_assoc, List.cons_append]

/-- What came before a guarded call. -/
theorem Guarded.take {Op : Type} {Ans : Op → Type} {P : Op → Prop}
    {G : List (Event Op Ans) → Prop} {log : List (Event Op Ans)} {n : ℕ} {event : Event Op Ans}
    (h : Guarded P G log) (hevent : log[n]? = some event) (hP : P event.1) : G (log.take n) := by
  obtain ⟨hn, heq⟩ := List.getElem?_eq_some_iff.mp hevent
  refine h _ event (log.drop (n + 1)) ?_ hP
  rw [← heq, ← List.drop_eq_getElem_cons hn, List.take_append_drop]

/-- A part of a run without marks meets the guards it meets on its own. -/
theorem Guarded.plain {P' : Op → Prop} {G' : List (Event Op Ans) → Prop}
    {start : List (MarkedEvent Op Ans M)} (h : Guarded P G start)
    (hP : ∀ op, P (.inl op) → P' op) (hG : ∀ log, G' log → G (start ++ log.map Event.plain))
    {log : List (Event Op Ans)} (hlog : Guarded P' G' log) :
    Guarded P G (start ++ log.map Event.plain) := by
  induction log using List.reverseRecOn with
  | nil => rwa [List.map_nil, List.append_nil]
  | append_singleton log event ih =>
      obtain ⟨hbefore, hevent⟩ := hlog.of_snoc
      rw [List.map_append, ← List.append_assoc]
      exact (ih hbefore).snoc fun h => hG log (hevent (hP _ h))

/-- No mark is in it. -/
theorem Guarded.plain_of_marks {start : List (MarkedEvent Op Ans M)} (h : Guarded P G start)
    (hP : ∀ op, ¬P (.inl op)) (log : List (Event Op Ans)) :
    Guarded P G (start ++ log.map Event.plain) := by
  have hnone : Guarded (fun _ : Op => False) (fun _ : List (Event Op Ans) => False) log :=
    fun _ _ _ _ hfalse => hfalse
  exact h.plain (fun op hop => hP op hop) (fun _ => False.elim) hnone

end

end Program
