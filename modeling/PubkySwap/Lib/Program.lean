import Mathlib

/-!
# Programs that talk to an environment

A program asks its environment for things, one call at a time, and the
environment may answer anything its type allows.  `Program Op Ans ε α` is the
tree of those calls: a leaf is a result, an error or a place where the program
was cut off, and a node is a call together with what the program does for each
answer.  Loops without a bound are unrolled up to a budget and cut off there
(`iterate`), so a statement about every budget is a statement about every finite
part of every execution.

Two semantics are given and connected.

* `Run p trace ending` is the trace semantics: `p`, cut off anywhere, has
  exchanged `trace` with its environment.
* `Sound R I Q p s` is the rule of proof.  The environment keeps a state that
  every call moves by `R`; the predicate says that, however it answers from `s`
  on, `I` holds at every moment and `Q` at the end.  `Sound.step` is its one-step
  form, which a machine that runs programs needs, and `Run.sound` reads it off a
  trace when the state is the log of the exchange itself.

The rules follow the structure of programs: one for each way of building one.
`OnlyCalls` is the syntactic special case, for the parts of a program that make
only calls which preserve an invariant.
-/

/-- A program making calls from `Op`, answered in `Ans`, with errors in `ε` and
results in `α`. -/
inductive Program (Op : Type) (Ans : Op → Type) (ε α : Type) where
  | pure (a : α)
  | throw (e : ε)
  /-- Cut off: a loop has used up its budget. -/
  | halt
  | call (op : Op) (next : Ans op → Program Op Ans ε α)

namespace Program

variable {Op : Type} {Ans : Op → Type} {ε ε' α β σ : Type}

/-! ## Building programs -/

/-- Sequential composition; an error skips what follows. -/
def bind (p : Program Op Ans ε α) (f : α → Program Op Ans ε β) : Program Op Ans ε β :=
  match p with
  | .pure a => f a
  | .throw e => .throw e
  | .halt => .halt
  | .call op next => .call op fun a => (next a).bind f

instance : Monad (Program Op Ans ε) where
  pure := .pure
  bind := bind

/-- One call, returning its answer. -/
def ask (op : Op) : Program Op Ans ε (Ans op) := .call op .pure

/-- The `?` operator: a failed answer ends the program, its error converted. -/
def orThrow (convert : ε' → ε) : Except ε' α → Program Op Ans ε α
  | .ok a => .pure a
  | .error e => .throw (convert e)

/-- A `match` on a result: the error becomes a value. -/
def attempt (p : Program Op Ans ε α) : Program Op Ans ε' (Except ε α) :=
  match p with
  | .pure a => .pure (.ok a)
  | .throw e => .pure (.error e)
  | .halt => .halt
  | .call op next => .call op fun a => (next a).attempt

/-- `map_err`. -/
def mapError (f : ε → ε') (p : Program Op Ans ε α) : Program Op Ans ε' α :=
  match p with
  | .pure a => .pure a
  | .throw e => .throw (f e)
  | .halt => .halt
  | .call op next => .call op fun a => (next a).mapError f

/-- An unbounded loop, cut off after `fuel` rounds.  A round continues with a
new state (`inl`) or leaves the loop (`inr`). -/
def iterate (body : σ → Program Op Ans ε (σ ⊕ β)) : ℕ → σ → Program Op Ans ε β
  | 0, _ => .halt
  | fuel + 1, s => (body s).bind fun
      | .inl s' => iterate body fuel s'
      | .inr b => .pure b

/-- A loop over `0..n`: it ends by itself after `n` rounds. -/
def repeatUpTo (body : σ → Program Op Ans ε (σ ⊕ β)) : ℕ → σ → Program Op Ans ε (σ ⊕ β)
  | 0, s => .pure (.inl s)
  | n + 1, s => (body s).bind fun
      | .inl s' => repeatUpTo body n s'
      | .inr b => .pure (.inr b)

@[simp] theorem bind_eq (p : Program Op Ans ε α) (f : α → Program Op Ans ε β) :
    p >>= f = p.bind f := rfl

@[simp] theorem pure_eq (a : α) : (Pure.pure a : Program Op Ans ε α) = .pure a := rfl

@[simp] theorem pure_bind (a : α) (f : α → Program Op Ans ε β) :
    (Program.pure a).bind f = f a := rfl

@[simp] theorem throw_bind (e : ε) (f : α → Program Op Ans ε β) :
    (Program.throw e).bind f = .throw e := rfl

@[simp] theorem halt_bind (f : α → Program Op Ans ε β) :
    (Program.halt : Program Op Ans ε α).bind f = .halt := rfl

@[simp] theorem call_bind (op : Op) (next : Ans op → Program Op Ans ε α)
    (f : α → Program Op Ans ε β) :
    (Program.call op next).bind f = .call op fun a => (next a).bind f := rfl

@[simp] theorem ask_bind (op : Op) (f : Ans op → Program Op Ans ε β) :
    (ask op).bind f = .call op f := rfl

@[simp] theorem orThrow_ok (convert : ε' → ε) (a : α) :
    (orThrow convert (.ok a) : Program Op Ans ε α) = .pure a := rfl

@[simp] theorem orThrow_error (convert : ε' → ε) (e : ε') :
    (orThrow convert (.error e) : Program Op Ans ε α) = .throw (convert e) := rfl

theorem bind_assoc {γ : Type} (p : Program Op Ans ε α) (f : α → Program Op Ans ε β)
    (g : β → Program Op Ans ε γ) : (p.bind f).bind g = p.bind fun a => (f a).bind g := by
  induction p with
  | pure a => rfl
  | throw e => rfl
  | halt => rfl
  | call op next ih =>
      simp only [call_bind]
      congr 1
      funext a
      exact ih a

/-! ## Traces -/

/-- One exchange with the environment. -/
abbrev Event (Op : Type) (Ans : Op → Type) : Type := (op : Op) × Ans op

/-- How far a program got. -/
inductive Ending (ε α : Type) where
  | unfinished
  | returned (a : α)
  | failed (e : ε)
  deriving DecidableEq

/-- **The trace semantics**: a program, cut off anywhere, has exchanged `trace`
with its environment, which may have answered anything. -/
inductive Run : Program Op Ans ε α → List (Event Op Ans) → Ending ε α → Prop where
  | stop (p : Program Op Ans ε α) : Run p [] .unfinished
  | pure (a : α) : Run (.pure a) [] (.returned a)
  | throw (e : ε) : Run (.throw e) [] (.failed e)
  | call (op : Op) {next : Ans op → Program Op Ans ε α} (a : Ans op)
      {trace : List (Event Op Ans)} {ending : Ending ε α} (h : Run (next a) trace ending) :
      Run (.call op next) (⟨op, a⟩ :: trace) ending

/-- Run a program against an environment that answers from a list of the answers
given so far, newest first. -/
def play (answer : List (Event Op Ans) → (op : Op) → Ans op) :
    Program Op Ans ε α → List (Event Op Ans) → List (Event Op Ans) × Ending ε α
  | .pure a, _ => ([], .returned a)
  | .throw e, _ => ([], .failed e)
  | .halt, _ => ([], .unfinished)
  | .call op next, past =>
      let a := answer past op
      let (trace, ending) := play answer (next a) (⟨op, a⟩ :: past)
      (⟨op, a⟩ :: trace, ending)

/-- Playing against any environment is a run. -/
theorem run_play (answer : List (Event Op Ans) → (op : Op) → Ans op) :
    ∀ (p : Program Op Ans ε α) (past : List (Event Op Ans)),
      Run p (p.play answer past).1 (p.play answer past).2 := by
  intro p
  induction p with
  | pure a => exact fun _ => .pure a
  | throw e => exact fun _ => .throw e
  | halt => exact fun _ => .stop _
  | call op next ih => exact fun past => .call op _ (ih _ _)

/-- Every exchange of a play has the answer the environment gives at that point. -/
theorem play_eq_append (answer : List (Event Op Ans) → (op : Op) → Ans op) :
    ∀ {p : Program Op Ans ε α} {past before after : List (Event Op Ans)} {event : Event Op Ans},
      (p.play answer past).1 = before ++ event :: after →
        event.2 = answer (before.reverse ++ past) event.1 := by
  intro p
  induction p with
  | pure a => exact fun h => absurd h (by simp [play])
  | throw e => exact fun h => absurd h (by simp [play])
  | halt => exact fun h => absurd h (by simp [play])
  | call op next ih =>
      intro past before after event h
      rcases List.cons_eq_append_iff.mp h with ⟨rfl, heq⟩ | ⟨before, rfl, heq⟩
      · cases heq
        rfl
      · rw [List.reverse_cons, List.append_assoc]
        exact ih _ heq

theorem mem_play (answer : List (Event Op Ans) → (op : Op) → Ans op) {p : Program Op Ans ε α}
    {past : List (Event Op Ans)} {event : Event Op Ans} (hmem : event ∈ (p.play answer past).1) :
    ∃ past', event.2 = answer past' event.1 := by
  obtain ⟨before, after, h⟩ := List.append_of_mem hmem
  exact ⟨_, play_eq_append answer h⟩

/-- A program whose first part fails has failed. -/
theorem play_bind_failed {answer : List (Event Op Ans) → (op : Op) → Ans op} {e : ε}
    (f : α → Program Op Ans ε β) :
    ∀ {p : Program Op Ans ε α} {past : List (Event Op Ans)},
      (p.play answer past).2 = .failed e → ((p.bind f).play answer past).2 = .failed e := by
  intro p
  induction p with
  | pure a => exact nofun
  | throw e' => exact fun h => by cases h; rfl
  | halt => exact nofun
  | call op next ih => exact fun h => ih _ h

/-! ## Soundness against an environment with a state -/

variable {S : Type} (R : S → (op : Op) → Ans op → S → Prop)

/-- **Soundness**: from `s` on, whatever the environment answers, `I` holds at
every moment and `Q` once the program has ended. -/
def Sound (I : S → Prop) (Q : S → Except ε α → Prop) : Program Op Ans ε α → S → Prop
  | .pure a, s => I s ∧ Q s (.ok a)
  | .throw e, s => I s ∧ Q s (.error e)
  | .halt, s => I s
  | .call op next, s => I s ∧ ∀ a s', R s op a s' → Sound I Q (next a) s'

variable {R} {I I' : S → Prop} {Q Q' : S → Except ε α → Prop} {s s' : S}

@[simp] theorem sound_pure (a : α) :
    Sound R I Q (.pure a : Program Op Ans ε α) s ↔ I s ∧ Q s (.ok a) := Iff.rfl

@[simp] theorem sound_throw (e : ε) :
    Sound R I Q (.throw e : Program Op Ans ε α) s ↔ I s ∧ Q s (.error e) := Iff.rfl

@[simp] theorem sound_halt :
    Sound R I Q (.halt : Program Op Ans ε α) s ↔ I s := Iff.rfl

/-- **The one-step rule**: a machine that answers a program's call keeps it
sound. -/
theorem Sound.step {op : Op} {next : Ans op → Program Op Ans ε α}
    (h : Sound R I Q (.call op next) s) {a : Ans op} (hR : R s op a s') :
    Sound R I Q (next a) s' :=
  h.2 a s' hR

theorem Sound.invariant {p : Program Op Ans ε α} (h : Sound R I Q p s) : I s := by
  cases p with
  | pure a => exact h.1
  | throw e => exact h.1
  | halt => exact h
  | call op next => exact h.1

theorem Sound.mono (hI : ∀ s, I s → I' s) (hQ : ∀ s r, I s → Q s r → Q' s r) :
    ∀ {p : Program Op Ans ε α} {s : S}, Sound R I Q p s → Sound R I' Q' p s := by
  intro p
  induction p with
  | pure a => exact fun h => ⟨hI _ h.1, hQ _ _ h.1 h.2⟩
  | throw e => exact fun h => ⟨hI _ h.1, hQ _ _ h.1 h.2⟩
  | halt => exact fun h => hI _ h
  | call op next ih => exact fun h => ⟨hI _ h.1, fun a s' hR => ih a (h.2 a s' hR)⟩

/-- **The rule for sequential composition.** -/
theorem Sound.bind {f : α → Program Op Ans ε β} {Q' : S → Except ε β → Prop}
    (hok : ∀ s a, I s → Q s (.ok a) → Sound R I Q' (f a) s)
    (herr : ∀ s e, I s → Q s (.error e) → Q' s (.error e)) :
    ∀ {p : Program Op Ans ε α} {s : S}, Sound R I Q p s → Sound R I Q' (p.bind f) s := by
  intro p
  induction p with
  | pure a => exact fun h => hok _ a h.1 h.2
  | throw e => exact fun h => ⟨h.1, herr _ e h.1 h.2⟩
  | halt => exact fun h => h
  | call op next ih => exact fun h => ⟨h.1, fun a s' hR => ih a (h.2 a s' hR)⟩

/-- What one round of a loop owes: the loop invariant if it goes on, the loop's
postcondition if it leaves. -/
def RoundMeets (J : σ → S → Prop) (Q : S → Except ε β → Prop) (s : S) :
    Except ε (σ ⊕ β) → Prop
  | .ok (.inl x) => J x s
  | .ok (.inr b) => Q s (.ok b)
  | .error e => Q s (.error e)

/-- **The rule for unbounded loops**: what one round keeps, every cut-off keeps. -/
theorem Sound.iterate {body : σ → Program Op Ans ε (σ ⊕ β)} {J : σ → S → Prop}
    {Q' : S → Except ε β → Prop} (hI : ∀ x s, J x s → I s)
    (hbody : ∀ x s, J x s → Sound R I (RoundMeets J Q') (body x) s) :
    ∀ (fuel : ℕ) {x : σ} {s : S}, J x s → Sound R I Q' (Program.iterate body fuel x) s := by
  intro fuel
  induction fuel with
  | zero => exact fun h => hI _ _ h
  | succ fuel ih =>
      intro x s h
      refine Sound.bind ?_ ?_ (hbody x s h)
      · intro s' r hIs hr
        cases r with
        | inl x' => exact ih hr
        | inr b => exact ⟨hIs, hr⟩
      · exact fun _ _ _ hr => hr

/-- The rule for loops with a bound. -/
theorem Sound.repeatUpTo {body : σ → Program Op Ans ε (σ ⊕ β)} {J : σ → S → Prop}
    {Q' : S → Except ε (σ ⊕ β) → Prop} (hI : ∀ x s, J x s → I s)
    (hend : ∀ x s, J x s → Q' s (.ok (.inl x)))
    (hbody : ∀ x s, J x s →
      Sound R I (RoundMeets J fun s r => Q' s (r.map Sum.inr)) (body x) s) :
    ∀ (n : ℕ) {x : σ} {s : S}, J x s → Sound R I Q' (Program.repeatUpTo body n x) s := by
  intro n
  induction n with
  | zero => exact fun h => ⟨hI _ _ h, hend _ _ h⟩
  | succ n ih =>
      intro x s h
      refine Sound.bind ?_ ?_ (hbody x s h)
      · intro s' r hIs hr
        cases r with
        | inl x' => exact ih hr
        | inr b => exact ⟨hIs, hr⟩
      · exact fun _ _ _ hr => hr

theorem Sound.attempt {Q' : S → Except ε' (Except ε α) → Prop}
    (hQ : ∀ s r, I s → Q s r → Q' s (.ok r)) :
    ∀ {p : Program Op Ans ε α} {s : S}, Sound R I Q p s → Sound R I Q' p.attempt s := by
  intro p
  induction p with
  | pure a => exact fun h => ⟨h.1, hQ _ _ h.1 h.2⟩
  | throw e => exact fun h => ⟨h.1, hQ _ _ h.1 h.2⟩
  | halt => exact fun h => h
  | call op next ih => exact fun h => ⟨h.1, fun a s' hR => ih a (h.2 a s' hR)⟩

theorem Sound.mapError {f : ε → ε'} {Q' : S → Except ε' α → Prop}
    (hok : ∀ s a, I s → Q s (.ok a) → Q' s (.ok a))
    (herr : ∀ s e, I s → Q s (.error e) → Q' s (.error (f e))) :
    ∀ {p : Program Op Ans ε α} {s : S}, Sound R I Q p s → Sound R I Q' (p.mapError f) s := by
  intro p
  induction p with
  | pure a => exact fun h => ⟨h.1, hok _ _ h.1 h.2⟩
  | throw e => exact fun h => ⟨h.1, herr _ _ h.1 h.2⟩
  | halt => exact fun h => h
  | call op next ih => exact fun h => ⟨h.1, fun a s' hR => ih a (h.2 a s' hR)⟩

/-- Two things proved of a program hold together. -/
theorem Sound.and : ∀ {p : Program Op Ans ε α} {s : S}, Sound R I Q p s → Sound R I' Q' p s →
    Sound R (fun s => I s ∧ I' s) (fun s r => Q s r ∧ Q' s r) p s := by
  intro p
  induction p with
  | pure a => exact fun h h' => ⟨⟨h.1, h'.1⟩, h.2, h'.2⟩
  | throw e => exact fun h h' => ⟨⟨h.1, h'.1⟩, h.2, h'.2⟩
  | halt => exact fun h h' => ⟨h, h'⟩
  | call op next ih =>
      exact fun h h' => ⟨⟨h.1, h'.1⟩, fun a s' hR => ih a (h.2 a s' hR) (h'.2 a s' hR)⟩

/-- A postcondition on results only. -/
def OnOk (P : α → S → Prop) (s : S) : Except ε α → Prop
  | .ok a => P a s
  | .error _ => True

/-- The invariant that says nothing. -/
def Always (_ : S) : Prop := True

@[simp] theorem always (s : S) : Always s := trivial

@[simp] theorem onOk_ok (P : α → S → Prop) (a : α) :
    OnOk P s (.ok a : Except ε α) ↔ P a s := Iff.rfl

@[simp] theorem onOk_error (P : α → S → Prop) (e : ε) :
    OnOk P s (.error e : Except ε α) := trivial

/-- Two things proved of a program's results hold together. -/
theorem Sound.andOk {P P' : α → S → Prop} {p : Program Op Ans ε α}
    (h : Sound R I (OnOk P) p s) (h' : Sound R Always (OnOk P') p s) :
    Sound R I (OnOk fun a s => P a s ∧ P' a s) p s := by
  refine Sound.mono (fun _ hI => hI.1) ?_ (h.and h')
  rintro s r - ⟨hr, hr'⟩
  cases r with
  | ok a => exact ⟨hr, hr'⟩
  | error e => trivial

/-- Sequential composition where only results are constrained. -/
theorem Sound.bindOk {f : α → Program Op Ans ε β} {P : α → S → Prop} {P' : β → S → Prop}
    {p : Program Op Ans ε α} (h : Sound R I (OnOk P) p s)
    (hok : ∀ s a, I s → P a s → Sound R I (OnOk P') (f a) s) :
    Sound R I (OnOk P') (p.bind f) s :=
  Sound.bind hok (fun _ _ _ _ => trivial) h

/-- The same, without an invariant. -/
theorem Sound.andThen {f : α → Program Op Ans ε β} {P : α → S → Prop} {P' : β → S → Prop}
    {p : Program Op Ans ε α} (h : Sound R Always (OnOk P) p s)
    (hok : ∀ s a, P a s → Sound R Always (OnOk P') (f a) s) :
    Sound R Always (OnOk P') (p.bind f) s :=
  h.bindOk fun s a _ ha => hok s a ha

/-- Converting errors changes no results. -/
theorem Sound.mapErrorOk {P : α → S → Prop} {f : ε → ε'} {p : Program Op Ans ε α}
    (h : Sound R I (OnOk P) p s) : Sound R I (OnOk P) (p.mapError f) s := by
  refine Sound.mapError ?_ ?_ h
  · exact fun _ _ _ ha => ha
  · exact fun _ _ _ _ => trivial

/-- A `?` on an answer: an error leaves, a result goes on. -/
theorem sound_orThrow_bind {convert : ε' → ε} {r : Except ε' α} {f : α → Program Op Ans ε β}
    {Q : S → Except ε β → Prop} (hI : I s) (herr : ∀ e, r = .error e → Q s (.error (convert e)))
    (hok : ∀ a, r = .ok a → Sound R I Q (f a) s) :
    Sound R I Q ((orThrow convert r).bind f) s := by
  cases r with
  | error e => exact ⟨hI, herr e rfl⟩
  | ok a => exact hok a rfl

/-! ## Programs that make only harmless calls -/

/-- Every call the program can make satisfies `P`. -/
def OnlyCalls (P : Op → Prop) : Program Op Ans ε α → Prop
  | .pure _ => True
  | .throw _ => True
  | .halt => True
  | .call op next => P op ∧ ∀ a, OnlyCalls P (next a)

variable {P : Op → Prop}

@[simp] theorem onlyCalls_pure (a : α) : OnlyCalls P (.pure a : Program Op Ans ε α) := trivial

@[simp] theorem onlyCalls_throw (e : ε) : OnlyCalls P (.throw e : Program Op Ans ε α) := trivial

@[simp] theorem onlyCalls_halt : OnlyCalls P (.halt : Program Op Ans ε α) := trivial

@[simp] theorem onlyCalls_call (op : Op) (next : Ans op → Program Op Ans ε α) :
    OnlyCalls P (.call op next) ↔ P op ∧ ∀ a, OnlyCalls P (next a) := Iff.rfl

@[simp] theorem onlyCalls_ask (op : Op) :
    OnlyCalls P (ask op : Program Op Ans ε (Ans op)) ↔ P op :=
  ⟨fun h => h.1, fun h => ⟨h, fun _ => trivial⟩⟩

@[simp] theorem onlyCalls_orThrow (convert : ε' → ε) (r : Except ε' α) :
    OnlyCalls P (orThrow convert r : Program Op Ans ε α) := by
  cases r <;> trivial

theorem onlyCalls_orThrow_bind {convert : ε' → ε} {r : Except ε' α}
    {f : α → Program Op Ans ε β} (hf : ∀ a, r = .ok a → OnlyCalls P (f a)) :
    OnlyCalls P ((orThrow convert r).bind f) := by
  cases r with
  | error e => trivial
  | ok a => exact hf a rfl

theorem OnlyCalls.bind {f : α → Program Op Ans ε β} (hf : ∀ a, OnlyCalls P (f a)) :
    ∀ {p : Program Op Ans ε α}, OnlyCalls P p → OnlyCalls P (p.bind f) := by
  intro p
  induction p with
  | pure a => exact fun _ => hf a
  | throw e => exact fun _ => trivial
  | halt => exact fun _ => trivial
  | call op next ih => exact fun h => ⟨h.1, fun a => ih a (h.2 a)⟩

theorem OnlyCalls.attempt :
    ∀ {p : Program Op Ans ε α}, OnlyCalls P p →
      OnlyCalls P (p.attempt : Program Op Ans ε' (Except ε α)) := by
  intro p
  induction p with
  | pure a => exact fun _ => trivial
  | throw e => exact fun _ => trivial
  | halt => exact fun _ => trivial
  | call op next ih => exact fun h => ⟨h.1, fun a => ih a (h.2 a)⟩

theorem OnlyCalls.mapError {f : ε → ε'} :
    ∀ {p : Program Op Ans ε α}, OnlyCalls P p → OnlyCalls P (p.mapError f) := by
  intro p
  induction p with
  | pure a => exact fun _ => trivial
  | throw e => exact fun _ => trivial
  | halt => exact fun _ => trivial
  | call op next ih => exact fun h => ⟨h.1, fun a => ih a (h.2 a)⟩

theorem OnlyCalls.iterate {body : σ → Program Op Ans ε (σ ⊕ β)}
    (hbody : ∀ x, OnlyCalls P (body x)) :
    ∀ (fuel : ℕ) (x : σ), OnlyCalls P (Program.iterate body fuel x) := by
  intro fuel
  induction fuel with
  | zero => exact fun _ => trivial
  | succ fuel ih =>
      intro x
      refine OnlyCalls.bind (fun r => ?_) (hbody x)
      cases r with
      | inl x' => exact ih x'
      | inr b => trivial

theorem OnlyCalls.repeatUpTo {body : σ → Program Op Ans ε (σ ⊕ β)}
    (hbody : ∀ x, OnlyCalls P (body x)) :
    ∀ (n : ℕ) (x : σ), OnlyCalls P (Program.repeatUpTo body n x) := by
  intro n
  induction n with
  | zero => exact fun _ => trivial
  | succ n ih =>
      intro x
      refine OnlyCalls.bind (fun r => ?_) (hbody x)
      cases r with
      | inl x' => exact ih x'
      | inr b => trivial

theorem OnlyCalls.mono {P' : Op → Prop} (hP : ∀ op, P op → P' op) :
    ∀ {p : Program Op Ans ε α}, OnlyCalls P p → OnlyCalls P' p := by
  intro p
  induction p with
  | pure a => exact fun _ => trivial
  | throw e => exact fun _ => trivial
  | halt => exact fun _ => trivial
  | call op next ih => exact fun h => ⟨hP _ h.1, fun a => ih a (h.2 a)⟩

/-- **Harmless calls keep an invariant**, to the end of the program. -/
theorem OnlyCalls.sound (hkeep : ∀ s op a s', P op → I s → R s op a s' → I s') :
    ∀ {p : Program Op Ans ε α}, OnlyCalls P p → ∀ {s : S}, I s →
      Sound R I (fun s _ => I s) p s := by
  intro p
  induction p with
  | pure a => exact fun _ _ hs => ⟨hs, hs⟩
  | throw e => exact fun _ _ hs => ⟨hs, hs⟩
  | halt => exact fun _ _ hs => hs
  | call op next ih =>
      exact fun h s hs => ⟨hs, fun a s' hR => ih a (h.2 a) (hkeep _ _ _ _ h.1 hs hR)⟩

/-- The same, read off the results. -/
theorem OnlyCalls.soundOk (hkeep : ∀ s op a s', P op → I s → R s op a s' → I s')
    {p : Program Op Ans ε α} (hp : OnlyCalls P p) (hs : I s) :
    Sound R Always (OnOk fun _ s => I s) p s := by
  refine Sound.mono (fun _ _ => trivial) ?_ (hp.sound hkeep hs)
  intro s r _ hI
  cases r with
  | ok a => exact hI
  | error e => trivial

/-! ## The log of the exchange as the state -/

/-- The environment that only writes the exchange down. -/
def Logged (log : List (Event Op Ans)) (op : Op) (a : Ans op) (log' : List (Event Op Ans)) :
    Prop :=
  log' = log ++ [⟨op, a⟩]

variable {K : List (Event Op Ans) → Prop} {L : List (Event Op Ans) → Except ε α → Prop}
  {log : List (Event Op Ans)}

@[simp] theorem sound_logged_call (op : Op) (next : Ans op → Program Op Ans ε α) :
    Sound Logged K L (.call op next) log ↔
      K log ∧ ∀ a, Sound Logged K L (next a) (log ++ [⟨op, a⟩]) :=
  ⟨fun h => ⟨h.1, fun a => h.2 a _ rfl⟩, fun h => ⟨h.1, fun a _ hlog => hlog ▸ h.2 a⟩⟩

/-- The log only grows. -/
theorem sound_grows : ∀ (p : Program Op Ans ε α) {start log : List (Event Op Ans)},
    (∃ t, log = start ++ t) →
      Sound Logged (fun log => ∃ t, log = start ++ t)
        (fun log _ => ∃ t, log = start ++ t) p log := by
  intro p start
  induction p with
  | pure a => exact fun h => ⟨h, h⟩
  | throw e => exact fun h => ⟨h, h⟩
  | halt => exact fun h => h
  | call op next ih =>
      rintro log ⟨t, rfl⟩
      refine (sound_logged_call _ _).mpr ⟨⟨t, rfl⟩, fun a => ih a ⟨t ++ [⟨op, a⟩], ?_⟩⟩
      exact List.append_assoc _ _ _

/-- What is proved of the result holds of a log that extends the one before. -/
theorem Sound.extending {P : α → List (Event Op Ans) → Prop} {p : Program Op Ans ε α}
    (h : Sound Logged Always (OnOk P) p log) :
    Sound Logged Always (OnOk fun a log' => P a log' ∧ ∃ t, log' = log ++ t) p log := by
  refine Sound.mono (fun _ _ => trivial) ?_ (h.and (sound_grows p ⟨[], (List.append_nil _).symm⟩))
  rintro s r - ⟨hr, hgrown⟩
  cases r with
  | ok a => exact ⟨hr, hgrown⟩
  | error e => trivial

/-- Only the calls a program makes are added to the log. -/
theorem OnlyCalls.logged {p : Program Op Ans ε α} (hp : OnlyCalls P p) :
    Sound Logged Always (OnOk fun _ log' => ∃ t, log' = log ++ t ∧ ∀ e ∈ t, P e.1) p log := by
  refine OnlyCalls.soundOk (I := fun log' => ∃ t, log' = log ++ t ∧ ∀ e ∈ t, P e.1) ?_ hp
    ⟨[], (List.append_nil _).symm, nofun⟩
  rintro _ op a _ hop ⟨t, rfl, ht⟩ rfl
  refine ⟨t ++ [⟨op, a⟩], List.append_assoc _ _ _, fun e he => ?_⟩
  rcases List.mem_append.mp he with he | he
  · exact ht e he
  · rw [List.mem_singleton.mp he]
    exact hop

/-! ## Machines -/

/-- **What a machine can reach** by running a program that is cut off anywhere, in an
environment that moves by `R`. -/
inductive Reaches (R : S → (op : Op) → Ans op → S → Prop) : Program Op Ans ε α → S → S → Prop where
  | stop (p : Program Op Ans ε α) (s : S) : Reaches R p s s
  | call {op : Op} {next : Ans op → Program Op Ans ε α} {s t u : S} (a : Ans op)
      (hmove : R s op a t) (hrest : Reaches R (next a) t u) : Reaches R (.call op next) s u

/-- Whatever a sound program reaches satisfies the invariant. -/
theorem Reaches.invariant {p : Program Op Ans ε α} {s t : S} (h : Reaches R p s t) :
    Sound R I Q p s → I t := by
  induction h with
  | stop p s => exact Sound.invariant
  | call a hmove _ ih => exact fun hsound => ih (hsound.step hmove)

/-! ## Carrying out calls by programs -/

/-- Every call of a program is carried out by a program over other calls. -/
def handle {Op' : Type} {Ans' : Op' → Type} (h : (op : Op) → Program Op' Ans' ε (Ans op)) :
    Program Op Ans ε α → Program Op' Ans' ε α
  | .pure a => .pure a
  | .throw e => .throw e
  | .halt => .halt
  | .call op next => (h op).bind fun a => handle h (next a)

/-- **The rule for carrying out calls**: a relation to a state of the calls themselves,
which every call keeps and which carries the invariant over. -/
theorem Sound.handle {Op' : Type} {Ans' : Op' → Type} {T : Type}
    {R' : T → (op : Op') → Ans' op → T → Prop} {J : T → Prop} {K : T → Except ε α → Prop}
    {h : (op : Op) → Program Op' Ans' ε (Ans op)} {rel : S → T → Prop}
    (hJ : ∀ s t, rel s t → I s → J t) (hK : ∀ s t r, rel s t → Q s r → K t r)
    (hop : ∀ op s t, rel s t → I s → (∀ a s', R s op a s' → I s') →
      Sound R' J (fun t r => ∃ a s', r = .ok a ∧ R s op a s' ∧ rel s' t) (h op) t) :
    ∀ {p : Program Op Ans ε α} {s : S} {t : T}, Sound R I Q p s → rel s t →
      Sound R' J K (p.handle h) t := by
  intro p
  induction p with
  | pure a => exact fun hs hrel => ⟨hJ _ _ hrel hs.1, hK _ _ _ hrel hs.2⟩
  | throw e => exact fun hs hrel => ⟨hJ _ _ hrel hs.1, hK _ _ _ hrel hs.2⟩
  | halt => exact fun hs hrel => hJ _ _ hrel hs
  | call op next ih =>
      intro s t hs hrel
      have hnext (a : Ans op) (s' : S) (hmove : R s op a s') : I s' := (hs.2 a s' hmove).invariant
      refine Sound.bind ?_ ?_ (hop op s t hrel hs.1 hnext)
      · rintro t' a - ⟨_, s', ⟨⟩, hmove, hrel'⟩
        exact ih a (hs.2 a s' hmove) hrel'
      · rintro t' e - ⟨_, _, ⟨⟩, _⟩

/-! ## Answers of a restricted environment -/

/-- The environment that writes the exchange down and answers only as `A` says. -/
def LoggedIf (A : (op : Op) → Ans op → Prop) (log : List (Event Op Ans)) (op : Op) (a : Ans op)
    (log' : List (Event Op Ans)) : Prop :=
  A op a ∧ log' = log ++ [⟨op, a⟩]

/-- The environment of one exchange: what is written down is a beginning of it. -/
def Along (full log : List (Event Op Ans)) (op : Op) (a : Ans op) (log' : List (Event Op Ans)) :
    Prop :=
  log' = log ++ [⟨op, a⟩] ∧ log' <+: full

/-! ## Calls that something has to come before -/

/-- Before every call in `P` the log had `G`. -/
def Guarded (P : Op → Prop) (G : List (Event Op Ans) → Prop) (log : List (Event Op Ans)) : Prop :=
  ∀ before event after, log = before ++ event :: after → P event.1 → G before

section

variable {G : List (Event Op Ans) → Prop}

theorem guarded_nil : Guarded P G ([] : List (Event Op Ans)) := by
  intro before event after h
  exact absurd h (by simp)

/-- A call in `P` needs `G` of the log as it stands. -/
theorem Guarded.snoc (h : Guarded P G log) {event : Event Op Ans} (hguard : P event.1 → G log) :
    Guarded P G (log ++ [event]) := by
  intro before event' after heq hP
  rcases List.eq_nil_or_concat after with rfl | ⟨rest, last, rfl⟩
  · obtain ⟨rfl, hlast⟩ := List.append_inj' heq rfl
    cases hlast
    exact hguard hP
  · rw [List.concat_eq_append, ← List.cons_append, ← List.append_assoc] at heq
    exact h before event' rest (List.append_inj' heq rfl).1 hP

/-- Leaving events out keeps what came before the others, as far as it is kept in
what came before. -/
theorem Guarded.filter {G' : List (Event Op Ans) → Prop} (h : Guarded P G log)
    (f : Event Op Ans → Bool) (hG : ∀ before, G before → G' (before.filter f)) :
    Guarded P G' (log.filter f) := by
  intro before event after heq hP
  obtain ⟨start, rest, rfl, rfl, hrest⟩ := List.filter_eq_append_iff.mp heq
  obtain ⟨skipped, last, rfl, hskipped, -, -⟩ := List.filter_eq_cons_iff.mp hrest
  have hbefore := hG _ (h (start ++ skipped) event last (List.append_assoc _ _ _).symm hP)
  rwa [List.filter_append, List.filter_eq_nil_iff.mpr hskipped, List.append_nil] at hbefore

/-- A program without calls in `P` needs nothing. -/
theorem OnlyCalls.guarded {p : Program Op Ans ε α} (hp : OnlyCalls (fun op => ¬P op) p)
    (h : Guarded P G log) : Sound Logged (Guarded P G) (fun log _ => Guarded P G log) p log := by
  refine OnlyCalls.sound ?_ hp h
  rintro log op a _ hop hlog rfl
  exact hlog.snoc fun hP => absurd hP hop

theorem onlyCalls_any : ∀ (p : Program Op Ans ε α), OnlyCalls (fun _ => True) p := by
  intro p
  induction p with
  | pure a => trivial
  | throw e => trivial
  | halt => trivial
  | call op next ih => exact ⟨trivial, ih⟩

/-- **Once `G` has been reached** any program may go on, if `G` is never lost. -/
theorem sound_guarded (hG : ∀ log event, G log → G (log ++ [event])) (p : Program Op Ans ε α)
    (h : Guarded P G log) (hlog : G log) :
    Sound Logged (Guarded P G) (fun log _ => Guarded P G log) p log := by
  have hboth := OnlyCalls.sound (R := Logged) (I := fun log => Guarded P G log ∧ G log) ?_
    (onlyCalls_any p) ⟨h, hlog⟩
  · exact Sound.mono (fun _ hs => hs.1) (fun _ _ _ hs => hs.1) hboth
  · rintro log op a _ - ⟨hguarded, hlog⟩ rfl
    exact ⟨hguarded.snoc fun _ => hlog, hG _ _ hlog⟩

end

/-- What an ending owes the postcondition. -/
def Ending.Meets (Q : Except ε α → Prop) : Ending ε α → Prop
  | .unfinished => True
  | .returned a => Q (.ok a)
  | .failed e => Q (.error e)

/-- A run cut off earlier is a run. -/
theorem Run.cut {p : Program Op Ans ε α} {t u : List (Event Op Ans)} {ending : Ending ε α}
    (h : Run p (t ++ u) ending) : Run p t .unfinished := by
  induction t generalizing p with
  | nil => exact .stop p
  | cons event t ih =>
      cases h with
      | call op a h => exact .call op a (ih h)

/-- **A sound program keeps its promises on every trace.** -/
theorem Run.sound {p : Program Op Ans ε α} {trace : List (Event Op Ans)} {ending : Ending ε α}
    (hrun : Run p trace ending) :
    ∀ {log : List (Event Op Ans)}, Sound Logged K L p log →
      K (log ++ trace) ∧ ending.Meets (L (log ++ trace)) := by
  induction hrun with
  | stop p =>
      intro log h
      rw [List.append_nil]
      exact ⟨h.invariant, trivial⟩
  | pure a =>
      intro log h
      rw [List.append_nil]
      exact h
  | throw e =>
      intro log h
      rw [List.append_nil]
      exact h
  | call op a _ ih =>
      intro log h
      have hmove : Logged log op a (log ++ [⟨op, a⟩]) := rfl
      have hnext := ih (h.step hmove)
      rwa [List.append_assoc, List.singleton_append] at hnext

/-- The same for a trace whose answers are those of a restricted environment. -/
theorem Run.soundIf {A : (op : Op) → Ans op → Prop} {p : Program Op Ans ε α}
    {trace : List (Event Op Ans)} {ending : Ending ε α} (hrun : Run p trace ending) :
    ∀ {log : List (Event Op Ans)}, (∀ event ∈ trace, A event.1 event.2) →
      Sound (LoggedIf A) K L p log → K (log ++ trace) ∧ ending.Meets (L (log ++ trace)) := by
  induction hrun with
  | stop p =>
      intro log _ h
      rw [List.append_nil]
      exact ⟨h.invariant, trivial⟩
  | pure a =>
      intro log _ h
      rw [List.append_nil]
      exact h
  | throw e =>
      intro log _ h
      rw [List.append_nil]
      exact h
  | call op a _ ih =>
      intro log hA h
      have hmove : LoggedIf A log op a (log ++ [⟨op, a⟩]) := ⟨hA _ (List.mem_cons_self ..), rfl⟩
      have hnext := ih (fun event hmem => hA event (List.mem_cons_of_mem _ hmem)) (h.step hmove)
      rwa [List.append_assoc, List.singleton_append] at hnext

/-- The same for the one exchange that a trace is. -/
theorem Run.soundAlong {p : Program Op Ans ε α} {trace : List (Event Op Ans)}
    {ending : Ending ε α} (hrun : Run p trace ending) :
    ∀ {log : List (Event Op Ans)}, Sound (Along (log ++ trace)) K L p log →
      K (log ++ trace) ∧ ending.Meets (L (log ++ trace)) := by
  induction hrun with
  | stop p =>
      intro log h
      rw [List.append_nil] at h ⊢
      exact ⟨h.invariant, trivial⟩
  | pure a =>
      intro log h
      rw [List.append_nil] at h ⊢
      exact h
  | throw e =>
      intro log h
      rw [List.append_nil] at h ⊢
      exact h
  | @call op _ a trace _ _ ih =>
      intro log h
      have hsplit : log ++ ⟨op, a⟩ :: trace = log ++ [⟨op, a⟩] ++ trace := by
        rw [List.append_assoc, List.singleton_append]
      rw [hsplit] at h ⊢
      exact ih (h.step ⟨rfl, List.prefix_append _ _⟩)

/-! ## Programs that end -/

/-- **Total correctness**: however its calls are answered, the program ends, and a result
of it satisfies `P`. -/
def Ends (P : α → Prop) : Program Op Ans ε α → Prop
  | .pure a => P a
  | .throw _ => True
  | .halt => False
  | .call _ next => ∀ a, Ends P (next a)

theorem Ends.mono {P P' : α → Prop} (hP : ∀ a, P a → P' a) :
    ∀ {p : Program Op Ans ε α}, Ends P p → Ends P' p := by
  intro p
  induction p with
  | pure a => exact hP a
  | throw e => exact id
  | halt => exact id
  | call op next ih => exact fun h a => ih a (h a)

theorem Ends.bind {P : α → Prop} {P' : β → Prop} {f : α → Program Op Ans ε β}
    (hf : ∀ a, P a → Ends P' (f a)) :
    ∀ {p : Program Op Ans ε α}, Ends P p → Ends P' (p.bind f) := by
  intro p
  induction p with
  | pure a => exact hf a
  | throw e => exact fun _ => trivial
  | halt => exact False.elim
  | call op next ih => exact fun h a => ih a (h a)

theorem ends_orThrow_bind {P : β → Prop} {convert : ε' → ε} {r : Except ε' α}
    {f : α → Program Op Ans ε β} (hf : ∀ a, r = .ok a → Ends P (f a)) :
    Ends P ((orThrow convert r).bind f) := by
  cases r with
  | error e => trivial
  | ok a => exact hf a rfl

/-- **The rule for unbounded loops**: a measure that every round that goes on decreases. -/
theorem Ends.iterate {P : β → Prop} {body : σ → Program Op Ans ε (σ ⊕ β)} (measure : σ → ℕ)
    (hbody : ∀ x, Ends (Sum.elim (fun x' => measure x' < measure x) P) (body x)) :
    ∀ (fuel : ℕ) (x : σ), measure x < fuel → Ends P (Program.iterate body fuel x) := by
  intro fuel
  induction fuel with
  | zero => exact fun x h => absurd h (Nat.not_lt_zero _)
  | succ fuel ih =>
      intro x h
      refine Ends.bind (fun r hr => ?_) (hbody x)
      cases r with
      | inl x' => exact ih x' (lt_of_lt_of_le hr (Nat.le_of_lt_succ h))
      | inr b => exact hr

/-- A play of a program that ends is finished. -/
theorem Ends.play {P : α → Prop} (answer : List (Event Op Ans) → (op : Op) → Ans op) :
    ∀ {p : Program Op Ans ε α}, Ends P p → ∀ past, (p.play answer past).2 ≠ .unfinished := by
  intro p
  induction p with
  | pure a => exact fun _ _ => nofun
  | throw e => exact fun _ _ => nofun
  | halt => exact False.elim
  | call op next ih => exact fun h past => ih _ (h _) _

end Program
