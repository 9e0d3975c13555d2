import PubkySwap.Lib.Program

/-!
# Programs that are run again

Two runs of one program differ only by the answers they are given.  `Agree` says that as
long as two exchanges have been the same they are given the same answers; two finished runs
of one program that agree are the same run (`Run.unique`).  A loop that has finished within
its budget finishes in the same way within any larger one (`Run.iterate_of_le`), so the
budget need not be the same in both.

A run of a composition is a run of its first part, followed by one of the second if the
first part returned (`Run.of_bind`).
-/

namespace Program

variable {Op : Type} {Ans : Op → Type} {ε α β σ : Type} {t u : List (Event Op Ans)}

/-! ## Compositions -/

theorem Run.bind_returned {p : Program Op Ans ε α} {f : α → Program Op Ans ε β} {a : α}
    {ending : Ending ε β} (hp : Run p t (.returned a)) (hf : Run (f a) u ending) :
    Run (p.bind f) (t ++ u) ending := by
  generalize hreturned : (Ending.returned a : Ending ε α) = ending' at hp
  induction hp with
  | stop p => cases hreturned
  | pure b =>
      cases hreturned
      exact hf
  | throw e => cases hreturned
  | call op answer _ ih => exact .call op answer (ih hreturned)

theorem Run.bind_failed {p : Program Op Ans ε α} (f : α → Program Op Ans ε β) {e : ε}
    (hp : Run p t (.failed e)) : Run (p.bind f) t (.failed e) := by
  generalize hfailed : (Ending.failed e : Ending ε α) = ending at hp
  induction hp with
  | stop p => cases hfailed
  | pure a => cases hfailed
  | throw e' =>
      cases hfailed
      exact .throw e
  | call op answer _ ih => exact .call op answer (ih hfailed)

/-- **A run of a composition** that has ended. -/
theorem Run.of_bind {f : α → Program Op Ans ε β} {ending : Ending ε β}
    (hended : ending ≠ .unfinished) :
    ∀ {p : Program Op Ans ε α} {t : List (Event Op Ans)}, Run (p.bind f) t ending →
      (∃ first rest a, t = first ++ rest ∧ Run p first (.returned a) ∧ Run (f a) rest ending) ∨
        ∃ e, ending = .failed e ∧ Run p t (.failed e) := by
  intro p
  induction p with
  | pure a => exact fun h => .inl ⟨[], _, a, rfl, .pure a, h⟩
  | throw e =>
      intro t h
      cases h with
      | stop => exact absurd rfl hended
      | throw => exact .inr ⟨e, rfl, .throw e⟩
  | halt =>
      intro t h
      cases h with
      | stop => exact absurd rfl hended
  | call op next ih =>
      intro t h
      cases h with
      | stop => exact absurd rfl hended
      | call op answer h =>
          rcases ih answer h with ⟨first, rest, a, rfl, hfirst, hrest⟩ | ⟨e, rfl, hfailed⟩
          · exact .inl ⟨⟨op, answer⟩ :: first, rest, a, rfl, .call op answer hfirst, hrest⟩
          · exact .inr ⟨e, rfl, .call op answer hfailed⟩

/-- The budget of a loop that has ended does not matter. -/
theorem Run.iterate_of_le {body : σ → Program Op Ans ε (σ ⊕ β)} {ending : Ending ε β}
    (hended : ending ≠ .unfinished) :
    ∀ {n m : ℕ} {s : σ} {t : List (Event Op Ans)}, Run (iterate body n s) t ending → n ≤ m →
      Run (iterate body m s) t ending := by
  intro n
  induction n with
  | zero =>
      intro m s t h _
      cases h with
      | stop => exact absurd rfl hended
  | succ n ih =>
      intro m s t h hle
      obtain ⟨m, rfl⟩ : ∃ k, m = k + 1 := ⟨m - 1, by omega⟩
      rcases Run.of_bind hended h with ⟨first, rest, r, rfl, hfirst, hrest⟩ | ⟨e, rfl, hfailed⟩
      · refine hfirst.bind_returned ?_
        cases r with
        | inl s' => exact ih hrest (Nat.le_of_succ_le_succ hle)
        | inr b => exact hrest
      · exact hfailed.bind_failed _

/-- A run makes only the calls that the program makes. -/
theorem Run.calls {P : Op → Prop} {p : Program Op Ans ε α} {ending : Ending ε α}
    (hrun : Run p t ending) : OnlyCalls P p → ∀ event ∈ t, P event.1 := by
  induction hrun with
  | stop p => exact fun _ => nofun
  | pure a => exact fun _ => nofun
  | throw e => exact fun _ => nofun
  | call op a _ ih =>
      intro hp event hmem
      rcases List.mem_cons.mp hmem with rfl | hmem
      · exact hp.1
      · exact ih (hp.2 a) event hmem

/-! ## Two runs -/

/-- As long as they have been the same, both exchanges are given the same answers. -/
def Agree (t u : List (Event Op Ans)) : Prop :=
  ∀ past op (a b : Ans op), past ++ [⟨op, a⟩] <+: t → past ++ [⟨op, b⟩] <+: u → a = b

theorem Agree.tail {event : Event Op Ans} (h : Agree (event :: t) (event :: u)) : Agree t u :=
  fun past op a b ha hb => h (event :: past) op a b
    (List.cons_prefix_cons.mpr ⟨rfl, ha⟩) (List.cons_prefix_cons.mpr ⟨rfl, hb⟩)

theorem Agree.head {op : Op} {a b : Ans op} (h : Agree (⟨op, a⟩ :: t) (⟨op, b⟩ :: u)) : a = b :=
  h [] op a b (List.cons_prefix_cons.mpr ⟨rfl, List.nil_prefix⟩)
    (List.cons_prefix_cons.mpr ⟨rfl, List.nil_prefix⟩)

theorem Agree.refl (t : List (Event Op Ans)) : Agree t t := by
  intro past op a b ha hb
  have heq := (List.prefix_of_prefix_length_le ha hb (by simp)).eq_of_length (by simp)
  cases List.append_cancel_left heq
  rfl

/-- **Runs that agree are the same run**, once they have ended. -/
theorem Run.unique {ending ending' : Ending ε α} (hended : ending ≠ .unfinished)
    (hended' : ending' ≠ .unfinished) :
    ∀ {p : Program Op Ans ε α} {t u : List (Event Op Ans)}, Run p t ending → Run p u ending' →
      Agree t u → t = u := by
  intro p t u h
  induction h generalizing u with
  | stop p => exact absurd rfl hended
  | pure a =>
      intro h' _
      cases h' with
      | stop => exact absurd rfl hended'
      | pure => rfl
  | throw e =>
      intro h' _
      cases h' with
      | stop => exact absurd rfl hended'
      | throw => rfl
  | call op a _ ih =>
      intro h' hagree
      cases h' with
      | stop => exact absurd rfl hended'
      | call op b h' =>
          obtain rfl := hagree.head
          rw [ih hended h' hagree.tail]

end Program
