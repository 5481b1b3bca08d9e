/-
# Postconditions of programs that may raise

`wp x Q E s`: run from `s`, the program ends in `Q` if it returns and in `E` if it raises.  There is
one rule for each way of putting programs together, an equivalence where the program decides what is
left to prove, so that `simp only` walks through a program.

* `wp_bind`, `wp_tryCatch`: a sequence, and a `try` block.
* `wp_mono`: a postcondition can be weakened.
* `final_of_wp`: what both postconditions say of the state holds of the state behind the program.

The programs have no loops that could run on for ever: a loop over a list is a fold, and its rule is
an induction of whoever uses it.
-/
import OnlineJudge.Lib.Program

namespace Program

variable {ε σ α β : Type} {Q Q' : α → σ → Prop} {E E' : ε → σ → Prop} {s : σ}

/-- The program ends in `Q` if it returns, and in `E` if it raises.  The exception is handed to `E`,
since a `catch` block may look at it. -/
def wp (x : ExceptT ε (StateM σ) α) (Q : α → σ → Prop) (E : ε → σ → Prop) (s : σ) : Prop :=
  match x.run s with
  | (.ok a, s') => Q a s'
  | (.error e, s') => E e s'

theorem wp_of_run_ok {x : ExceptT ε (StateM σ) α} {a : α} {s' : σ} (h : x.run s = (.ok a, s')) :
    wp x Q E s ↔ Q a s' := by
  rw [wp, h]

theorem wp_of_run_error {x : ExceptT ε (StateM σ) α} {e : ε} {s' : σ}
    (h : x.run s = (.error e, s')) : wp x Q E s ↔ E e s' := by
  rw [wp, h]

@[simp] theorem wp_pure (a : α) : wp (pure a : ExceptT ε (StateM σ) α) Q E s ↔ Q a s := Iff.rfl

@[simp] theorem wp_modify {R : PUnit → σ → Prop} (f : σ → σ) :
    wp (modify f : ExceptT ε (StateM σ) PUnit) R E s ↔ R ⟨⟩ (f s) := Iff.rfl

/-- What comes from outside either returns or raises, and leaves the state alone. -/
@[simp] theorem wp_ofExcept (result : Except ε α) :
    wp (ofExcept result : ExceptT ε (StateM σ) α) Q E s ↔
      (∀ a, result = .ok a → Q a s) ∧ ∀ e, result = .error e → E e s := by
  cases result with
  | error e => simp [wp, run_ofExcept]
  | ok a => simp [wp, run_ofExcept]

/-- **A sequence**: what the second part needs is what the first has to end in, and both have the
same exceptional end. -/
@[simp] theorem wp_bind (x : ExceptT ε (StateM σ) α) (f : α → ExceptT ε (StateM σ) β)
    {R : β → σ → Prop} : wp (x >>= f) R E s ↔ wp x (fun a => wp (f a) R E) E s := by
  cases hrun : x.run s with
  | mk result s' =>
    cases result with
    | error e => rw [wp_of_run_error hrun, wp_of_run_error (run_bind_error hrun f)]
    | ok a => rw [wp_of_run_ok hrun, wp, wp, run_bind_ok hrun]

/-- **A `try` block**: the exceptional end of the body is what the handler begins with. -/
theorem wp_tryCatch (x : ExceptT ε (StateM σ) α) (handle : ε → ExceptT ε (StateM σ) α) :
    wp (tryCatch x handle) Q E s ↔ wp x Q (fun e => wp (handle e) Q E) s := by
  cases hrun : x.run s with
  | mk result s' =>
    cases result with
    | error e => rw [wp_of_run_error hrun, wp, wp, run_tryCatch_error hrun]
    | ok a => rw [wp_of_run_ok hrun, wp_of_run_ok (run_tryCatch_ok hrun handle)]

theorem wp_mono {x : ExceptT ε (StateM σ) α} (hQ : ∀ a s, Q a s → Q' a s)
    (hE : ∀ e s, E e s → E' e s) (h : wp x Q E s) : wp x Q' E' s := by
  unfold wp at h ⊢
  split at h
  · exact hQ _ _ h
  · exact hE _ _ h

/-- What holds of the final state either way, for a caller who does not ask whether something was
raised. -/
theorem final_of_wp {x : ExceptT ε (StateM σ) α} {P : σ → Prop}
    (h : wp x (fun _ => P) (fun _ => P) s) : P (x.run s).2 := by
  unfold wp at h
  split at h
  · rename_i hrun
    rw [hrun]
    exact h
  · rename_i hrun
    rw [hrun]
    exact h

end Program
