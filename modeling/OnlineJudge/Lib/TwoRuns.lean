/-
# Two runs of one program

What a program says about its state is a matter of two runs: started in states that look the same to
an observer, it returns or raises the same, and ends in states that look the same.  `Agrees R x`
says so for states that `R` relates.

There is one rule for each way of putting programs together, so that the proof about a program
follows its text and never unfolds the monad.

* `Agrees.bind`: a sequence, where the second program may be chosen by what the first one returns:
  the relation makes both runs choose the same.
* `Agrees.tryCatch`: a `try` block, whose `catch` part runs in both or in neither.

Nothing is said of time, or of how often something is done; what an observer may see has to be in
the state.
-/
import OnlineJudge.Lib.Program

namespace Program

variable {ε σ α β : Type} {R : σ → σ → Prop}

/-- The program does the same in states that `R` relates: it returns or raises the same, and the
states behind it are related again.  Without the second half the rule for a sequence would fail. -/
def Agrees (R : σ → σ → Prop) (x : ExceptT ε (StateM σ) α) : Prop :=
  ∀ s s', R s s' → (x.run s).1 = (x.run s').1 ∧ R (x.run s).2 (x.run s').2

theorem agrees_ofExcept (result : Except ε α) :
    Agrees R (ofExcept result : ExceptT ε (StateM σ) α) := fun _ _ h => ⟨rfl, h⟩

theorem agrees_modify {f : σ → σ} (hf : ∀ s s', R s s' → R (f s) (f s')) :
    Agrees R (modify f : ExceptT ε (StateM σ) PUnit) := fun s s' h => ⟨rfl, hf s s' h⟩

/-- **A sequence** agrees if its parts do: the first gives both runs the same value, with which they
go on. -/
theorem Agrees.bind {x : ExceptT ε (StateM σ) α} {f : α → ExceptT ε (StateM σ) β}
    (hx : Agrees R x) (hf : ∀ a, Agrees R (f a)) : Agrees R (x >>= f) := by
  intro s s' hs
  obtain ⟨hresult, hstate⟩ := hx s s' hs
  cases hrun : x.run s with
  | mk result t =>
    cases hrun' : x.run s' with
    | mk result' t' =>
      rw [hrun, hrun'] at hresult hstate
      dsimp only at hresult hstate
      subst hresult
      cases result with
      | error e =>
        rw [run_bind_error hrun, run_bind_error hrun']
        exact ⟨rfl, hstate⟩
      | ok a =>
        rw [run_bind_ok hrun, run_bind_ok hrun']
        exact hf a t t' hstate

/-- **A `try` block** agrees if its body does and its handler does: both runs raise the same
exception or none. -/
theorem Agrees.tryCatch {x : ExceptT ε (StateM σ) α} {handle : ε → ExceptT ε (StateM σ) α}
    (hx : Agrees R x) (hhandle : ∀ e, Agrees R (handle e)) : Agrees R (tryCatch x handle) := by
  intro s s' hs
  obtain ⟨hresult, hstate⟩ := hx s s' hs
  cases hrun : x.run s with
  | mk result t =>
    cases hrun' : x.run s' with
    | mk result' t' =>
      rw [hrun, hrun'] at hresult hstate
      dsimp only at hresult hstate
      subst hresult
      cases result with
      | error e =>
        rw [run_tryCatch_error hrun, run_tryCatch_error hrun']
        exact hhandle e t t' hstate
      | ok a =>
        rw [run_tryCatch_ok hrun, run_tryCatch_ok hrun']
        exact ⟨rfl, hstate⟩

end Program
