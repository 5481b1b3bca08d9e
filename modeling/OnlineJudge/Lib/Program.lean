/-
# Programs with state that may raise

Imperative code that works on a state and may throw is `ExceptT ε (StateM σ)`: what was done to the
state before an exception stays done.  That is how the handlers of a server behave, which have
written a part of a response or a row of a table when something throws.

The lemmas here run such a program one step at a time, so that a proof about it follows its text and
never unfolds the monad.

* `run_bind_ok`, `run_bind_error`: what comes after code that returns, and after code that raises.
* `run_tryCatch_ok`, `run_tryCatch_error`: a `try` block.
* `Keeps`: what a program leaves alone, with one lemma for each way of putting programs together.
* `Except.foldlM_map`: two loops that keep step.
-/
import OnlineJudge.Lib.Json

/-! ## 1. Exceptions

What can be raised, and the small facts about `Except` by which a proof goes from the result of a
sequence to those of its parts. -/

/-- A sequence returns if its parts do. -/
theorem Except.bind_eq_ok {ε α β : Type} {x : Except ε α} {f : α → Except ε β} {b : β} :
    (x >>= f) = .ok b ↔ ∃ a, x = .ok a ∧ f a = .ok b := by
  cases x with
  | error e => simp [bind, Except.bind]
  | ok a => simp [bind, Except.bind]

theorem Except.toOption_eq_some {ε α : Type} {x : Except ε α} {a : α} :
    x.toOption = some a ↔ x = .ok a := by
  cases x <;> simp [Except.toOption]

theorem Except.map_eq_ok {ε α β : Type} {x : Except ε α} {f : α → β} {b : β} :
    x.map f = .ok b ↔ ∃ a, x = .ok a ∧ f a = b := by
  cases x <;> simp [Except.map]

theorem Except.mapError_eq_ok {ε ε' α : Type} {x : Except ε α} {g : ε → ε'} {a : α} :
    x.mapError g = .ok a ↔ x = .ok a := by
  cases x <;> simp [Except.mapError]

/-- **Two loops that keep step.**  If each round of the one is a round of the other, seen through
`view`, so are the loops. -/
theorem Except.foldlM_map {ε α β γ : Type} {f : α → γ → Except ε α} {g : β → γ → Except ε β}
    {view : α → β} (h : ∀ a x, g (view a) x = (f a x).map view) (xs : List γ) (a : α) :
    xs.foldlM g (view a) = (xs.foldlM f a).map view := by
  induction xs generalizing a with
  | nil => rfl
  | cons x xs ih =>
    rw [List.foldlM_cons, List.foldlM_cons, h]
    cases f a x with
    | error e => rfl
    | ok next => exact ih next

/-- What the code throws: the exceptions of the standard library, those of the JSON library, among
them the parser's with its text, and `std::runtime_error` with its text. -/
inductive Raised
  | std (e : StdException)
  | json (e : Json.Error)
  | parse (what : Bytes)
  | runtime (what : Bytes)
deriving DecidableEq

/-- `dump()`, which raises on a text that is not well-formed UTF-8. -/
def Json.Codec.print (codec : Json.Codec) (v : Json) : Except Raised Bytes :=
  match codec.dump v with
  | some text => .ok text
  | none => .error (.json .utf8Text)

theorem Json.Codec.print_eq_ok {codec : Json.Codec} {v : Json} {text : Bytes} :
    codec.print v = .ok text ↔ codec.dump v = some text := by
  unfold Json.Codec.print
  cases codec.dump v <;> simp

/-- `json::parse`, which raises with a text of its own. -/
def Json.Codec.read (codec : Json.Codec) (text : Bytes) : Except Raised Json :=
  (codec.parse text).mapError .parse

theorem Json.Codec.read_eq_ok {codec : Json.Codec} {text : Bytes} {v : Json} :
    codec.read text = .ok v ↔ codec.parse text = .ok v := Except.mapError_eq_ok

/-! ## 2. Programs

Each equation is about `run`, from a given state.  A proof rewrites with the one for the first
program of a sequence, and is left with the rest of it in the new state. -/

/-- Code that works on a state of type `σ` and may raise.  The exception does not undo the state. -/
abbrev Program (σ α : Type) := ExceptT Raised (StateM σ) α

namespace Program

variable {ε σ α β : Type} {x : ExceptT ε (StateM σ) α} {s s' : σ}

/-- Code that may raise and does not touch the state. -/
def ofExcept (result : Except ε α) : ExceptT ε (StateM σ) α := fun s => (result, s)

theorem run_ofExcept (result : Except ε α) (s : σ) :
    (ofExcept result : ExceptT ε (StateM σ) α).run s = (result, s) := rfl

theorem ofExcept_ok_bind (a : α) (f : α → ExceptT ε (StateM σ) β) :
    (ofExcept (.ok a) >>= f : ExceptT ε (StateM σ) β) = f a := rfl

theorem ofExcept_error_bind (e : ε) (f : α → ExceptT ε (StateM σ) β) :
    (ofExcept (.error e) >>= f : ExceptT ε (StateM σ) β) = ofExcept (.error e) := rfl

theorem run_pure (a : α) (s : σ) : (pure a : ExceptT ε (StateM σ) α).run s = (.ok a, s) := rfl

theorem run_bind_ok {a : α} (h : x.run s = (.ok a, s')) (f : α → ExceptT ε (StateM σ) β) :
    (x >>= f).run s = (f a).run s' := by
  show (ExceptT.bindCont f (x.run s).1).run (x.run s).2 = _
  rw [h]
  rfl

theorem run_bind_error {e : ε} (h : x.run s = (.error e, s')) (f : α → ExceptT ε (StateM σ) β) :
    (x >>= f).run s = (.error e, s') := by
  show (ExceptT.bindCont f (x.run s).1).run (x.run s).2 = _
  rw [h]
  rfl

/-- A `catch` block is not entered by code that returns. -/
theorem run_tryCatch_ok {a : α} (h : x.run s = (.ok a, s'))
    (handle : ε → ExceptT ε (StateM σ) α) : (tryCatch x handle).run s = (.ok a, s') := by
  simp only [ExceptT.run_tryCatch, bind, StateT.bind, h]
  rfl

/-- A `catch` block goes on from what the code had done when it raised. -/
theorem run_tryCatch_error {e : ε} (h : x.run s = (.error e, s'))
    (handle : ε → ExceptT ε (StateM σ) α) : (tryCatch x handle).run s = (handle e).run s' := by
  simp only [ExceptT.run_tryCatch, bind, StateT.bind, h]

/-- What a `catch` block makes of code depends on its run only. -/
theorem run_tryCatch_congr {y : ExceptT ε (StateM σ) α} (h : x.run s = y.run s')
    (handle : ε → ExceptT ε (StateM σ) α) :
    (tryCatch x handle).run s = (tryCatch y handle).run s' := by
  simp only [ExceptT.run_tryCatch, bind, StateT.bind, h]

/-! ## 3. What a program keeps

`Keeps P` is about every state in which `P` holds, also behind an exception, so it passes through a
`catch` block without a look at what was raised. -/

/-- The code keeps `P`, whether it returns or raises.  What it returns is not looked at. -/
def Keeps (P : σ → Prop) (x : ExceptT ε (StateM σ) α) : Prop := ∀ s, P s → P (x.run s).2

variable {P : σ → Prop}

theorem keeps_pure (a : α) : Keeps P (pure a : ExceptT ε (StateM σ) α) := fun _ hs => hs

theorem keeps_ofExcept (result : Except ε α) :
    Keeps P (ofExcept result : ExceptT ε (StateM σ) α) := fun _ hs => hs

theorem keeps_modify {f : σ → σ} (h : ∀ s, P s → P (f s)) :
    Keeps P (modify f : ExceptT ε (StateM σ) PUnit) := h

theorem Keeps.bind (hx : Keeps P x) {f : α → ExceptT ε (StateM σ) β} (hf : ∀ a, Keeps P (f a)) :
    Keeps P (x >>= f) := by
  intro s hs
  have hkept := hx s hs
  cases hrun : x.run s with
  | mk result s' =>
    rw [hrun] at hkept
    cases result with
    | error e =>
      rw [run_bind_error hrun]
      exact hkept
    | ok a =>
      rw [run_bind_ok hrun]
      exact hf a s' hkept

theorem Keeps.tryCatch (hx : Keeps P x) {handle : ε → ExceptT ε (StateM σ) α}
    (hhandle : ∀ e, Keeps P (handle e)) : Keeps P (tryCatch x handle) := by
  intro s hs
  have hkept := hx s hs
  cases hrun : x.run s with
  | mk result s' =>
    rw [hrun] at hkept
    cases result with
    | error e =>
      rw [run_tryCatch_error hrun]
      exact hhandle e s' hkept
    | ok a =>
      rw [run_tryCatch_ok hrun]
      exact hkept

end Program
