/-
# A data structure against its abstract type

An operation of a data structure takes a state to a result and a new state; it may also fail
(`none`), for instance in an assertion.  The abstract type says what the operations are for: it
has a state of its own, and its operations are total.

The data structure refines the abstract type when a relation between the two states holds at the
start and each operation, called within its precondition, does not fail, gives the result the
abstract operation gives, and leaves related states (`Refines`).  Whole runs then give the results
of the abstract runs (`Refines.run`).
-/
import OnlineJudge.Lib.Transition

namespace Refinement

open Transition

variable {σ τ α ω : Type*}

/-! ## 1. Runs with results

An operation is a letter of a type `α` with its arguments in it, and a run is a list of them. What a
run returns is the list of the results, one for each operation, so that two runs can be compared by
equality. -/

/-- A data structure: what an operation returns, and the state after it; `none` where an assertion
fails. -/
abbrev Impl (σ α ω : Type*) := σ → α → Option (ω × σ)

/-- An abstract type.  Its operations are total: what they would refuse is what the precondition
excludes. -/
abbrev Spec (τ α ω : Type*) := τ → α → ω × τ

/-- The state after an operation. -/
def Impl.next (impl : Impl σ α ω) (s : σ) (a : α) : Option σ := (impl s a).map Prod.snd

/-- The results of a run, and the state it ends in. -/
def Impl.run (impl : Impl σ α ω) : σ → List α → Option (List ω × σ)
  | s, [] => some ([], s)
  | s, a :: as =>
    match impl s a with
    | none => none
    | some (o, s') => (Impl.run impl s' as).map fun r => (o :: r.1, r.2)

/-- The results of an abstract run, and the state it ends in. -/
def Spec.run (spec : Spec τ α ω) : τ → List α → List ω × τ
  | t, [] => ([], t)
  | t, a :: as =>
    let r := spec t a
    let rest := Spec.run spec r.2 as
    (r.1 :: rest.1, rest.2)

/-! ## 2. Refinement

The precondition is a condition on the concrete state and the operation, since that is what the
callers of the data structure are asked for.  It is met along the whole run, or nothing is said. -/

/-- `impl` refines `spec` by the relation `R`, for operations called within `Pre`: an operation in
related states does not fail, returns what the abstract one returns, and leaves related states. -/
structure Refines (impl : Impl σ α ω) (spec : Spec τ α ω) (R : σ → τ → Prop)
    (Pre : σ → α → Prop) : Prop where
  step : ∀ {s t a}, R s t → Pre s a → ∃ s', impl s a = some ((spec t a).1, s') ∧ R s' (spec t a).2

variable {impl : Impl σ α ω} {spec : Spec τ α ω} {R : σ → τ → Prop} {Pre : σ → α → Prop}

/-- **Runs refine runs.**  By induction on the operations. -/
theorem Refines.run (h : Refines impl spec R Pre) {s : σ} {t : τ} {as : List α} (hR : R s t)
    (hpre : Along impl.next Pre s as) :
    ∃ s', impl.run s as = some ((spec.run t as).1, s') ∧ R s' (spec.run t as).2 := by
  induction as generalizing s t with
  | nil => exact ⟨s, rfl, hR⟩
  | cons a as ih =>
    obtain ⟨s', himpl, hR'⟩ := h.step hR hpre.1
    have hnext : impl.next s a = some s' := by rw [Impl.next, himpl, Option.map_some]
    obtain ⟨s'', hrun, hR''⟩ := ih hR' ((along_cons impl.next hnext).mp hpre).2
    exact ⟨s'', by rw [Impl.run, himpl]; simp only [hrun, Option.map_some]; rfl, hR''⟩

end Refinement
