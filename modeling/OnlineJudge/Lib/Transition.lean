/-
# Runs of a labelled step function

A concurrent component is modelled by its atomic actions: `step s a = some s'` says that the
action `a` is enabled in `s` and leads to `s'`, and `none` that it is not enabled.  An
interleaving is then a list of actions, and everything nondeterministic (who runs next, what
the environment answers) sits in the labels.

This module has the three things such a model needs, over arbitrary states and actions:

* `exec`, the state a run ends in, with its composition lemma (`exec_append`);
* `Along`, "every step of this run meets a condition on the state before it";
* the induction rules: an invariant of the steps is an invariant of the runs
  (`exec_invariant`), also when the steps preserve it only under the condition
  (`exec_invariant_along`).
-/
import Mathlib.Data.List.Basic
import Mathlib.Tactic.Common

namespace Transition

variable {σ α : Type*} (step : σ → α → Option σ)

/-! ## 1. Runs

A run is a list of actions, not of states; the states are computed, and a run that takes an action
that is not enabled is none. -/

/-- The state reached from `s` by the actions in order, if each of them is enabled. -/
def exec : σ → List α → Option σ
  | s, [] => some s
  | s, a :: as => (step s a).bind fun s' => exec s' as

@[simp] theorem exec_nil (s : σ) : exec step s [] = some s := rfl

theorem exec_cons (s : σ) (a : α) (as : List α) :
    exec step s (a :: as) = (step s a).bind fun s' => exec step s' as := rfl

/-- The first step of a nonempty run. -/
theorem exec_cons_eq_some {s t : σ} {a : α} {as : List α} :
    exec step s (a :: as) = some t ↔ ∃ s', step s a = some s' ∧ exec step s' as = some t := by
  rw [exec_cons, Option.bind_eq_some_iff]

theorem exec_append (s : σ) (as bs : List α) :
    exec step s (as ++ bs) = (exec step s as).bind fun s' => exec step s' bs := by
  induction as generalizing s with
  | nil => rfl
  | cons a as ih =>
    rw [List.cons_append, exec_cons, exec_cons, Option.bind_assoc]
    exact congrArg (Option.bind (step s a)) (funext fun s' => ih s')

/-! ## 2. Conditions along a run

Some results hold only of runs whose steps all do without something (a scheduler without a certain
race, a client that behaves).  `Along` reads such a condition in the state before each step, where
it can be checked. -/

/-- Every step of the run from `s` meets `C`, read in the state before the step. -/
def Along (C : σ → α → Prop) : σ → List α → Prop
  | _, [] => True
  | s, a :: as => C s a ∧ ∀ s' ∈ step s a, Along C s' as

/-- A decidable condition can be checked along a given run. -/
instance decidableAlong (C : σ → α → Prop) [∀ s a, Decidable (C s a)] :
    ∀ (s : σ) (as : List α), Decidable (Along step C s as)
  | _, [] => inferInstanceAs (Decidable True)
  | s, a :: as =>
    haveI : DecidablePred fun s' => Along step C s' as := fun s' => decidableAlong C s' as
    inferInstanceAs (Decidable (C s a ∧ ∀ s' ∈ step s a, Along step C s' as))

@[simp] theorem along_nil (C : σ → α → Prop) (s : σ) : Along step C s [] := trivial

theorem along_cons {C : σ → α → Prop} {s s' : σ} {a : α} {as : List α}
    (h : step s a = some s') : Along step C s (a :: as) ↔ C s a ∧ Along step C s' as := by
  constructor
  · rintro ⟨hc, hrest⟩
    exact ⟨hc, hrest s' h⟩
  · rintro ⟨hc, hrest⟩
    refine ⟨hc, fun t ht => ?_⟩
    rw [h, Option.mem_some_iff] at ht
    exact ht ▸ hrest

/-- A condition that holds of every step whatever the state holds along every run. -/
theorem along_of_forall {C : σ → α → Prop} (h : ∀ s a, C s a) (s : σ) (as : List α) :
    Along step C s as := by
  induction as generalizing s with
  | nil => trivial
  | cons a as ih => exact ⟨h s a, fun s' _ => ih s'⟩

/-- What `Along` says about one step of a run. -/
theorem Along.at_step {C : σ → α → Prop} {s t : σ} {as bs : List α} {a : α}
    (h : Along step C s (as ++ a :: bs)) (hrun : exec step s as = some t) : C t a := by
  induction as generalizing s with
  | nil =>
    rw [exec_nil, Option.some.injEq] at hrun
    exact hrun ▸ h.1
  | cons b as ih =>
    obtain ⟨s', hs', hrun⟩ := (exec_cons_eq_some step).mp hrun
    exact ih (h.2 s' hs') hrun

/-- A condition along a run, read in the two parts of it. -/
theorem along_append {C : σ → α → Prop} {s : σ} {as bs : List α} :
    Along step C s (as ++ bs) ↔
      Along step C s as ∧ ∀ t, exec step s as = some t → Along step C t bs := by
  induction as generalizing s with
  | nil =>
    constructor
    · intro h
      exact ⟨trivial, fun t ht => Option.some.inj ht ▸ h⟩
    · rintro ⟨-, h⟩
      exact h s rfl
  | cons a as ih =>
    constructor
    · rintro ⟨hc, hrest⟩
      refine ⟨⟨hc, fun s' hs' => (ih.mp (hrest s' hs')).1⟩, fun t ht => ?_⟩
      obtain ⟨s', hs', hrun⟩ := (exec_cons_eq_some step).mp ht
      exact (ih.mp (hrest s' hs')).2 t hrun
    · rintro ⟨⟨hc, hfirst⟩, hsecond⟩
      refine ⟨hc, fun s' hs' => ih.mpr ⟨hfirst s' hs', fun t ht => hsecond t ?_⟩⟩
      exact (exec_cons_eq_some step).mpr ⟨s', hs', ht⟩

/-- A condition that each step of a run meets in the state it is taken in. -/
theorem along_of_at_step {C : σ → α → Prop} {s : σ} {as : List α}
    (h : ∀ bs a cs t, as = bs ++ a :: cs → exec step s bs = some t → C t a) :
    Along step C s as := by
  induction as generalizing s with
  | nil => trivial
  | cons a as ih =>
    refine ⟨h [] a as s rfl rfl, fun s' hs' => ih fun bs b cs t hsplit hrun => ?_⟩
    exact h (a :: bs) b cs t (by rw [hsplit, List.cons_append])
      ((exec_cons_eq_some step).mpr ⟨s', hs', hrun⟩)

/-- A condition along a run, with a condition on the actions alone. -/
theorem Along.and_forall {C : σ → α → Prop} {P : α → Prop} {s : σ} {as : List α}
    (h : Along step C s as) (hP : ∀ a ∈ as, P a) : Along step (fun s a => C s a ∧ P a) s as := by
  refine along_of_at_step step fun bs a cs t hsplit hrun => ⟨?_, ?_⟩
  · subst hsplit
    exact h.at_step step hrun
  · exact hP a (by rw [hsplit]; exact List.mem_append_right _ List.mem_cons_self)

/-! ## 3. Induction rules

Each induction on runs is made here, once.  What a model has to show is about one step: its action,
the state before and the state after. -/

variable {step}

/-- **The invariant rule, under a condition on the steps.**  If each step that meets `C`
preserves `I`, then a run all of whose steps meet `C` preserves `I`. -/
theorem exec_invariant_along {I : σ → Prop} {C : σ → α → Prop}
    (hstep : ∀ s a s', I s → C s a → step s a = some s' → I s') {s t : σ} {as : List α}
    (hs : I s) (hC : Along step C s as) (h : exec step s as = some t) : I t := by
  induction as generalizing s with
  | nil =>
    rw [exec_nil, Option.some.injEq] at h
    exact h ▸ hs
  | cons a as ih =>
    obtain ⟨s', hs', hrun⟩ := (exec_cons_eq_some step).mp h
    exact ih (hstep s a s' hs hC.1 hs') (hC.2 s' hs') hrun

/-- **The invariant rule.**  What every action keeps, whatever the state it is taken in, holds at
the end of a run if it holds at its start. -/
theorem exec_invariant {I : σ → Prop} (hstep : ∀ s a s', I s → step s a = some s' → I s')
    {s t : σ} {as : List α} (hs : I s) (h : exec step s as = some t) : I t :=
  exec_invariant_along (C := fun _ _ => True) (fun s a s' hi _ => hstep s a s' hi) hs
    (along_of_forall step (fun _ _ => trivial) s as) h

/-- An invariant of the steps whose labels meet a condition is one of the runs with such labels. -/
theorem exec_invariant_of_mem {I : σ → Prop} {p : α → Prop}
    (hstep : ∀ s a s', I s → p a → step s a = some s' → I s') {s t : σ} {as : List α} (hs : I s)
    (hp : ∀ a ∈ as, p a) (h : exec step s as = some t) : I t := by
  refine exec_invariant_along (C := fun _ a => p a) hstep hs ?_ h
  exact along_of_at_step step fun bs a cs _ has _ => hp a (has ▸ by simp)

/-- A property of the single steps out of states that satisfy an invariant holds along every
run from such a state. -/
theorem along_of_invariant {I : σ → Prop} {C D : σ → α → Prop}
    (hstep : ∀ s a s', I s → C s a → step s a = some s' → I s')
    (hD : ∀ s a, I s → C s a → D s a) {s : σ} {as : List α} (hs : I s)
    (hC : Along step C s as) : Along step D s as := by
  induction as generalizing s with
  | nil => trivial
  | cons a as ih =>
    exact ⟨hD s a hs hC.1, fun s' hs' => ih (hstep s a s' hs hC.1 hs') (hC.2 s' hs')⟩

/-- **A condition whose violation cannot be repaired.**  If a step that violates `C` leads into
`B`, no step leads out of `B`, and the run ends outside `B`, then every step met `C`.  The steps
are those between states that satisfy an invariant `I`. -/
theorem along_of_not_final_of_invariant {I B : σ → Prop} {C : σ → α → Prop}
    (hI : ∀ s a s', I s → step s a = some s' → I s')
    (hbad : ∀ s a s', I s → step s a = some s' → ¬ C s a → B s')
    (hstay : ∀ s a s', I s → B s → step s a = some s' → B s') {s t : σ} {as : List α} (hs : I s)
    (h : exec step s as = some t) (ht : ¬ B t) : Along step C s as := by
  induction as generalizing s with
  | nil => trivial
  | cons a as ih =>
    obtain ⟨s', hs', hrun⟩ := (exec_cons_eq_some step).mp h
    have hIs' : I s' := hI s a s' hs hs'
    refine (along_cons step hs').mpr ⟨?_, ih hIs' hrun⟩
    by_contra hC
    have hboth : ∀ s a s', I s ∧ B s → step s a = some s' → I s' ∧ B s' :=
      fun s a s' hIB hstep => ⟨hI s a s' hIB.1 hstep, hstay s a s' hIB.1 hIB.2 hstep⟩
    exact ht (exec_invariant hboth ⟨hIs', hbad s a s' hs hs' hC⟩ hrun).2

theorem along_of_not_final {B : σ → Prop} {C : σ → α → Prop}
    (hbad : ∀ s a s', step s a = some s' → ¬ C s a → B s')
    (hstay : ∀ s a s', B s → step s a = some s' → B s') {s t : σ} {as : List α}
    (h : exec step s as = some t) (ht : ¬ B t) : Along step C s as :=
  along_of_not_final_of_invariant (I := fun _ => True) (fun _ _ _ _ _ => trivial)
    (fun s a s' _ => hbad s a s') (fun s a s' _ => hstay s a s') trivial h ht

end Transition
