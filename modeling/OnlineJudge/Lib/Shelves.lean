/-
# Containers whose contents move

Texts are written into containers one behind the other, and a container's content may be moved into
a new one.  What is promised of such a store: every text that was written stands in exactly one
container, the texts of a container stand in the order in which they were written, and a container
that is sealed keeps its content.

* `Kept.step`, `Kept.steps`: the promise survives every step, and every run.
* `sealed_steps`: a sealed container is not touched.

The containers have names of any type, and what they hold is the texts one behind the other.  A
container may hold something before the first text is written into it, which `base` remembers; that
part moves with the rest.  How a container comes to be sealed is left open.
-/
import Mathlib.Data.List.Basic
import Mathlib.Logic.Function.Basic
import Mathlib.Logic.Relation
import Mathlib.Tactic.Common

namespace Shelves

variable {ι α : Type*} [DecidableEq ι]

/-- What the containers hold, and everything that has been written, in order.  The second field is
what a container's content is compared with; no step looks at it. -/
structure Store (ι α : Type*) where
  content : ι → Option (List α)
  written : List (List α)

/-- A step: a text is written at the end of a container, a container is made, or the content of a
container is moved into one that was not there.  Nothing is written into a sealed container, and
nothing moved out of one. -/
inductive Step (Sealed : ι → Prop) : Store ι α → Store ι α → Prop
  | write {s : Store ι α} {i : ι} {c : List α} (hi : ¬ Sealed i) (hc : s.content i = some c)
      (text : List α) :
      Step Sealed s
        ⟨Function.update s.content i (some (c ++ text)), s.written ++ [text]⟩
  | make {s : Store ι α} {i : ι} (hi : s.content i = none) (c : List α) :
      Step Sealed s ⟨Function.update s.content i (some c), s.written⟩
  | move {s : Store ι α} {i j : ι} {c : List α} (hi : ¬ Sealed i) (hc : s.content i = some c)
      (hj : s.content j = none) :
      Step Sealed s
        ⟨Function.update (Function.update s.content j (some c)) i none, s.written⟩

/-- Any number of steps. -/
abbrev Steps (Sealed : ι → Prop) : Store ι α → Store ι α → Prop :=
  Relation.ReflTransGen (Step Sealed)

/-! ## 1. Where the texts are

No text says in which container it was written, and after a move it is not even there.  So the
places are a function from the number of a text, which changes with the moves, and the promise is
that such a function exists. -/

/-- The texts whose place is `i`, in the order in which they were written. -/
def held (written : List (List α)) (place : Nat → ι) (i : ι) : List α :=
  ((List.range written.length).filter fun n => place n = i).flatMap fun n => written.getD n []

/-- `place n` is the container of the text number `n`, which is there, and a container holds the
texts that are placed in it behind what was in it otherwise. -/
structure Filed (s : Store ι α) (base : ι → List α) (place : Nat → ι) : Prop where
  content : ∀ i c, s.content i = some c → c = base i ++ held s.written place i
  there : ∀ n < s.written.length, ∃ c, s.content (place n) = some c

/-- **No text is lost**: there is a place for every text, with what each container had held
otherwise. -/
def Kept (s : Store ι α) : Prop := ∃ base place, Filed s base place

/-- Only the places of texts that are there matter. -/
theorem held_congr {written : List (List α)} {place place' : Nat → ι} {i j : ι}
    (h : ∀ n < written.length, (place n = i ↔ place' n = j)) :
    held written place i = held written place' j := by
  refine congrArg (List.flatMap _) (List.filter_congr ?_)
  intro n hn
  exact decide_eq_decide.mpr (h n (List.mem_range.mp hn))

theorem held_append (written : List (List α)) (text : List α) (place : Nat → ι) (i : ι) :
    held (written ++ [text]) place i =
      held written place i ++ if place written.length = i then text else [] := by
  have hold : ∀ n ∈ (List.range written.length).filter (fun n => place n = i),
      (written ++ [text]).getD n [] = written.getD n [] := by
    intro n hn
    have hlt := List.mem_range.mp (List.mem_of_mem_filter hn)
    rw [List.getD_eq_getElem?_getD, List.getD_eq_getElem?_getD, List.getElem?_append_left hlt]
  have hnew : (written ++ [text]).getD written.length [] = text := by simp
  rw [held, held, List.length_append, List.length_singleton, List.range_succ, List.filter_append,
    List.flatMap_append, List.flatMap_congr hold]
  by_cases hi : place written.length = i
  · rw [if_pos hi, List.filter_singleton, decide_eq_true hi, cond_true, List.flatMap_singleton,
      hnew]
  · rw [if_neg hi, List.filter_singleton, decide_eq_false hi, cond_false, List.flatMap_nil]

/-- Nothing stands in a container that is not there, so a container that is made anew starts empty.
-/
theorem Filed.held_of_absent {s : Store ι α} {base : ι → List α} {place : Nat → ι}
    (h : Filed s base place) {i : ι} (hi : s.content i = none) : held s.written place i = [] := by
  rw [held, List.filter_eq_nil_iff.mpr, List.flatMap_nil]
  intro n hn hplace
  obtain ⟨c, hc⟩ := h.there n (List.mem_range.mp hn)
  rw [of_decide_eq_true hplace, hi] at hc
  cases hc

theorem kept_of_written_nil [Nonempty ι] {s : Store ι α} (h : s.written = []) : Kept s := by
  refine ⟨fun i => (s.content i).getD [], fun _ => Classical.arbitrary ι, ?_, ?_⟩
  · intro i c hc
    simp [hc, held, h]
  · intro n hn
    rw [h] at hn
    cases hn

theorem Filed.write {s : Store ι α} {base : ι → List α} {place : Nat → ι} (h : Filed s base place)
    {i : ι} {c : List α} (hc : s.content i = some c) (text : List α) :
    Filed ⟨Function.update s.content i (some (c ++ text)), s.written ++ [text]⟩ base
      (Function.update place s.written.length i) := by
  have hold : ∀ j, held s.written (Function.update place s.written.length i) j =
      held s.written place j := by
    intro j
    refine held_congr ?_
    intro n hn
    rw [Function.update_of_ne (Nat.ne_of_lt hn)]
  constructor
  · intro j d hd
    rw [held_append, hold, Function.update_self]
    by_cases hj : j = i
    · subst hj
      simp only [Function.update_self, Option.some.injEq] at hd
      rw [if_pos rfl, ← hd, h.content j c hc, List.append_assoc]
    · simp only [Function.update_of_ne hj] at hd
      rw [if_neg (Ne.symm hj), List.append_nil]
      exact h.content j d hd
  · intro n hn
    have hthere : ∀ j, (∃ d, s.content j = some d) →
        ∃ d, Function.update s.content i (some (c ++ text)) j = some d := by
      intro j hj
      by_cases hji : j = i
      · subst hji
        exact ⟨_, Function.update_self _ _ _⟩
      · rwa [Function.update_of_ne hji]
    refine hthere _ ?_
    by_cases hlast : n = s.written.length
    · rw [hlast, Function.update_self]
      exact ⟨c, hc⟩
    · rw [Function.update_of_ne hlast]
      rw [List.length_append, List.length_singleton] at hn
      exact h.there n (by omega)

theorem Filed.make {s : Store ι α} {base : ι → List α} {place : Nat → ι} (h : Filed s base place)
    {i : ι} (hi : s.content i = none) (c : List α) :
    Filed ⟨Function.update s.content i (some c), s.written⟩ (Function.update base i c) place := by
  constructor
  · intro j d hd
    by_cases hj : j = i
    · subst hj
      simp only [Function.update_self, Option.some.injEq] at hd ⊢
      rw [h.held_of_absent hi, List.append_nil, hd]
    · simp only [Function.update_of_ne hj] at hd ⊢
      exact h.content j d hd
  · intro n hn
    obtain ⟨d, hd⟩ := h.there n hn
    have hne : place n ≠ i := by
      rintro rfl
      rw [hi] at hd
      cases hd
    exact ⟨d, (Function.update_of_ne hne _ _).trans hd⟩

theorem Filed.move {s : Store ι α} {base : ι → List α} {place : Nat → ι} (h : Filed s base place)
    {i j : ι} {c : List α} (hc : s.content i = some c) (hj : s.content j = none) :
    Filed ⟨Function.update (Function.update s.content j (some c)) i none, s.written⟩
      (Function.update base j (base i)) (fun n => if place n = i then j else place n) := by
  have hne : j ≠ i := by
    rintro rfl
    rw [hc] at hj
    cases hj
  have hempty : ∀ n < s.written.length, place n ≠ j := by
    intro n hn hplace
    obtain ⟨d, hd⟩ := h.there n hn
    rw [hplace, hj] at hd
    cases hd
  constructor
  · intro k d hd
    by_cases hki : k = i
    · subst hki
      simp at hd
    simp only [Function.update_of_ne hki] at hd
    by_cases hkj : k = j
    · subst hkj
      simp only [Function.update_self, Option.some.injEq] at hd ⊢
      rw [← hd, h.content i c hc]
      refine congrArg (base i ++ ·) (held_congr ?_)
      intro n hn
      by_cases hplace : place n = i
      · rw [if_pos hplace]
        exact iff_of_true hplace rfl
      · rw [if_neg hplace]
        exact iff_of_false hplace (hempty n hn)
    · simp only [Function.update_of_ne hkj] at hd ⊢
      refine (h.content k d hd).trans (congrArg (base k ++ ·) (held_congr ?_))
      intro n _
      by_cases hplace : place n = i
      · rw [if_pos hplace, hplace]
        exact iff_of_false (Ne.symm hki) (Ne.symm hkj)
      · rw [if_neg hplace]
  · intro n hn
    by_cases hplace : place n = i
    · rw [if_pos hplace]
      exact ⟨c, (Function.update_of_ne hne _ _).trans (Function.update_self _ _ _)⟩
    · rw [if_neg hplace]
      obtain ⟨d, hd⟩ := h.there n hn
      refine ⟨d, (Function.update_of_ne hplace _ _).trans ?_⟩
      exact (Function.update_of_ne (hempty n hn) _ _).trans hd

variable {Sealed : ι → Prop} {s t : Store ι α}

/-- **A step loses no text**: it writes one, makes a container, or moves a content whole. -/
theorem Kept.step (h : Kept s) (hst : Step Sealed s t) : Kept t := by
  obtain ⟨base, place, hfiled⟩ := h
  cases hst with
  | write _ hc text => exact ⟨_, _, hfiled.write hc text⟩
  | make hi c => exact ⟨_, _, hfiled.make hi c⟩
  | move _ hc hj => exact ⟨_, _, hfiled.move hc hj⟩

/-- **Nor does a run**, by induction on its steps. -/
theorem Kept.steps (h : Kept s) (hst : Steps Sealed s t) : Kept t := by
  induction hst with
  | refl => exact h
  | tail _ hlast ih => exact ih.step hlast

/-! ## 2. Sealed containers

Nothing is asked of the steps here but what their constructors say. -/

theorem sealed_step (hst : Step Sealed s t) {i : ι} (hi : Sealed i) {c : List α}
    (hc : s.content i = some c) : t.content i = some c := by
  cases hst with
  | @write j d hj hd text =>
    have hne : i ≠ j := fun hij => hj (hij ▸ hi)
    exact (Function.update_of_ne hne _ _).trans hc
  | @make j hj d =>
    have hne : i ≠ j := by
      rintro rfl
      rw [hc] at hj
      cases hj
    exact (Function.update_of_ne hne _ _).trans hc
  | @move j k d hj hd hk =>
    have hij : i ≠ j := fun hij => hj (hij ▸ hi)
    have hik : i ≠ k := by
      rintro rfl
      rw [hc] at hk
      cases hk
    exact (Function.update_of_ne hij _ _).trans ((Function.update_of_ne hik _ _).trans hc)

/-- **A sealed container keeps its content**: nothing is written to it, and nothing is moved out of
it or in. -/
theorem sealed_steps (hst : Steps Sealed s t) {i : ι} (hi : Sealed i) {c : List α}
    (hc : s.content i = some c) : t.content i = some c := by
  induction hst with
  | refl => exact hc
  | tail _ hlast ih => exact sealed_step hlast hi ih

end Shelves
