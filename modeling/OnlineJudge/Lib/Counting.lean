/-
# Counting in lists whose entries change

The parts of a concurrent component (threads, handles, calls) are entries of a list, and an action
assigns to one of them.  How many entries are in a certain state then changes by what the old entry
and the new one contribute.  The equations are stated without subtraction, so that `omega` can use
them.

* `countP_set_add`, `count_set_add`: an assignment to one entry.
* `count_flatMap_set`, `count_flatMap_le`: entries that each stand for a list of things, such as the
  connections that a thread holds.

With them a conservation law (what is in the pool, in the hands of the threads and in the lists adds
up to what was made) is preserved by an action because both sides change by the same.
-/
import Mathlib.Data.List.Count
import Mathlib.Tactic.Common

namespace Counting

variable {α : Type*}

/-- Assigning to an entry takes away what it counted and adds what the new one counts.  The position
is given by what was there, which is how an action finds it. -/
theorem countP_set_add {l : List α} {i : Nat} {a : α} (h : l[i]? = some a) (p : α → Bool) (b : α) :
    (l.set i b).countP p + (if p a then 1 else 0) = l.countP p + (if p b then 1 else 0) := by
  obtain ⟨hlt, hget⟩ := List.getElem?_eq_some_iff.mp h
  have hpos : p a = true → 0 < l.countP p := fun hp =>
    List.countP_pos_iff.mpr ⟨a, List.mem_of_getElem? h, hp⟩
  rw [List.countP_set hlt, hget]
  by_cases hp : p a = true
  · have := hpos hp
    simp only [hp, if_true]
    omega
  · simp [hp]

variable [BEq α] [LawfulBEq α] [DecidableEq α]

/-- The same for the entries equal to `x`. -/
theorem count_set_add {l : List α} {i : Nat} {a : α} (h : l[i]? = some a) (b x : α) :
    (l.set i b).count x + (if a = x then 1 else 0) = l.count x + (if b = x then 1 else 0) := by
  have hset := countP_set_add h (· == x) b
  simpa only [List.count, beq_iff_eq] using hset

omit [DecidableEq α] in
theorem count_pos_of_getElem? {l : List α} {i : Nat} {a : α} (h : l[i]? = some a) :
    0 < l.count a :=
  List.count_pos_iff.mpr (List.mem_of_getElem? h)

theorem count_append_singleton (l : List α) (a x : α) :
    (l ++ [a]).count x = l.count x + if a = x then 1 else 0 := by
  rw [List.count_append, List.count_singleton]
  simp only [beq_iff_eq]

omit [LawfulBEq α] [DecidableEq α] in
/-- Assigning to an entry of which each stands for a list. -/
theorem count_flatMap_set {β : Type*} {f : β → List α} {l : List β} {i : Nat} {b : β}
    (h : l[i]? = some b) (b' : β) (x : α) :
    ((l.set i b').flatMap f).count x + (f b).count x =
      (l.flatMap f).count x + (f b').count x := by
  induction l generalizing i with
  | nil => cases h
  | cons c l ih =>
    cases i with
    | zero =>
      obtain rfl := Option.some.inj h
      simp only [List.set_cons_zero, List.flatMap_cons, List.count_append]
      omega
    | succ i =>
      have hrest := ih h
      simp only [List.set_cons_succ, List.flatMap_cons, List.count_append]
      omega

omit [LawfulBEq α] [DecidableEq α] in
/-- Where each entry stands for one thing at most, there are not more of them than entries. -/
theorem count_flatMap_le {β : Type*} {f : β → List α} (hf : ∀ b, (f b).length ≤ 1) (l : List β)
    (x : α) : (l.flatMap f).count x ≤ l.length := by
  induction l with
  | nil => exact Nat.le_refl 0
  | cons b l ih =>
    have hone : (f b).count x ≤ 1 := Nat.le_trans List.count_le_length (hf b)
    rw [List.flatMap_cons, List.count_append, List.length_cons]
    omega

theorem count_map_eraseIdx {β : Type*} {f : β → α} {l : List β} {i : Nat} {b : β}
    (h : l[i]? = some b) (x : α) :
    ((l.eraseIdx i).map f).count x + (if f b = x then 1 else 0) = (l.map f).count x := by
  induction l generalizing i with
  | nil => cases h
  | cons c l ih =>
    cases i with
    | zero =>
      obtain rfl := Option.some.inj h
      rw [List.eraseIdx_cons_zero, List.map_cons, List.count_cons]
      simp only [beq_iff_eq]
    | succ i =>
      have hrest := ih h
      rw [List.eraseIdx_cons_succ, List.map_cons, List.map_cons, List.count_cons, List.count_cons]
      omega

end Counting
