/-
# Taking turns

A queue in which the first one is served and goes to the end: `turns k l` is who is served in `k`
turns.  Nobody is served twice before everybody else has been served once, and the shares differ by
one turn at most.

* `nodup_window`: as many turns in a row as there are members serve different members.
* `count_turns`: a member of `l` is served `k / |l|` times, rounded down or up.
* `argmin_eq_some_iff`: a scan for the smallest key stops at the first member that has it; this is
  how a queue is found in which the members have keys.

Nobody joins or leaves.  A scheduler with members that come and go takes turns between two such
moments only, and what is said here is said of the time between them.
-/
import Mathlib.Data.List.MinMax
import Mathlib.Data.List.Rotate
import Mathlib.Tactic.Common

namespace RoundRobin

variable {α β : Type*}

/-! ## 1. Turns

The turns are a list, and a statement about them is one about that list: a window of it has no
member twice, and a member is counted in it so and so often. -/

/-- Who is served in `k` turns, one behind the other. -/
def turns : Nat → List α → List α
  | 0, _ => []
  | _ + 1, [] => []
  | k + 1, a :: l => a :: turns k (l ++ [a])

@[simp] theorem turns_zero (l : List α) : turns 0 l = [] := by
  unfold turns
  rfl

@[simp] theorem turns_nil (k : Nat) : turns k ([] : List α) = [] := by
  cases k <;> rfl

theorem turns_cons (k : Nat) (a : α) (l : List α) :
    turns (k + 1) (a :: l) = a :: turns k (l ++ [a]) := rfl

theorem length_turns (k : Nat) {l : List α} (hl : l ≠ []) : (turns k l).length = k := by
  induction k generalizing l with
  | zero => simp
  | succ k ih =>
    cases l with
    | nil => exact absurd rfl hl
    | cons a l => rw [turns_cons, List.length_cons, ih (by simp)]

/-- The turns go on from where the queue is by then. -/
theorem turns_add (j k : Nat) (l : List α) :
    turns (j + k) l = turns j l ++ turns k (l.rotate j) := by
  induction j generalizing l with
  | zero => simp
  | succ j ih =>
    cases l with
    | nil => simp
    | cons a l =>
      rw [Nat.add_right_comm, turns_cons, turns_cons, ih, List.rotate_cons_succ, List.cons_append]

/-- A queue behind the queue is not served before its time. -/
theorem turns_append {k : Nat} {l : List α} (hk : k ≤ l.length) (tail : List α) :
    turns k (l ++ tail) = l.take k := by
  induction k generalizing l tail with
  | zero => simp
  | succ k ih =>
    cases l with
    | nil => simp at hk
    | cons a l =>
      rw [List.cons_append, turns_cons, List.append_assoc, ih (Nat.le_of_succ_le_succ hk),
        List.take_succ_cons]

/-- The first round serves them in order. -/
theorem turns_of_le {k : Nat} {l : List α} (hk : k ≤ l.length) : turns k l = l.take k := by
  have h := turns_append hk []
  rwa [List.append_nil] at h

theorem turns_round (k : Nat) (l : List α) : turns (l.length + k) l = l ++ turns k l := by
  rw [turns_add, List.rotate_length, turns_of_le (le_refl _), List.take_length]

theorem mem_of_mem_turns {k : Nat} {l : List α} {a : α} (h : a ∈ turns k l) : a ∈ l := by
  induction k generalizing l with
  | zero => simp at h
  | succ k ih =>
    cases l with
    | nil => simp at h
    | cons b l =>
      rcases List.mem_cons.mp h with rfl | h
      · exact List.mem_cons_self
      · have hmem := ih h
        rw [List.mem_append, List.mem_singleton] at hmem
        rcases hmem with hmem | rfl
        · exact List.mem_cons_of_mem _ hmem
        · exact List.mem_cons_self

/-- **Turns in a row serve different members**, as many as there are. -/
theorem nodup_window {l : List α} (hl : l.Nodup) (k i : Nat) :
    (((turns k l).drop i).take l.length).Nodup := by
  by_cases hnil : l = []
  · simp [hnil]
  rcases Nat.lt_or_ge k i with hk | hk
  · rw [List.drop_eq_nil_of_le (by rw [length_turns k hnil]; exact hk.le), List.take_nil]
    exact List.nodup_nil
  · obtain ⟨rest, rfl⟩ := Nat.exists_eq_add_of_le hk
    have hdrop : (turns (i + rest) l).drop i = turns rest (l.rotate i) := by
      rw [turns_add, List.drop_left' (length_turns i hnil)]
    have hrotate : (l.rotate i).Nodup := List.nodup_rotate.mpr hl
    rw [hdrop]
    rcases Nat.le_total rest l.length with hrest | hrest
    · rw [turns_of_le (by rw [List.length_rotate]; exact hrest)]
      exact (hrotate.sublist (List.take_sublist _ _)).sublist (List.take_sublist _ _)
    · obtain ⟨more, rfl⟩ := Nat.exists_eq_add_of_le hrest
      have hround := turns_round more (l.rotate i)
      rw [List.length_rotate] at hround
      rw [hround, List.take_left' (List.length_rotate l i)]
      exact hrotate

/-- The number of turns of a member, by rounds and the rest. -/
theorem count_rounds [DecidableEq α] {l : List α} (hl : l.Nodup) {a : α} (ha : a ∈ l)
    (rounds rest : Nat) (hrest : rest ≤ l.length) :
    (turns (rounds * l.length + rest) l).count a = rounds + (l.take rest).count a := by
  induction rounds with
  | zero => rw [Nat.zero_mul, Nat.zero_add, Nat.zero_add, turns_of_le hrest]
  | succ rounds ih =>
    have hsplit : (rounds + 1) * l.length + rest = l.length + (rounds * l.length + rest) := by
      rw [Nat.succ_mul]
      omega
    rw [hsplit, turns_round, List.count_append, ih, List.count_eq_one_of_mem hl ha]
    omega

/-- **The shares differ by one turn at most**: every member is served `k / |l|` times, rounded
down or up. -/
theorem count_turns [DecidableEq α] {l : List α} (hl : l.Nodup) {a : α} (ha : a ∈ l) (k : Nat) :
    (turns k l).count a = k / l.length ∨
      (turns k l).count a = (k + l.length - 1) / l.length := by
  have hpos : 0 < l.length := List.length_pos_of_mem ha
  have hmod : k % l.length < l.length := Nat.mod_lt k hpos
  have hk : k / l.length * l.length + k % l.length = k := Nat.div_add_mod' k l.length
  have hcount := count_rounds hl ha (k / l.length) (k % l.length) hmod.le
  rw [hk] at hcount
  have hle : (l.take (k % l.length)).count a ≤ 1 :=
    List.nodup_iff_count_le_one.mp (hl.sublist (List.take_sublist _ _)) a
  rcases Nat.eq_zero_or_pos ((l.take (k % l.length)).count a) with hzero | hone
  · left
    omega
  · right
    have hrest : 0 < k % l.length := by
      rw [Nat.pos_iff_ne_zero]
      intro hnone
      rw [hnone, List.take_zero, List.count_nil] at hone
      exact absurd hone (lt_irrefl 0)
    have hup : (k + l.length - 1) / l.length = k / l.length + 1 := by
      rw [Nat.div_eq_of_lt_le]
      · rw [Nat.succ_mul]
        omega
      · rw [Nat.succ_mul, Nat.succ_mul]
        omega
    omega

/-! ## 2. The first member with the smallest key

A scan goes through the queue and keeps the best so far, which it gives up only for a smaller one.
So among equals the first wins, and a scheduler that starts its scan elsewhere each time serves
equals by turns. -/

variable [LinearOrder β]

/-- **A scan for the smallest key stops at the first member that has it.** -/
theorem argmin_eq_some_iff {f : α → β} {l : List α} (hl : l.Nodup) [DecidableEq α] {m : α} :
    l.argmin f = some m ↔ ∃ pre post, l = pre ++ m :: post ∧ (∀ a ∈ pre, f m < f a) ∧
      ∀ a ∈ post, f m ≤ f a := by
  have hmem : l.argmin f = some m ↔ m ∈ l.argmin f := Iff.rfl
  rw [hmem, List.mem_argmin_iff]
  constructor
  · rintro ⟨hm, hmin, hfirst⟩
    obtain ⟨pre, post, rfl⟩ := List.append_of_mem hm
    refine ⟨pre, post, rfl, fun a ha => ?_,
      fun a ha => hmin a (List.mem_append_right _ (List.mem_cons_of_mem _ ha))⟩
    by_contra hnot
    have hmpre : m ∉ pre := by
      intro hmem
      exact (List.nodup_append.mp hl).2.2 m hmem m List.mem_cons_self rfl
    have hidx := hfirst a (List.mem_append_left _ ha) (not_lt.mp hnot)
    rw [List.idxOf_append_of_notMem hmpre, List.idxOf_append_of_mem ha] at hidx
    have hlt := List.idxOf_lt_length_of_mem ha
    omega
  · rintro ⟨pre, post, rfl, hpre, hpost⟩
    have hmin : ∀ a ∈ pre ++ m :: post, f m ≤ f a := by
      intro a ha
      rcases List.mem_append.mp ha with ha | ha
      · exact (hpre a ha).le
      · rcases List.mem_cons.mp ha with rfl | ha
        · exact le_refl _
        · exact hpost a ha
    have hmpre : m ∉ pre := fun h => lt_irrefl _ (hpre m h)
    refine ⟨List.mem_append_right _ List.mem_cons_self, hmin, fun a ha hle => ?_⟩
    have hapre : a ∉ pre := fun h => absurd hle (not_le.mpr (hpre a h))
    rw [List.idxOf_append_of_notMem hmpre, List.idxOf_append_of_notMem hapre, List.idxOf_cons_self]
    exact Nat.le_add_right _ _

end RoundRobin
