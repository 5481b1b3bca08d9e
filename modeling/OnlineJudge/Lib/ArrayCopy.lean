/-
# Copying into and inside an array

`std::copy` assigns element by element, from the front.  When source and destination lie in the same
array the later elements are read after the earlier ones have been written; that is harmless as long
as the destination does not lie behind the source.

An array is the list of its elements.  The loops are the definitions here, and the theorems say
which list comes out of them; a caller then reasons with `take`, `drop` and append.

* `copyIn_eq`: a sequence that fits in replaces the elements at its place, and nothing else.
* `copyWithin_eq`: moving a range towards the front gives the elements the range had before, also
  when the two ranges overlap.
* `resize_of_le`: growing keeps what is there.

Moving a range towards the back is left out: there `std::copy` gives something else.
-/
import Mathlib.Data.List.Basic
import Mathlib.Tactic.Common

namespace ArrayCopy

variable {α : Type*}

/-- `std::copy(src.begin(), src.end(), mem.begin() + dst)`, from elsewhere. -/
def copyIn (mem : List α) (dst : Nat) : List α → List α
  | [] => mem
  | a :: src => copyIn (mem.set dst a) (dst + 1) src

/-- `std::copy(mem.begin() + src, mem.begin() + src + n, mem.begin() + dst)`. -/
def copyWithin (mem : List α) (src dst : Nat) : Nat → List α
  | 0 => mem
  | n + 1 =>
    match mem[src]? with
    | none => mem
    | some a => copyWithin (mem.set dst a) (src + 1) (dst + 1) n

/-- `resize(n)`: new elements are zero-initialised. -/
def resize [Inhabited α] (mem : List α) (n : Nat) : List α :=
  mem.take n ++ List.replicate (n - mem.length) default

/-- The elements before a position, once the element there is assigned. -/
theorem take_succ_set {mem : List α} {i : Nat} (h : i < mem.length) (a : α) :
    (mem.set i a).take (i + 1) = mem.take i ++ [a] := by
  rw [List.take_add_one, List.take_set_of_le (Nat.le_refl i), List.getElem?_set_self h]
  rfl

/-- **A sequence that fits in replaces what was at its place.** -/
theorem copyIn_eq (src : List α) {mem : List α} {dst : Nat} (h : dst + src.length ≤ mem.length) :
    copyIn mem dst src = mem.take dst ++ src ++ mem.drop (dst + src.length) := by
  induction src generalizing mem dst with
  | nil => simp [copyIn]
  | cons a src ih =>
    rw [List.length_cons] at h
    have hfits : dst + 1 + src.length ≤ (mem.set dst a).length := by
      rw [List.length_set]
      omega
    have hrest : (mem.set dst a).drop (dst + 1 + src.length) =
        mem.drop (dst + (a :: src).length) := by
      rw [List.drop_set_of_lt (by omega), List.length_cons]
      congr 1
      omega
    rw [copyIn, ih hfits, take_succ_set (by omega), hrest]
    simp only [List.append_assoc, List.singleton_append]

/-- **Moving a range towards the front.**  By induction on the number of elements: the element
assigned lies before every element that is still to be read. -/
theorem copyWithin_eq {mem : List α} {src dst : Nat} (n : Nat) (hle : dst ≤ src)
    (h : src + n ≤ mem.length) :
    copyWithin mem src dst n =
      mem.take dst ++ (mem.drop src).take n ++ mem.drop (dst + n) := by
  induction n generalizing mem src dst with
  | zero => simp [copyWithin]
  | succ n ih =>
    have hsrc : src < mem.length := by omega
    have hfits : src + 1 + n ≤ (mem.set dst mem[src]).length := by
      rw [List.length_set]
      omega
    have hread : (mem.drop src).take (n + 1) = mem[src] :: (mem.drop (src + 1)).take n := by
      rw [List.drop_eq_getElem_cons hsrc, List.take_succ_cons]
    have hrest : (mem.set dst mem[src]).drop (dst + 1 + n) = mem.drop (dst + (n + 1)) := by
      rw [List.drop_set_of_lt (by omega)]
      congr 1
      omega
    simp only [copyWithin, List.getElem?_eq_getElem hsrc]
    rw [ih (by omega) hfits, take_succ_set (by omega), List.drop_set_of_lt (by omega), hrest, hread]
    simp only [List.append_assoc, List.singleton_append]

@[simp] theorem length_copyIn (src mem : List α) (dst : Nat) :
    (copyIn mem dst src).length = mem.length := by
  induction src generalizing mem dst with
  | nil => rfl
  | cons a src ih => rw [copyIn, ih, List.length_set]

@[simp] theorem length_copyWithin (mem : List α) (src dst n : Nat) :
    (copyWithin mem src dst n).length = mem.length := by
  induction n generalizing mem src dst with
  | zero => rfl
  | succ n ih =>
    rw [copyWithin]
    split
    · rfl
    · rw [ih, List.length_set]

theorem resize_of_le [Inhabited α] {mem : List α} {n : Nat} (h : mem.length ≤ n) :
    resize mem n = mem ++ List.replicate (n - mem.length) default := by
  rw [resize, List.take_of_length_le h]

theorem length_resize [Inhabited α] (mem : List α) (n : Nat) : (resize mem n).length = n := by
  rw [resize, List.length_append, List.length_take, List.length_replicate]
  omega

end ArrayCopy
