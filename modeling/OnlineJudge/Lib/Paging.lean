/-
# Pages of a list that changes

A list that is read page by page, a fixed number of elements at a time, while it may change between
one page and the next.  Nothing keeps the pages together but the position from which each is read.

* `page_complete`: if the list only grows, whoever reads on to a page that is not full has seen
  everything that was in the list at the beginning.
* `page_once`: if the list only shrinks, nothing is seen twice.
-/
import Mathlib.Data.List.Nodup

namespace Paging

variable {α : Type*}

/-! ## 1. One page

A page is cut out of the list as it is when the page is asked for.  That an element is on a page is
a matter of the position at which it stands then, and of nothing else. -/

/-- The page with the number `i`, of `size` elements; an empty one if it lies behind the end. -/
def page (limit i : Nat) (xs : List α) : List α := (xs.drop (i * limit)).take limit

theorem length_page_le (limit i : Nat) (xs : List α) : (page limit i xs).length ≤ limit :=
  List.length_take_le _ _

/-- A page that is not full reaches the end, so whoever has read it need not read on. -/
theorem length_lt_of_short {limit i : Nat} {xs : List α}
    (h : (page limit i xs).length < limit) : xs.length < i * limit + limit := by
  rw [page, List.length_take, List.length_drop] at h
  omega

/-- **The page of an element** is a matter of its position. -/
theorem mem_page_iff [BEq α] [LawfulBEq α] {xs : List α} (hxs : xs.Nodup) {limit i : Nat} {x : α} :
    x ∈ page limit i xs ↔
      x ∈ xs ∧ i * limit ≤ xs.idxOf x ∧ xs.idxOf x < i * limit + limit := by
  rw [page]
  constructor
  · intro hx
    obtain ⟨j, hj, hget⟩ := List.mem_iff_getElem.mp hx
    rw [List.length_take, List.length_drop] at hj
    rw [List.getElem_take, List.getElem_drop] at hget
    have hidx : xs.idxOf x = i * limit + j := by
      rw [← hget]
      exact hxs.idxOf_getElem _ _
    exact ⟨List.mem_of_mem_drop (List.mem_of_mem_take hx), by omega, by omega⟩
  · rintro ⟨hx, hlow, hhigh⟩
    have hlt := List.idxOf_lt_length_of_mem hx
    refine List.mem_iff_getElem.mpr ⟨xs.idxOf x - i * limit, ?_, ?_⟩
    · rw [List.length_take, List.length_drop]
      omega
    · rw [List.getElem_take, List.getElem_drop]
      have hpos : i * limit + (xs.idxOf x - i * limit) = xs.idxOf x := by omega
      simp only [hpos, List.getElem_idxOf]

/-! ## 2. A list that grows or shrinks

The list of the `i`-th page is `lists i`.  What the readers are told is only that each list is a
sublist of the next, or of the one before: elements come or go anywhere, but those that stay keep
their order.  Lists that do both are left out, for with them nothing holds. -/

/-- An element that is in both lists stands no further behind in the shorter one. -/
theorem idxOf_le_of_sublist [BEq α] [LawfulBEq α] {xs ys : List α} (h : xs.Sublist ys)
    (hys : ys.Nodup) {x : α} (hx : x ∈ xs) : xs.idxOf x ≤ ys.idxOf x := by
  induction h with
  | slnil => cases hx
  | cons y h ih =>
    obtain ⟨hy, hys⟩ := List.nodup_cons.mp hys
    have hne : y ≠ x := fun hyx => hy (hyx ▸ h.subset hx)
    rw [List.idxOf_cons_ne _ hne]
    exact Nat.le_succ_of_le (ih hys hx)
  | cons_cons y h ih =>
    obtain ⟨-, hys⟩ := List.nodup_cons.mp hys
    by_cases hyx : y = x
    · rw [List.idxOf_cons_eq _ hyx]
      exact Nat.zero_le _
    · rw [List.idxOf_cons_ne _ hyx, List.idxOf_cons_ne _ hyx]
      refine Nat.succ_le_succ (ih hys ?_)
      exact (List.mem_cons.mp hx).resolve_left (Ne.symm hyx)

/-- A list that shrinks at every step is in what it was before. -/
theorem sublist_of_shrinking {lists : Nat → List α} {n : Nat}
    (hshrink : ∀ i < n, (lists (i + 1)).Sublist (lists i)) {i j : Nat} (hij : i ≤ j) (hj : j ≤ n) :
    (lists j).Sublist (lists i) := by
  induction hij with
  | refl => exact List.Sublist.refl _
  | step hij ih => exact (hshrink _ (by omega)).trans (ih (by omega))

section

variable [BEq α] [LawfulBEq α] {limit : Nat} {lists : Nat → List α} {n : Nat}

/-- Where an element stands that no page has shown so far. -/
theorem le_idxOf_of_unseen (hnodup : ∀ i ≤ n, (lists i).Nodup)
    (hgrow : ∀ i < n, (lists i).Sublist (lists (i + 1))) {x : α} (hx : x ∈ lists 0)
    {i : Nat} (hi : i ≤ n) (hunseen : ∀ j < i, x ∉ page limit j (lists j)) :
    x ∈ lists i ∧ i * limit ≤ (lists i).idxOf x := by
  induction i with
  | zero => exact ⟨hx, by omega⟩
  | succ i ih =>
    obtain ⟨hmem, hle⟩ := ih (by omega) fun j hj => hunseen j (by omega)
    have hsub := hgrow i (by omega)
    have hstep := idxOf_le_of_sublist hsub (hnodup (i + 1) hi) hmem
    have hpast : i * limit + limit ≤ (lists i).idxOf x := by
      by_contra hin
      exact hunseen i (by omega) ((mem_page_iff (hnodup i (by omega))).mpr ⟨hmem, hle, by omega⟩)
    refine ⟨hsub.subset hmem, ?_⟩
    rw [Nat.succ_mul]
    omega

/-- **Nothing is missed**: in a list that only grows, the pages up to one that is not full show
everything that was there at the beginning. -/
theorem page_complete (hnodup : ∀ i ≤ n, (lists i).Nodup)
    (hgrow : ∀ i < n, (lists i).Sublist (lists (i + 1)))
    (hshort : (page limit n (lists n)).length < limit) {x : α} (hx : x ∈ lists 0) :
    ∃ i ≤ n, x ∈ page limit i (lists i) := by
  by_contra hnone
  have hunseen : ∀ j ≤ n, x ∉ page limit j (lists j) := fun j hj hj' => hnone ⟨j, hj, hj'⟩
  obtain ⟨hmem, hle⟩ := le_idxOf_of_unseen hnodup hgrow hx (Nat.le_refl n)
    fun j hj => hunseen j (by omega)
  have hlt := List.idxOf_lt_length_of_mem hmem
  have hend := length_lt_of_short hshort
  exact hunseen n (Nat.le_refl n)
    ((mem_page_iff (hnodup n (Nat.le_refl n))).mpr ⟨hmem, hle, by omega⟩)

/-- **Nothing is repeated**: in a list that only shrinks, no two pages show the same. -/
theorem page_once (hnodup : ∀ i ≤ n, (lists i).Nodup)
    (hshrink : ∀ i < n, (lists (i + 1)).Sublist (lists i)) {i j : Nat} (hij : i < j) (hj : j ≤ n)
    {x : α} (hx : x ∈ page limit i (lists i)) : x ∉ page limit j (lists j) := by
  intro hx'
  obtain ⟨-, -, hhigh⟩ := (mem_page_iff (hnodup i (by omega))).mp hx
  obtain ⟨hmem, hlow, -⟩ := (mem_page_iff (hnodup j hj)).mp hx'
  have hstep := idxOf_le_of_sublist (sublist_of_shrinking hshrink (Nat.le_of_lt hij) hj)
    (hnodup i (by omega)) hmem
  have hpages : i * limit + limit ≤ j * limit := by
    rw [← Nat.succ_mul]
    exact Nat.mul_le_mul_right limit hij
  omega

end

end Paging
