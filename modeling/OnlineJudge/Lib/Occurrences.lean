/-
# Occurrences of a list in a list

Where a needle occurs in a list, the pieces of the list between the occurrences that a scan from the
left meets, and how many occurrences there are that do not overlap.

* `Segments.unique`, `exists_segments`: a needle that is not empty cuts every list into segments, in
  one way.
* `Segments.isGreatest`: the scan from the left meets as many occurrences as can be chosen at all
  without an overlap.

A program that cuts a text at a separator makes one round for each segment, so the number of rounds
is known before it runs: it is bounded by what can be said of the text alone.
-/
import Mathlib.Data.List.Basic
import Mathlib.Data.Nat.Find
import Mathlib.Order.Bounds.Defs
import Mathlib.Tactic.Common

namespace Occurrences

variable {α : Type*}

/-! ## 1. Occurrences

Occurrences may overlap, as `aa` does in `aaa`.  `Apart` picks out those that do not, as positions
in increasing order. -/

/-- `needle` stands in `s` at position `k`, all of it. -/
def OccursAt (needle s : List α) (k : Nat) : Prop :=
  ∃ before behind, s = before ++ (needle ++ behind) ∧ before.length = k

theorem occursAt_iff {needle s : List α} {k : Nat} :
    OccursAt needle s k ↔ k ≤ s.length ∧ needle <+: s.drop k := by
  constructor
  · rintro ⟨before, behind, rfl, rfl⟩
    refine ⟨by simp, ?_⟩
    rw [List.drop_left]
    exact List.prefix_append needle behind
  · rintro ⟨hle, behind, hbehind⟩
    refine ⟨s.take k, behind, ?_, List.length_take_of_le hle⟩
    rw [hbehind, List.take_append_drop]

/-- An occurrence behind a part of the list is one in the rest. -/
theorem occursAt_append {needle part s : List α} {k : Nat} :
    OccursAt needle (part ++ s) (part.length + k) ↔ OccursAt needle s k := by
  rw [occursAt_iff, occursAt_iff, List.length_append, List.drop_length_add_append]
  exact and_congr_left fun _ => Nat.add_le_add_iff_left

/-- Occurrences that do not overlap, from left to right.  The list need not have all of them. -/
def Apart (needle s : List α) (ps : List Nat) : Prop :=
  (∀ p ∈ ps, OccursAt needle s p) ∧ ps.Pairwise fun p q => p + needle.length ≤ q

theorem Apart.nil (needle s : List α) : Apart needle s [] := by
  constructor
  · intro p hp
    cases hp
  · exact List.Pairwise.nil

theorem Apart.cons {needle s : List α} {p : Nat} {ps : List Nat} (hp : OccursAt needle s p)
    (hps : Apart needle s ps) (hfirst : ∀ q ∈ ps, p + needle.length ≤ q) :
    Apart needle s (p :: ps) := by
  refine ⟨?_, List.Pairwise.cons hfirst hps.2⟩
  intro q hq
  rcases List.mem_cons.mp hq with rfl | hq
  · exact hp
  · exact hps.1 q hq

/-- Occurrences behind a part of the list, counted from its end. -/
theorem Apart.behind {needle part s : List α} {ps : List Nat} (h : Apart needle (part ++ s) ps)
    (hps : ∀ p ∈ ps, part.length ≤ p) : Apart needle s (ps.map (· - part.length)) := by
  constructor
  · intro q hq
    obtain ⟨p, hp, rfl⟩ := List.mem_map.mp hq
    have hoccurs := h.1 p hp
    rw [← Nat.add_sub_cancel' (hps p hp)] at hoccurs
    exact occursAt_append.mp hoccurs
  · rw [List.pairwise_map]
    refine h.2.imp_of_mem ?_
    intro p q hp hq hpq
    have := hps p hp
    have := hps q hq
    omega

/-- Occurrences in a list, in a longer one. -/
theorem Apart.append {needle s : List α} {ps : List Nat} (h : Apart needle s ps)
    (part : List α) : Apart needle (part ++ s) (ps.map (part.length + ·)) := by
  constructor
  · intro q hq
    obtain ⟨p, hp, rfl⟩ := List.mem_map.mp hq
    exact occursAt_append.mpr (h.1 p hp)
  · rw [List.pairwise_map]
    refine h.2.imp ?_
    intro p q hpq
    omega

/-! ## 2. Segments

`Segments` is the scan as a relation, so that what a loop computes can be compared with it without a
word about the loop. -/

/-- The pieces of a list around the occurrences of `sep` that a scan from the left meets: each
round looks for the first one behind the one before. -/
inductive Segments (sep : List α) : List α → List (List α) → Prop
  | last {s : List α} (hnone : ∀ k, ¬ OccursAt sep s k) : Segments sep s [s]
  | cons {seg rest : List α} {segs : List (List α)}
      (hfirst : ∀ k < seg.length, ¬ OccursAt sep (seg ++ (sep ++ rest)) k)
      (hrest : Segments sep rest segs) : Segments sep (seg ++ (sep ++ rest)) (seg :: segs)

variable {sep s : List α} {segs : List (List α)}

/-- At the end of a segment there is an occurrence. -/
theorem occursAt_length (sep seg rest : List α) :
    OccursAt sep (seg ++ (sep ++ rest)) seg.length :=
  ⟨seg, rest, rfl, rfl⟩

/-- The first occurrence, if there is one. -/
theorem exists_first (sep s : List α) :
    (∀ k, ¬ OccursAt sep s k) ∨
      ∃ seg rest, s = seg ++ (sep ++ rest) ∧ ∀ k < seg.length, ¬ OccursAt sep s k := by
  by_cases h : ∃ k, OccursAt sep s k
  · right
    classical
    obtain ⟨seg, rest, hs, hlen⟩ := Nat.find_spec h
    refine ⟨seg, rest, hs, ?_⟩
    intro k hk
    rw [hlen] at hk
    exact Nat.find_min h hk
  · left
    intro k hk
    exact h ⟨k, hk⟩

/-- **Every list is cut into segments** by a separator that is not empty.  By induction on the
length: what lies behind an occurrence is shorter. -/
theorem exists_segments (hsep : sep ≠ []) (s : List α) : ∃ segs, Segments sep s segs := by
  have hpos : 0 < sep.length := List.length_pos_iff.mpr hsep
  induction hn : s.length using Nat.strongRecOn generalizing s with
  | ind n ih =>
    rcases exists_first sep s with hnone | ⟨seg, rest, rfl, hfirst⟩
    · exact ⟨[s], Segments.last hnone⟩
    · have hlt : rest.length < n := by
        rw [← hn, List.length_append, List.length_append]
        omega
      obtain ⟨segs, hrest⟩ := ih rest.length hlt rest rfl
      exact ⟨seg :: segs, Segments.cons hfirst hrest⟩

/-- **In one way.**  The first occurrence decides the first segment, and so on. -/
theorem Segments.unique {segs' : List (List α)} (h : Segments sep s segs)
    (h' : Segments sep s segs') : segs = segs' := by
  induction h generalizing segs' with
  | last hnone =>
    cases h' with
    | last => rfl
    | cons => exact absurd (occursAt_length ..) (hnone _)
  | @cons seg rest segs hfirst _ ih =>
    generalize hs : seg ++ (sep ++ rest) = s at h' hfirst
    cases h' with
    | last hnone => exact absurd (hs ▸ occursAt_length ..) (hnone seg.length)
    | @cons seg' rest' segs' hfirst' hrest' =>
      have hle : seg'.length ≤ seg.length := by
        by_contra hlt
        exact hfirst' seg.length (by omega) (hs ▸ occursAt_length ..)
      have hge : seg.length ≤ seg'.length := by
        by_contra hlt
        exact hfirst seg'.length (by omega) (occursAt_length ..)
      obtain ⟨rfl, htail⟩ := List.append_inj hs (Nat.le_antisymm hge hle)
      obtain rfl := List.append_cancel_left htail
      rw [ih hrest']

/-! ## 3. How many occurrences there are

An exchange argument, by induction on the segments: the first occurrence that the scan meets ends no
later than the first of any other choice. -/

/-- The occurrences between the segments do not overlap. -/
theorem Segments.exists_apart (h : Segments sep s segs) :
    ∃ ps, Apart sep s ps ∧ ps.length + 1 = segs.length := by
  induction h with
  | last => exact ⟨[], Apart.nil _ _, rfl⟩
  | @cons seg rest segs _ _ ih =>
    obtain ⟨ps, hps, hlen⟩ := ih
    have hbehind : Apart sep (seg ++ (sep ++ rest)) (ps.map ((seg ++ sep).length + ·)) := by
      rw [← List.append_assoc]
      exact hps.append (seg ++ sep)
    refine ⟨seg.length :: ps.map ((seg ++ sep).length + ·), ?_, ?_⟩
    · refine Apart.cons (occursAt_length sep seg rest) hbehind ?_
      intro q hq
      obtain ⟨p, -, rfl⟩ := List.mem_map.mp hq
      rw [List.length_append]
      omega
    · rw [List.length_cons, List.length_map, hlen, List.length_cons]

/-- There are no more occurrences that do not overlap. -/
theorem Segments.apart_le (h : Segments sep s segs) {ps : List Nat} (hps : Apart sep s ps) :
    ps.length + 1 ≤ segs.length := by
  induction h generalizing ps with
  | last hnone =>
    cases ps with
    | nil => exact Nat.le_refl 1
    | cons p ps => exact absurd (hps.1 p List.mem_cons_self) (hnone p)
  | @cons seg rest segs hfirst _ ih =>
    cases ps with
    | nil =>
      rw [List.length_cons, List.length_nil]
      omega
    | cons p ps =>
      have hp : seg.length ≤ p := by
        by_contra hlt
        exact hfirst p (by omega) (hps.1 p List.mem_cons_self)
      -- the others lie behind the first occurrence, since they lie behind `p`
      obtain ⟨hbehind, hpairs⟩ := List.pairwise_cons.mp hps.2
      have htail : Apart sep ((seg ++ sep) ++ rest) ps := by
        rw [List.append_assoc]
        exact ⟨fun q hq => hps.1 q (List.mem_cons_of_mem p hq), hpairs⟩
      have hrest := ih (htail.behind (fun q hq => by
        have := hbehind q hq
        rw [List.length_append]
        omega))
      rw [List.length_map] at hrest
      simpa using hrest

/-- **A scan from the left meets the greatest number of occurrences that do not overlap.** -/
theorem Segments.isGreatest (h : Segments sep s segs) :
    IsGreatest {n | ∃ ps, Apart sep s ps ∧ ps.length = n} (segs.length - 1) := by
  constructor
  · obtain ⟨ps, hps, hlen⟩ := h.exists_apart
    exact ⟨ps, hps, by omega⟩
  · rintro n ⟨ps, hps, rfl⟩
    have := h.apart_le hps
    omega

end Occurrences
