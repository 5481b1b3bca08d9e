/-
# `Split`: the non-empty fields

`Util::Split` (`net/http.hpp`) round by round: its offset, the array it appends to, and its three
ways out.  `split` of `Net.Util` is what it appends (`splitInto_eq_split`); the path check and the
parser of the query string use that.

`splitInto_segments`: for a separator that is not empty the loop ends, and it appends the segments
of the source between the occurrences of the separator, without the empty ones.

The separator is one byte in the callers, but the function takes any string, and so does the
theorem. With an empty separator the loop would not move on, and this is the one case that is left
out.
-/
import OnlineJudge.Lib.Occurrences
import OnlineJudge.Net.Util

namespace OnlineJudge.Net.Util

open ByteString Occurrences

/-! ## 1. The loop

The source has one loop with two tests in it: nothing is found any more, or what is found stands at
the offset.  `SplitRound` has the ways in which a round can end. -/

/-- What a round does: it leaves the loop, or goes on at another offset. -/
inductive SplitRound
  | leaves (arry : List Bytes)
  | goesOn (offset : Nat) (arry : List Bytes)

/-- A round of the loop of `Split`. -/
def splitRound (src sep : Bytes) (offset : Nat) (arry : List Bytes) : SplitRound :=
  if offset < src.length then
    match findFrom sep src offset with
    -- `npos` is the size of no string, so that `if(pos == src.size()) break;` is never taken
    | none => .leaves (arry ++ [src.drop offset])
    | some pos =>
      if pos = offset then .goesOn (pos + sep.length) arry
      else .goesOn (pos + sep.length) (arry ++ [(src.drop offset).take (pos - offset)])
  else .leaves arry

/-- The loop, for at most `n` rounds; `none` if it has not ended by then. -/
def splitRun (src sep : Bytes) : Nat → Nat → List Bytes → Option (List Bytes)
  | 0, _, _ => none
  | n + 1, offset, arry =>
    match splitRound src sep offset arry with
    | .leaves arry => some arry
    | .goesOn offset arry => splitRun src sep n offset arry

/-- `Util::Split`: the array behind the call and the size it returns. -/
def splitInto (n : Nat) (src sep : Bytes) (arry : List Bytes) : Option (List Bytes × Nat) :=
  (splitRun src sep n 0 arry).map fun arry => (arry, arry.length)

/-! ## 2. What a round finds

The source is seen as what lies behind the offset and what lies ahead, and what lies ahead as the
segments of `Lib.Segments`.  A round then takes the first of them. -/

/-- The segments of which `Split` takes note: those that are not empty. -/
def fields (segs : List Bytes) : List Bytes := segs.filter fun seg => !seg.isEmpty

@[simp] theorem fields_nil_cons (segs : List Bytes) : fields ([] :: segs) = fields segs := rfl

theorem fields_cons {seg : Bytes} (hseg : seg ≠ []) (segs : List Bytes) :
    fields (seg :: segs) = seg :: fields segs := by
  refine List.filter_cons_of_pos ?_
  rw [Bool.not_eq_true', List.isEmpty_eq_false_iff]
  exact hseg

/-- Behind the last occurrence nothing is found. -/
theorem find_of_no_occurrence {sep s : Bytes} (hnone : ∀ k, ¬ OccursAt sep s k) :
    find sep s = none := by
  cases hfind : find sep s with
  | none => rfl
  | some k => exact absurd (occursAt_iff.mpr (find_eq_some hfind)) (hnone k)

theorem find_of_first {sep seg rest : Bytes}
    (hfirst : ∀ k < seg.length, ¬ OccursAt sep (seg ++ (sep ++ rest)) k) :
    find sep (seg ++ (sep ++ rest)) = some seg.length := by
  obtain ⟨hle, hpre⟩ := occursAt_iff.mp (occursAt_length sep seg rest)
  refine find_eq_some_iff.mpr ⟨hle, hpre, ?_⟩
  intro k hk hprefix
  exact hfirst k hk (occursAt_iff.mpr ⟨by omega, hprefix⟩)

variable {sep : Bytes}

/-- A round behind `before` when no separator follows. -/
theorem splitRound_last {before s : Bytes} (hnone : ∀ k, ¬ OccursAt sep s k)
    (arry : List Bytes) :
    splitRound (before ++ s) sep before.length arry = .leaves (arry ++ fields [s]) := by
  cases s with
  | nil =>
    rw [splitRound, if_neg (by simp)]
    simp [fields]
  | cons b s =>
    rw [splitRound, if_pos (by simp), findFrom_append, find_of_no_occurrence hnone]
    simp [fields]

/-- A round behind `before` when a segment and a separator follow. -/
theorem splitRound_segment (hsep : sep ≠ []) {before seg rest : Bytes}
    (hfirst : ∀ k < seg.length, ¬ OccursAt sep (seg ++ (sep ++ rest)) k) (arry : List Bytes) :
    splitRound (before ++ (seg ++ (sep ++ rest))) sep before.length arry =
      .goesOn (before ++ seg ++ sep).length (arry ++ fields [seg]) := by
  have hpos : 0 < sep.length := List.length_pos_iff.mpr hsep
  have hlt : before.length < (before ++ (seg ++ (sep ++ rest))).length := by
    simp only [List.length_append]
    omega
  have hoffset : seg.length + before.length + sep.length = (before ++ seg ++ sep).length := by
    simp only [List.length_append]
    omega
  rw [splitRound, if_pos hlt, findFrom_append, find_of_first hfirst]
  simp only [Option.map_some, List.drop_left, Nat.add_sub_cancel, hoffset]
  cases seg with
  | nil => simp [fields]
  | cons b seg =>
    have hne : ¬ (b :: seg).length + before.length = before.length := by
      rw [List.length_cons]
      omega
    have htake : ((b :: seg) ++ (sep ++ rest)).take (b :: seg).length = b :: seg :=
      List.take_left' rfl
    rw [if_neg hne, htake, fields_cons (List.cons_ne_nil b seg)]
    rfl

/-! ## 3. The whole loop

The induction is on the segments.  An empty one is passed over, and a last empty one ends the loop
without being looked at. -/

/-- Each round takes one segment, so that there are no more rounds than bytes ahead, plus one. -/
theorem splitRun_segments (hsep : sep ≠ []) {s : Bytes} {segs : List Bytes}
    (h : Segments sep s segs) (before : Bytes) {n : Nat} (hn : s.length < n)
    (arry : List Bytes) :
    splitRun (before ++ s) sep n before.length arry = some (arry ++ fields segs) := by
  induction h generalizing before n arry with
  | last hnone =>
    cases n with
    | zero => omega
    | succ n => rw [splitRun, splitRound_last hnone]
  | @cons seg rest segs hfirst _ ih =>
    have hpos : 0 < sep.length := List.length_pos_iff.mpr hsep
    cases n with
    | zero => omega
    | succ n =>
      have hlen : rest.length < n := by
        simp only [List.length_append] at hn
        omega
      have hsrc : before ++ (seg ++ (sep ++ rest)) = before ++ seg ++ sep ++ rest := by
        simp only [List.append_assoc]
      have hfields : fields [seg] ++ fields segs = fields (seg :: segs) := by
        rw [fields, fields, fields, ← List.filter_append, List.singleton_append]
      rw [splitRun, splitRound_segment hsep hfirst, hsrc]
      refine (ih (before ++ seg ++ sep) hlen (arry ++ fields [seg])).trans ?_
      rw [List.append_assoc, hfields]

/-- **`Split` yields the non-empty fields.**  For every separator that is not empty the source is
cut into segments between the leftmost occurrences, the loop ends, and what it has appended to the
array are the segments that are not empty. -/
theorem splitInto_segments (src : Bytes) (hsep : sep ≠ []) (arry : List Bytes) :
    (∃ segs, Segments sep src segs) ∧
      ∀ segs, Segments sep src segs → ∀ n, src.length < n →
        splitInto n src sep arry =
          some (arry ++ fields segs, arry.length + (fields segs).length) := by
  refine ⟨exists_segments hsep src, ?_⟩
  intro segs hsegs n hn
  have hrun := splitRun_segments hsep hsegs [] hn arry
  rw [List.nil_append, List.length_nil] at hrun
  rw [splitInto, hrun, Option.map_some, List.length_append]

/-- Three dashes in a row, of which the first two are an occurrence of the separator. -/
theorem splitInto_segments_dashes :
    ∃ segs, Segments (ascii "--") (ascii "a---b--") segs ∧
      fields segs = [ascii "a", ascii "-b"] := by
  obtain ⟨⟨segs, hsegs⟩, hsplit⟩ :=
    @splitInto_segments (ascii "--") (ascii "a---b--") (by decide) [ascii "x"]
  have hrun : splitInto 9 (ascii "a---b--") (ascii "--") [ascii "x"] =
      some ([ascii "x", ascii "a", ascii "-b"], 3) := by decide
  have h := hrun.symm.trans (hsplit segs hsegs 9 (by decide))
  rw [Option.some.injEq, Prod.mk.injEq] at h
  exact ⟨segs, hsegs, (List.cons.inj h.1).2.symm⟩

/-! ## 4. What the callers use

The path check and the query parser start with an empty array, and for these the function without an
array is enough. -/

/-- The part of the loop that `split` keeps. -/
theorem splitLoop_segments (hsep : sep ≠ []) {s : Bytes} {segs : List Bytes}
    (h : Segments sep s segs) {n : Nat} (hn : s.length < n) :
    splitLoop sep n s = fields segs := by
  induction h generalizing n with
  | @last s hnone =>
    cases n with
    | zero => omega
    | succ n =>
      cases s with
      | nil => rfl
      | cons b s =>
        rw [splitLoop, if_neg (by simp), find_of_no_occurrence hnone]
        rfl
  | @cons seg rest segs hfirst _ ih =>
    have hpos : 0 < sep.length := List.length_pos_iff.mpr hsep
    cases n with
    | zero => omega
    | succ n =>
      have hlen : rest.length < n := by
        simp only [List.length_append] at hn
        omega
      have hne : ¬ (seg ++ (sep ++ rest)).isEmpty = true := by
        simp [hsep]
      rw [splitLoop, if_neg hne, find_of_first hfirst]
      cases seg with
      | nil =>
        simp only [List.length_nil, List.nil_append, List.drop_left, ih hlen, fields_nil_cons]
      | cons b seg =>
        have htake : ((b :: seg) ++ (sep ++ rest)).take (seg.length + 1) = b :: seg :=
          List.take_left' rfl
        have hdrop : ((b :: seg) ++ (sep ++ rest)).drop (seg.length + 1 + sep.length) = rest := by
          rw [← List.append_assoc]
          exact List.drop_left' (by simp [Nat.add_right_comm])
        simp only [List.length_cons, htake, hdrop, ih hlen,
          fields_cons (List.cons_ne_nil b seg)]

/-- **`split` is what `Split` puts into an empty array**, so that its callers can be modelled
without one. -/
theorem splitInto_eq_split (src : Bytes) (hsep : sep ≠ []) :
    splitInto (src.length + 1) src sep [] = some (split src sep, (split src sep).length) := by
  obtain ⟨segs, hsegs⟩ := exists_segments hsep src
  have hrun := splitRun_segments hsep hsegs [] (Nat.lt_succ_self src.length) []
  rw [List.nil_append, List.nil_append, List.length_nil] at hrun
  rw [splitInto, hrun, split, splitLoop_segments hsep hsegs (Nat.lt_succ_self src.length)]
  rfl

end OnlineJudge.Net.Util
