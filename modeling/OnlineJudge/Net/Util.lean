/-
# `Util`: splitting, URL decoding, valid paths

The helpers of `class Util` (`net/http.hpp`) that the parser and the static-file handler call. They
are kept exactly as they are, the mistakes with them: `hexToI` takes more letters for digits than
there are, and `levelsOk` counts `.` as a step down.  What follows from either is said in the
modules about URLs and about static files.

`Split` drops empty pieces, so splitting at one byte is `List.splitOn` without the empty ones
(`split_singleton`).  With longer separators the pieces are told apart in `Net.Split`.
-/
import OnlineJudge.Lib.ByteString

namespace OnlineJudge.Net.Util

open ByteString

/-! ## 1. `Split`

The source keeps an offset into the text and looks for the separator behind it.  Here the offset is
the part of the text that is still to be split, which gets shorter with every round. -/

/-- The loop of `Split` on the part of the source behind `offset`.  Each round consumes at least
one byte, since separators are not empty. -/
def splitLoop (sep : Bytes) : Nat → Bytes → List Bytes
  | 0, _ => []
  | n + 1, src =>
    if src.isEmpty then []
    else
      match find sep src with
      | none => [src]
      | some 0 => splitLoop sep n (src.drop sep.length)
      | some (pos + 1) => src.take (pos + 1) :: splitLoop sep n (src.drop (pos + 1 + sep.length))

/-- `Util::Split`: the non-empty pieces of `src` between the occurrences of `sep`. -/
def split (src sep : Bytes) : List Bytes := splitLoop sep (src.length + 1) src

theorem splitLoop_singleton (c : UInt8) (n : Nat) (src : Bytes) (h : src.length < n) :
    splitLoop [c] n src = (src.splitOn c).filter fun piece => !piece.isEmpty := by
  induction n generalizing src with
  | zero => omega
  | succ n ih =>
    rcases not_mem_or_first c src with hnone | ⟨pre, post, rfl, hpre⟩
    · rw [List.splitOn_eq_singleton hnone]
      by_cases hempty : src.isEmpty = true
      · simp [splitLoop, hempty]
      · simp [splitLoop, hempty, find_singleton_of_not_mem hnone]
    · have hlen : post.length < n := by
        rw [List.length_append, List.length_cons] at h
        omega
      have hdrop : (pre ++ c :: post).drop (pre.length + [c].length) = post := by
        simp
      have hsplit : (pre ++ c :: post).splitOn c = pre :: post.splitOn c := by
        rw [List.splitOn_append_cons_self, List.splitOn_eq_singleton hpre, List.singleton_append]
      have hne : (pre ++ c :: post).isEmpty = false := by cases pre <;> rfl
      rw [hsplit, splitLoop, if_neg (by rw [hne]; decide), find_singleton_append hpre]
      cases pre with
      | nil => exact ih post hlen
      | cons b pre =>
        rw [List.filter_cons_of_pos (by rfl), ← ih post hlen]
        refine congrArg₂ List.cons ?_ (congrArg (splitLoop [c] n) hdrop)
        exact List.take_left' rfl

/-- **`Split` at a single byte** gives the pieces between these bytes, without the empty ones. -/
theorem split_singleton (src : Bytes) (c : UInt8) :
    split src [c] = (src.splitOn c).filter fun piece => !piece.isEmpty :=
  splitLoop_singleton c _ src (Nat.lt_succ_self _)

/-! ## 2. URL decoding -/

/-- `HEXTOI`.  Letters behind `f` count as digits too; anything else is `char(-1)`. -/
def hexToI (c : UInt8) : UInt8 :=
  if 48 ≤ c && c ≤ 57 then c - 48
  else if 97 ≤ c && c ≤ 122 then c - 97 + 10
  else if 65 ≤ c && c ≤ 90 then c - 65 + 10
  else 255

/-- `UrlDecode`.  A `%` without two bytes behind it stands for itself. -/
def urlDecode (convertPlusToSpace : Bool) : Bytes → Bytes
  | c :: a :: b :: rest =>
    if c = 43 ∧ convertPlusToSpace = true then
      32 :: urlDecode convertPlusToSpace (a :: b :: rest)
    else if c = 37 then (hexToI a * 16 + hexToI b) :: urlDecode convertPlusToSpace rest
    else c :: urlDecode convertPlusToSpace (a :: b :: rest)
  | c :: rest =>
    (if c = 43 ∧ convertPlusToSpace = true then 32 else c) :: urlDecode convertPlusToSpace rest
  | [] => []

/-! ## 3. `ValidPath`

The source splits the path at its slashes and counts how deep each piece leads.  A path that is
above the root at some moment is refused, even if it comes back. -/

/-- The loop of `ValidPath`: the level after each directory of the path. -/
def levelsOk : Int → List Bytes → Bool
  | _, [] => true
  | level, dir :: dirs =>
    if dir = ascii ".." then
      if level - 1 < 0 then false else levelsOk (level - 1) dirs
    else levelsOk (level + 1) dirs

/-- `Util::ValidPath`: no piece of the path leads above the level at which the path starts, as far
as the counting goes. -/
def validPath (path : Bytes) : Bool := levelsOk 0 (split path (ascii "/"))

end OnlineJudge.Net.Util
