/-
# The request line

`ParseHttpLine` (`net/http.hpp`) matches the first line of a request, case-insensitively, against
the regular expression

`(GET|HEAD|POST|PUT|DELETE) ([^?]*)(?:\?(.*))? (HTTP/1\.[01])(?:\n|\r\n)?`

`RequestLine.Matches` is the language of this expression with its four captures.  A line of the
language has one reading only: no method contains a blank, the version has a fixed length, and the
first `?` separates path and query.  `matchRequestLine` finds that reading, and
`matchRequestLine_eq_some_iff` says that it finds it exactly where there is one.

That the reading is unique is what makes the matcher a faithful model: a backtracking engine tries
the readings in some order and returns the first, and with one reading there is no order to speak
of.
-/
import Mathlib.Data.List.Infix
import OnlineJudge.Lib.ByteString

namespace OnlineJudge.Net

open ByteString

/-! ## 1. The expression

The language on one side and a function that reads a line from both ends on the other.  The function
is the one that the parser of the model calls. -/

/-- The four captures. -/
structure RequestLine where
  method : Bytes
  path : Bytes
  query : Bytes
  version : Bytes
deriving DecidableEq, Repr

/-- `(GET|HEAD|POST|PUT|DELETE)`, without regard to case. -/
def isMethod (m : Bytes) : Bool :=
  [ascii "GET", ascii "HEAD", ascii "POST", ascii "PUT", ascii "DELETE"].contains (m.map toUpper)

/-- `(HTTP/1\.[01])`, without regard to case. -/
def isVersion (v : Bytes) : Bool :=
  [ascii "HTTP/1.0", ascii "HTTP/1.1"].contains (v.map toUpper)

/-- The captures `r` are a reading of the line: `mark` is the group of the question mark, if it
takes part, and `ending` is the line ending, if there is one.  A `.` of the expression is any
byte but a line terminator. -/
def RequestLine.Matches (r : RequestLine) (line : Bytes) : Prop :=
  ∃ mark ending : Bytes,
    line = r.method ++ 32 :: (r.path ++ mark ++ 32 :: r.version) ++ ending ∧
    isMethod r.method = true ∧ 63 ∉ r.path ∧ isVersion r.version = true ∧
    (mark = [] ∧ r.query = [] ∨ mark = 63 :: r.query ∧ 13 ∉ r.query ∧ 10 ∉ r.query) ∧
    (ending = [] ∨ ending = [10] ∨ ending = [13, 10])

/-- The line without its ending: `\r\n`, or `\n` alone. -/
def stripNewline (line : Bytes) : Bytes :=
  if line.getLast? = some 10 then popBack 13 line.dropLast else line

/-- `std::regex_match` with this expression. -/
def matchRequestLine (line : Bytes) : Option RequestLine :=
  let text := stripNewline line
  match text.dropWhile (· != 32) with
  | [] => none
  | _ :: rest =>
    let method := text.takeWhile (· != 32)
    let target := rest.take (rest.length - 9)
    let version := rest.drop (rest.length - 8)
    let query := target.dropWhile (· != 63)
    if isMethod method && rest.drop (rest.length - 9) == 32 :: version && isVersion version &&
        !query.contains 13 && !query.contains 10 then
      some ⟨method, target.takeWhile (· != 63), query.tail, version⟩
    else none

/-! ## 2. The reading is unique

The method is cut off at the first blank, the ending at the end and the version before it.  What
lies between is cut at the first question mark.  Each cut is where the expression has to have it. -/

theorem not_mem_of_isMethod {m : Bytes} (h : isMethod m = true) : 32 ∉ m := by
  have hall : ∀ name ∈ [ascii "GET", ascii "HEAD", ascii "POST", ascii "PUT", ascii "DELETE"],
      (32 : UInt8) ∉ name := by decide
  intro hmem
  refine hall _ (List.contains_iff_mem.mp h) ?_
  exact List.mem_map.mpr ⟨32, hmem, rfl⟩

theorem length_of_isVersion {v : Bytes} (h : isVersion v = true) : v.length = 8 := by
  have hall : ∀ name ∈ [ascii "HTTP/1.0", ascii "HTTP/1.1"], name.length = 8 := by decide
  simpa using hall _ (List.contains_iff_mem.mp h)

/-- A version does not end like a line. -/
theorem not_mem_of_isVersion {v : Bytes} (h : isVersion v = true) : 10 ∉ v ∧ 13 ∉ v := by
  have hall : ∀ name ∈ [ascii "HTTP/1.0", ascii "HTTP/1.1"],
      (10 : UInt8) ∉ name ∧ (13 : UInt8) ∉ name := by decide
  obtain ⟨h10, h13⟩ := hall _ (List.contains_iff_mem.mp h)
  exact ⟨fun hmem => h10 (List.mem_map.mpr ⟨10, hmem, rfl⟩),
    fun hmem => h13 (List.mem_map.mpr ⟨13, hmem, rfl⟩)⟩

/-- What `stripNewline` takes off is a line ending. -/
theorem stripNewline_append (line : Bytes) :
    ∃ ending, line = stripNewline line ++ ending ∧
      (ending = [] ∨ ending = [10] ∨ ending = [13, 10]) := by
  unfold stripNewline popBack
  split
  · rename_i h10
    obtain ⟨front, rfl⟩ := List.getLast?_eq_some_iff.mp h10
    rw [List.dropLast_concat]
    split
    · rename_i h13
      obtain ⟨front', rfl⟩ := List.getLast?_eq_some_iff.mp h13
      exact ⟨[13, 10], by simp, by simp⟩
    · exact ⟨[10], rfl, by simp⟩
  · exact ⟨[], by simp, by simp⟩

/-- A text that does not end like a line is what is left of it behind any line ending. -/
theorem stripNewline_of_ending {text ending : Bytes} (h10 : text.getLast? ≠ some 10)
    (h13 : text.getLast? ≠ some 13)
    (hend : ending = [] ∨ ending = [10] ∨ ending = [13, 10]) :
    stripNewline (text ++ ending) = text := by
  unfold stripNewline
  rcases hend with rfl | rfl | rfl
  · rw [List.append_nil, if_neg h10]
  · rw [if_pos (by simp), List.dropLast_concat, popBack, if_neg h13]
  · have hsplit : text ++ [13, 10] = (text ++ [13]) ++ [10] := by simp
    rw [hsplit, if_pos (by simp), List.dropLast_concat, popBack, if_pos (by simp),
      List.dropLast_concat]

/-- `takeWhile` and `dropWhile` at the first `c`. -/
theorem takeWhile_ne_append {c : UInt8} {pre : Bytes} (h : c ∉ pre) (post : Bytes) :
    (pre ++ c :: post).takeWhile (· != c) = pre ∧
      (pre ++ c :: post).dropWhile (· != c) = c :: post := by
  have hpre : ∀ b ∈ pre, (b != c) = true := fun b hb =>
    bne_iff_ne.mpr fun hbc => h (hbc ▸ hb)
  constructor
  · rw [List.takeWhile_append_of_pos hpre, List.takeWhile_cons_of_neg (by simp), List.append_nil]
  · rw [List.dropWhile_append_of_pos hpre, List.dropWhile_cons_of_neg (by simp)]

theorem takeWhile_ne_of_not_mem {c : UInt8} {s : Bytes} (h : c ∉ s) :
    s.takeWhile (· != c) = s ∧ s.dropWhile (· != c) = [] := by
  have hs : ∀ b ∈ s, (b != c) = true := fun b hb => bne_iff_ne.mpr fun hbc => h (hbc ▸ hb)
  exact ⟨List.takeWhile_eq_self_iff.mpr hs, List.dropWhile_eq_nil_iff.mpr hs⟩

/-- The reading of a line of the language is what the matcher returns. -/
theorem matchRequestLine_of_matches {r : RequestLine} {line : Bytes} (h : r.Matches line) :
    matchRequestLine line = some r := by
  obtain ⟨mark, ending, rfl, hmethod, hpath, hversion, hmark, hend⟩ := h
  have hlen : r.version.length = 8 := length_of_isVersion hversion
  obtain ⟨h10, h13⟩ := not_mem_of_isVersion hversion
  have hlast : ∀ b, b ∉ r.version →
      (r.method ++ 32 :: (r.path ++ mark ++ 32 :: r.version)).getLast? ≠ some b := by
    intro b hb hsome
    have hne : r.version ≠ [] := List.ne_nil_of_length_eq_add_one hlen
    have hget : (r.method ++ 32 :: (r.path ++ mark ++ 32 :: r.version)).getLast? =
        r.version.getLast? := by
      have hsplit : r.method ++ 32 :: (r.path ++ mark ++ 32 :: r.version) =
          (r.method ++ 32 :: (r.path ++ mark ++ [32])) ++ r.version := by simp
      rw [hsplit, List.getLast?_append_of_ne_nil _ hne]
    rw [hget] at hsome
    exact hb (List.mem_of_getLast? hsome)
  have hstrip := stripNewline_of_ending (hlast 10 h10) (hlast 13 h13) hend
  obtain ⟨htake, hdrop⟩ := takeWhile_ne_append (not_mem_of_isMethod hmethod)
    (r.path ++ mark ++ 32 :: r.version)
  have hrest : (r.path ++ mark ++ 32 :: r.version).length = (r.path ++ mark).length + 9 := by
    rw [List.length_append, List.length_cons, hlen]
  have htarget : (r.path ++ mark ++ 32 :: r.version).take
      ((r.path ++ mark ++ 32 :: r.version).length - 9) = r.path ++ mark :=
    List.take_left' (by omega)
  have htail : (r.path ++ mark ++ 32 :: r.version).drop
      ((r.path ++ mark ++ 32 :: r.version).length - 9) = 32 :: r.version :=
    List.drop_left' (by omega)
  have hver : (r.path ++ mark ++ 32 :: r.version).drop
      ((r.path ++ mark ++ 32 :: r.version).length - 8) = r.version := by
    have hsplit : r.path ++ mark ++ 32 :: r.version = (r.path ++ mark ++ [32]) ++ r.version := by
      simp
    rw [hsplit]
    exact List.drop_left' (by simp [hlen]; omega)
  have hquery : (r.path ++ mark).takeWhile (· != 63) = r.path ∧
      (r.path ++ mark).dropWhile (· != 63) = mark := by
    rcases hmark with ⟨rfl, -⟩ | ⟨rfl, -, -⟩
    · rw [List.append_nil]
      exact takeWhile_ne_of_not_mem hpath
    · exact takeWhile_ne_append hpath r.query
  have hclean : mark.contains 13 = false ∧ mark.contains 10 = false ∧ mark.tail = r.query := by
    rcases hmark with ⟨rfl, hq⟩ | ⟨rfl, hq13, hq10⟩
    · exact ⟨rfl, rfl, hq.symm⟩
    · simpa using ⟨hq13, hq10⟩
  simp only [matchRequestLine, hstrip, hdrop, htake, htarget, htail, hver, hquery.1, hquery.2,
    hmethod, hversion, hclean.1, hclean.2.1, hclean.2.2, beq_self_eq_true, Bool.not_false,
    Bool.and_self, if_true]

/-- What the matcher returns is a reading of the line. -/
theorem matches_of_matchRequestLine {r : RequestLine} {line : Bytes}
    (h : matchRequestLine line = some r) : r.Matches line := by
  obtain ⟨ending, hline, hend⟩ := stripNewline_append line
  simp only [matchRequestLine] at h
  generalize stripNewline line = text at h hline
  rcases not_mem_or_first 32 text with hnone | ⟨method, rest, rfl, hspace⟩
  · rw [(takeWhile_ne_of_not_mem hnone).2] at h
    cases h
  · obtain ⟨htake, hdrop⟩ := takeWhile_ne_append hspace rest
    rw [hdrop, htake] at h
    simp only at h
    split at h
    · rename_i hcond
      simp only [Bool.and_eq_true, beq_iff_eq, Bool.not_eq_true', List.contains_eq_mem,
        decide_eq_false_iff_not] at hcond
      obtain ⟨⟨⟨⟨hmethod, htail⟩, hversion⟩, h13⟩, h10⟩ := hcond
      obtain rfl := Option.some.inj h
      -- the rest is the target, a blank and the version
      have hrest : rest = rest.take (rest.length - 9) ++ 32 :: rest.drop (rest.length - 8) := by
        rw [← htail, List.take_append_drop]
      generalize rest.take (rest.length - 9) = target at hrest h13 h10 ⊢
      generalize rest.drop (rest.length - 8) = version at hrest hversion ⊢
      rcases not_mem_or_first 63 target with hmark | ⟨path, query, rfl, hmark⟩
      · obtain ⟨hp, hq⟩ := takeWhile_ne_of_not_mem hmark
        refine ⟨[], ending, ?_, hmethod, ?_, hversion, Or.inl ⟨rfl, ?_⟩, hend⟩
        · simp only [hp, List.append_nil]
          rw [hline, hrest]
        · simpa only [hp] using hmark
        · simp only [hq, List.tail_nil]
      · obtain ⟨hp, hq⟩ := takeWhile_ne_append hmark query
        simp only [hq, List.mem_cons, not_or] at h13 h10
        refine ⟨63 :: query, ending, ?_, hmethod, ?_, hversion, Or.inr ⟨?_, ?_, ?_⟩, hend⟩
        · simp only [hp]
          rw [hline, hrest]
        · simpa only [hp] using hmark
        · simp only [hq, List.tail_cons]
        · simpa only [hq, List.tail_cons] using h13.2
        · simpa only [hq, List.tail_cons] using h10.2
    · cases h

/-- **The matcher decides the expression**: it returns the captures of the line's only reading,
and nothing where the line has none. -/
theorem matchRequestLine_eq_some_iff {line : Bytes} {r : RequestLine} :
    matchRequestLine line = some r ↔ r.Matches line :=
  ⟨matches_of_matchRequestLine, matchRequestLine_of_matches⟩

example : matchRequestLine (ascii "get /a?x=1 HTTP/1.1\r\n") =
    some ⟨ascii "get", ascii "/a", ascii "x=1", ascii "HTTP/1.1"⟩ := by decide

end OnlineJudge.Net
