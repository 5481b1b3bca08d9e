/-
# The path of a request line

`IsFileHandler` and `FileHandler` (`net/http.hpp`) look at `_path.back()`, which has no meaning for
an empty string.  Nothing in `ParseHttpLine` sees to it that there is a path: `[^?]*` takes the
empty string and a path without a slash, and `ValidPath` finds nothing wrong with either.

`path_slash_iff`: which accepted lines give a path that begins with a slash, and for which of them
`back()` is not called on an empty path.

The statement has two halves, and each is an equivalence.  The second does not say that the program
is stopped: what `back()` does on an empty string is left open by the language, and the theorem says
when it is called on one.
-/
import OnlineJudge.Net.Stages
import OnlineJudge.Net.StaticFile

namespace OnlineJudge.Net

open ByteString

/-! ## 1. What is decoded

`UrlDecode` never makes something out of nothing, and it makes nothing of nothing only.  So an empty
path was empty in the line, and a slash in front was a slash or an escape. -/

/-- The first byte of the path as it is decoded is a slash: it stands there, or as an escape that
decodes to one. -/
def SlashFirst (path : Bytes) : Prop :=
  path.head? = some 47 ∨
    ∃ a b rest, path = 37 :: a :: b :: rest ∧ Util.hexToI a * 16 + Util.hexToI b = 47

theorem urlDecode_eq_nil_iff {path : Bytes} : Util.urlDecode false path = [] ↔ path = [] := by
  match path with
  | [] => exact iff_of_true rfl rfl
  | [c] => simp [Util.urlDecode]
  | [c, a] => simp [Util.urlDecode]
  | c :: a :: b :: rest =>
    refine iff_of_false ?_ (List.cons_ne_nil c _)
    rw [Util.urlDecode, if_neg (fun h => Bool.false_ne_true h.2)]
    split <;> exact List.cons_ne_nil _ _

/-- Fewer than three bytes hold no escape. -/
theorem slashFirst_short {c : UInt8} {rest : Bytes} (h : rest.length < 2) :
    c = 47 ↔ SlashFirst (c :: rest) := by
  constructor
  · rintro rfl
    exact Or.inl rfl
  · rintro (hhead | ⟨a, b, rest', hrest, -⟩)
    · exact Option.some.inj hhead
    · obtain ⟨-, rfl⟩ := List.cons.inj hrest
      simp only [List.length_cons] at h
      omega

theorem head?_urlDecode_iff {path : Bytes} :
    (Util.urlDecode false path).head? = some 47 ↔ SlashFirst path := by
  match path with
  | [] =>
    refine iff_of_false (by simp [Util.urlDecode]) ?_
    rintro (h | ⟨a, b, rest, h, -⟩) <;> cases h
  | [c] =>
    rw [← slashFirst_short (by simp)]
    simp [Util.urlDecode]
  | [c, a] =>
    rw [← slashFirst_short (by simp)]
    simp [Util.urlDecode]
  | c :: a :: b :: rest =>
    rw [Util.urlDecode, if_neg (fun h => Bool.false_ne_true h.2)]
    by_cases hescape : c = 37
    · subst hescape
      rw [if_pos rfl, List.head?_cons, Option.some.injEq]
      constructor
      · intro h
        exact Or.inr ⟨a, b, rest, rfl, h⟩
      · rintro (h | ⟨a', b', rest', hpath, h⟩)
        · cases h
        · cases hpath
          exact h
    · rw [if_neg hescape, List.head?_cons, Option.some.injEq]
      constructor
      · rintro rfl
        exact Or.inl rfl
      · rintro (h | ⟨a', b', rest', hpath, -⟩)
        · exact Option.some.inj h
        · exact absurd (List.cons.inj hpath).1 hescape

/-! ## 2. Which lines are accepted

The captures of `Net.RequestLine` are looked at together with the query string, since a field of it
may still refuse the line. -/

namespace HttpContext

/-- The request of an accepted line has the method and the decoded path of its reading. -/
theorem reading_of_parseHttpLine {ctx ctx' : HttpContext} {line : Bytes}
    (h : parseHttpLine ctx line = .ok (ctx', true)) :
    ∃ r : RequestLine, r.Matches line ∧ QueryOk r.query ∧
      ctx'.request.method = r.method.map toUpper ∧
        ctx'.request.path = Util.urlDecode false r.path := by
  unfold parseHttpLine at h
  cases hmatch : matchRequestLine line with
  | none => simp [hmatch] at h
  | some r =>
    simp only [hmatch] at h
    rcases parseQuery_cases _ (Util.split r.query (ascii "&")) with
      ⟨params, heq, hall⟩ | ⟨ctx'', heq, -⟩
    · rw [heq, Except.ok.injEq, Prod.mk.injEq] at h
      obtain ⟨rfl, -⟩ := h
      exact ⟨r, matches_of_matchRequestLine hmatch, hall, rfl, rfl⟩
    · simp [heq] at h

/-- A line with a reading and a query string of fields is accepted. -/
theorem parseHttpLine_of_matches (ctx : HttpContext) {line : Bytes} {r : RequestLine}
    (hr : r.Matches line) (hquery : QueryOk r.query) :
    ∃ ctx', parseHttpLine ctx line = .ok (ctx', true) ∧
      ctx'.request.method = r.method.map toUpper ∧
        ctx'.request.path = Util.urlDecode false r.path := by
  rcases parseHttpLine_cases ctx line with ⟨-, request, heq, -⟩ | ⟨hnot, -⟩
  · obtain ⟨r', hr', -, hreading⟩ := reading_of_parseHttpLine heq
    have hmatch := matchRequestLine_of_matches hr
    have hsame : r' = r := Option.some.inj ((matchRequestLine_of_matches hr').symm.trans hmatch)
    rw [hsame] at hreading
    exact ⟨_, heq, hreading⟩
  · exact absurd ⟨r, hr, hquery⟩ hnot

end HttpContext

/-! ## 3. The property

`LooksAtBack` is the condition under which the line of the source is reached.  The method and an
empty path are enough for that: the tests before it all pass. -/

/-- `IsFileHandler` gets as far as `_path.back()`.  `FileHandler` is called for no other request. -/
def LooksAtBack (basedir : Bytes) (req : HttpRequest) : Prop :=
  basedir ≠ [] ∧ (req.method = ascii "GET" ∨ req.method = ascii "HEAD") ∧
    Util.validPath req.path = true

theorem isFileHandler_iff (isRegular : Bytes → Bool) (basedir : Bytes) (req : HttpRequest) :
    isFileHandler isRegular basedir req = true ↔
      LooksAtBack basedir req ∧ isRegular (reqPath basedir req.path) = true := by
  unfold isFileHandler LooksAtBack
  by_cases hbase : basedir = []
  · simp [hbase]
  · by_cases hmethod : req.method = ascii "GET" ∨ req.method = ascii "HEAD"
    · have hnot : ¬ (req.method ≠ ascii "GET" ∧ req.method ≠ ascii "HEAD") := by
        rwa [← not_or, not_not]
      cases hvalid : Util.validPath req.path <;> simp [hbase, hmethod, hnot]
    · simp [hbase, not_or.mp hmethod]

/-- **When an accepted line gives a path with a slash in front**, and when `back()` is not called
on an empty path: the path between the method and the version has a slash in front, as such or as
an escape; and it is not empty if the method is `GET` or `HEAD`. -/
theorem path_slash_iff (ctx : HttpContext) (line : Bytes) :
    ((∀ ctx', HttpContext.parseHttpLine ctx line = .ok (ctx', true) →
        ctx'.request.path ≠ [] ∧ ctx'.request.path.head? = some 47) ↔
      ∀ r : RequestLine, r.Matches line → HttpContext.QueryOk r.query → SlashFirst r.path) ∧
    ((∀ ctx', HttpContext.parseHttpLine ctx line = .ok (ctx', true) →
        ∀ basedir, LooksAtBack basedir ctx'.request → ctx'.request.path ≠ []) ↔
      ∀ r : RequestLine, r.Matches line → HttpContext.QueryOk r.query →
        (r.method.map toUpper = ascii "GET" ∨ r.method.map toUpper = ascii "HEAD") →
          r.path ≠ []) := by
  constructor
  · constructor
    · intro h r hr hquery
      obtain ⟨ctx', hctx', -, hpath⟩ := HttpContext.parseHttpLine_of_matches ctx hr hquery
      rw [← head?_urlDecode_iff, ← hpath]
      exact (h ctx' hctx').2
    · intro h ctx' hctx'
      obtain ⟨r, hr, hquery, -, hpath⟩ := HttpContext.reading_of_parseHttpLine hctx'
      have hhead := head?_urlDecode_iff.mpr (h r hr hquery)
      rw [← hpath] at hhead
      refine ⟨?_, hhead⟩
      intro hnil
      rw [hnil] at hhead
      cases hhead
  · constructor
    · intro h r hr hquery hget hnil
      obtain ⟨ctx', hctx', hmethod, hpath⟩ := HttpContext.parseHttpLine_of_matches ctx hr hquery
      rw [hnil] at hpath
      -- `ValidPath` has nothing against an empty path
      have hvalid : Util.validPath ctx'.request.path = true := by
        rw [hpath]
        rfl
      refine h ctx' hctx' (ascii ".") ⟨by decide, ?_, hvalid⟩ hpath
      rwa [hmethod]
    · intro h ctx' hctx' basedir hlooks hnil
      obtain ⟨r, hr, hquery, hmethod, hpath⟩ := HttpContext.reading_of_parseHttpLine hctx'
      have hget := hlooks.2.1
      rw [hmethod] at hget
      rw [hpath] at hnil
      exact h r hr hquery hget (urlDecode_eq_nil_iff.mp hnil)

/-- The request of a line with two blanks between the method and the version: the path is what
stands between them, which is nothing. -/
theorem parseHttpLine_twoBlanks :
    HttpContext.parseHttpLine .reSet (ascii "GET  HTTP/1.1\r\n") =
      .ok ({ HttpContext.reSet with
        request := { HttpContext.reSet.request with
          method := ascii "GET"
          path := []
          version := ascii "HTTP/1.1" } }, true) := by
  decide +kernel

/-- Its path is empty, and `IsFileHandler` gets as far as `_path.back()`. -/
theorem empty_path :
    ¬ ∀ (line : Bytes) (ctx : HttpContext),
      HttpContext.parseHttpLine .reSet line = .ok (ctx, true) →
        (ctx.request.path ≠ [] ∧ ctx.request.path.head? = some 47) ∧
          ∀ basedir, LooksAtBack basedir ctx.request → ctx.request.path ≠ [] := by
  intro h
  exact (h _ _ parseHttpLine_twoBlanks).2 (ascii ".") ⟨by decide, by decide, by decide⟩ rfl

end OnlineJudge.Net
