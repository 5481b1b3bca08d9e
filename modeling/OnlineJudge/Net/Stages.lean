/-
# What the stages of the parser do

One equation for each thing a stage of `HttpContext` can meet: a buffer without a complete line, a
line that is too long, a line that does not parse, one that does, the empty line behind the headers;
a body that is there or not yet.  The parser's code is not unfolded behind this module.

The equations for a complete line hold whatever comes behind it in the buffer, with one and the same
result; that is what makes the stages resumable.

The names of the equations end in what the stage meets: `_incomplete`, `_long`, `_short`, `_line`,
`_raises`.  Between them the cases are complete, so that a proof about a stage splits on them and
rewrites.
-/
import OnlineJudge.Net.HttpContext

namespace OnlineJudge.Net

open ByteString

namespace HttpContext

/-! ## 1. Lines of the buffer

A line ends with a line feed, and the carriage return before it is part of the line.  A client that
writes CR LF and a parser that looks for LF still agree on where a line ends. -/

theorem getLineAndPop_of_not_mem {buf : Bytes} (h : 10 ∉ buf) : getLineAndPop buf = ([], buf) := by
  rw [getLineAndPop, find_singleton_of_not_mem h]

theorem getLineAndPop_append {text : Bytes} (h : 10 ∉ text) (rest : Bytes) :
    getLineAndPop (text ++ 10 :: rest) = (text ++ [10], rest) := by
  have hsplit : text ++ 10 :: rest = (text ++ [10]) ++ rest := by simp
  rw [getLineAndPop, find_singleton_append h]
  exact Prod.ext ((congrArg (List.take _) hsplit).trans (List.take_left' (by simp)))
    ((congrArg (List.drop _) hsplit).trans (List.drop_left' (by simp)))

theorem exists_cons_of_concat (text : Bytes) : ∃ b line, text ++ [10] = b :: line := by
  cases text with
  | nil => exact ⟨10, [], rfl⟩
  | cons b text => exact ⟨b, text ++ [10], rfl⟩

/-- The CR of a line end belongs to the line for a reader that looks for LF. -/
theorem crlf_split (text rest : Bytes) :
    text ++ 13 :: 10 :: rest = (text ++ [13]) ++ 10 :: rest := by simp

theorem crlf_join (text : Bytes) : (text ++ [13]) ++ [10] = text ++ [13, 10] := by simp

/-! ## 2. The request line

`ParseHttpLine` is two steps: the expression, and the fields of the query string.  `LineOk` says of
a line that both succeed. -/

/-- The parameters of a query string so far, with another one. -/
def addParam (ctx : HttpContext) (key val : Bytes) : HttpContext :=
  { ctx with request := { ctx.request with params := ctx.request.params.insert key val } }

/-- The key and the value of a field of the query string; `none` where there is no `=`. -/
def queryField (str : Bytes) : Option (Bytes × Bytes) :=
  (find (ascii "=") str).map fun pos =>
    (Util.urlDecode true (str.take pos), Util.urlDecode true (str.drop (pos + 1)))

/-- Every field of the query string has a key and a value. -/
def QueryOk (query : Bytes) : Prop :=
  ∀ str ∈ Util.split query (ascii "&"), (queryField str).isSome = true

theorem parseQuery_cons (ctx : HttpContext) (str : Bytes) (strs : List Bytes) :
    parseQuery ctx (str :: strs) =
      match queryField str with
      | none => .ok (ctx.refuse 400, false)
      | some (key, val) => parseQuery (ctx.addParam key val) strs := by
  rw [parseQuery, cutAt_eq, queryField]
  cases find (ascii "=") str <;> rfl

/-- The loop over the fields changes the parameters, and the state only to refuse. -/
theorem parseQuery_cases (ctx : HttpContext) (strs : List Bytes) :
    (∃ params, parseQuery ctx strs =
        .ok ({ ctx with request := { ctx.request with params := params } }, true) ∧
      ∀ str ∈ strs, (queryField str).isSome = true) ∨
    (∃ ctx' : HttpContext, parseQuery ctx strs = .ok (ctx'.refuse 400, false) ∧
      ¬ ∀ str ∈ strs, (queryField str).isSome = true) := by
  induction strs generalizing ctx with
  | nil => exact Or.inl ⟨ctx.request.params, rfl, by simp⟩
  | cons str strs ih =>
    rw [parseQuery_cons]
    cases hfield : queryField str with
    | none =>
      refine Or.inr ⟨ctx, rfl, fun hall => ?_⟩
      have := hall str List.mem_cons_self
      rw [hfield] at this
      cases this
    | some kv =>
      have hstr : (queryField str).isSome = true := by rw [hfield]; rfl
      rcases ih (ctx.addParam kv.1 kv.2) with ⟨params, heq, hall⟩ | ⟨ctx', heq, hnot⟩
      · exact Or.inl ⟨params, heq, List.forall_mem_cons.mpr ⟨hstr, hall⟩⟩
      · exact Or.inr ⟨ctx', heq, fun hall => hnot (List.forall_mem_cons.mp hall).2⟩

/-- The fields of a query string go into the parameters one by one. -/
theorem parseQuery_of_fields {strs : List Bytes} {fields : List (Bytes × Bytes)}
    (h : strs.map queryField = fields.map some) (ctx : HttpContext) :
    parseQuery ctx strs = .ok (fields.foldl (fun ctx kv => ctx.addParam kv.1 kv.2) ctx, true) := by
  induction strs generalizing fields ctx with
  | nil =>
    obtain rfl : fields = [] := by simpa using h
    rfl
  | cons str strs ih =>
    cases fields with
    | nil => cases h
    | cons kv fields =>
      rw [List.map_cons, List.map_cons, List.cons.injEq] at h
      rw [parseQuery_cons, h.1]
      exact ih h.2 _

/-- A complete request line is well formed: it is in the language of the regular expression,
and its query string consists of fields. -/
def LineOk (line : Bytes) : Prop := ∃ r : RequestLine, r.Matches line ∧ QueryOk r.query

/-- **`ParseHttpLine` refuses exactly the malformed request lines**, and does not raise. -/
theorem parseHttpLine_cases (ctx : HttpContext) (line : Bytes) :
    (LineOk line ∧ ∃ request, parseHttpLine ctx line = .ok ({ ctx with request := request }, true) ∧
      request.headers = ctx.request.headers) ∨
    (¬ LineOk line ∧ ∃ ctx' : HttpContext,
      parseHttpLine ctx line = .ok (ctx'.refuse 400, false)) := by
  unfold parseHttpLine
  cases hmatch : matchRequestLine line with
  | none =>
    refine Or.inr ⟨?_, ctx, rfl⟩
    rintro ⟨r, hr, -⟩
    rw [matchRequestLine_of_matches hr] at hmatch
    cases hmatch
  | some r =>
    have hr : r.Matches line := matches_of_matchRequestLine hmatch
    simp only
    rcases parseQuery_cases _ (Util.split r.query (ascii "&")) with
      ⟨params, heq, hall⟩ | ⟨ctx', heq, hnot⟩
    · exact Or.inl ⟨⟨r, hr, hall⟩, _, heq, rfl⟩
    · refine Or.inr ⟨?_, ctx', heq⟩
      rintro ⟨r', hr', hall⟩
      obtain rfl := Option.some.inj (hmatch.symm.trans (matchRequestLine_of_matches hr'))
      exact hnot hall

theorem recvHttpLine_incomplete {ctx : HttpContext} (hstatu : ctx.recvStatu = .line) {buf : Bytes}
    (h : 10 ∉ buf) :
    recvHttpLine ctx buf = .ok (if buf.length > maxLine then ctx.refuse 414 else ctx, buf) := by
  rw [recvHttpLine, if_neg (not_not_intro hstatu), getLineAndPop_of_not_mem h]

theorem recvHttpLine_long {ctx : HttpContext} (hstatu : ctx.recvStatu = .line) {text : Bytes}
    (h : 10 ∉ text) (hlong : maxLine ≤ text.length) (rest : Bytes) :
    recvHttpLine ctx (text ++ 10 :: rest) = .ok (ctx.refuse 414, rest) := by
  obtain ⟨b, line, hline⟩ := exists_cons_of_concat text
  have hlen : (b :: line).length > maxLine := by
    rw [← hline, List.length_append, List.length_singleton]
    omega
  rw [recvHttpLine, if_neg (not_not_intro hstatu), getLineAndPop_append h, hline]
  simp only [hlen, if_true]

/-- A line that is not too long is parsed. -/
theorem recvHttpLine_short {ctx : HttpContext} (hstatu : ctx.recvStatu = .line) {text : Bytes}
    (h : 10 ∉ text) (hshort : text.length < maxLine) (rest : Bytes) :
    recvHttpLine ctx (text ++ 10 :: rest) = (parseHttpLine ctx (text ++ [10])).map fun p =>
      (if p.2 then { p.1 with recvStatu := .head } else p.1, rest) := by
  obtain ⟨b, line, hline⟩ := exists_cons_of_concat text
  have hlen : ¬ (b :: line).length > maxLine := by
    rw [← hline, List.length_append, List.length_singleton]
    omega
  rw [recvHttpLine, if_neg (not_not_intro hstatu), getLineAndPop_append h, hline]
  simp only [hlen, if_false]
  cases parseHttpLine ctx (b :: line) <;> rfl

theorem recvHttpLine_crlf {ctx : HttpContext} (hstatu : ctx.recvStatu = .line) {text : Bytes}
    (h : 10 ∉ text) (hfits : text.length + 2 ≤ maxLine) (rest : Bytes) :
    recvHttpLine ctx (text ++ 13 :: 10 :: rest) =
      (parseHttpLine ctx (text ++ [13, 10])).map fun p =>
        (if p.2 then { p.1 with recvStatu := .head } else p.1, rest) := by
  have hnewline : (10 : UInt8) ∉ text ++ [13] := by simp [h]
  have hshort : (text ++ [13]).length < maxLine := by
    rw [List.length_append, List.length_singleton]
    omega
  rw [crlf_split, recvHttpLine_short hstatu hnewline hshort, crlf_join]

/-! ## 3. The header lines

A line ends the stage or adds a header, and the loop is these one after the other.  The induction on
lines is done here once. -/

/-- Another header. -/
def addHeader (ctx : HttpContext) (key val : Bytes) : HttpContext :=
  { ctx with request := { ctx.request with headers := ctx.request.headers.insert key val } }

/-- The name and the value of a header line; `none` where there is no `: `. -/
def headerField (line : Bytes) : Option (Bytes × Bytes) :=
  (find (ascii ": ") (popBack 13 (popBack 10 line))).map fun pos =>
    ((popBack 13 (popBack 10 line)).take pos, (popBack 13 (popBack 10 line)).drop (pos + 2))

theorem parseHttpHead_eq (ctx : HttpContext) (line : Bytes) :
    parseHttpHead ctx line =
      match headerField line with
      | none => .ok (ctx.refuse 400, false)
      | some (key, val) => .ok (ctx.addHeader key val, true) := by
  rw [parseHttpHead, cutAt_eq, headerField]
  cases find (ascii ": ") (popBack 13 (popBack 10 line)) <;> rfl

/-- What one complete line does to the header stage: it ends the stage in some context, or the
stage goes on with a header more. -/
inductive HeadLine (ctx : HttpContext) (line : Bytes) : HttpContext ⊕ (Bytes × Bytes) → Prop
  | long (h : line.length > maxLine) : HeadLine ctx line (.inl (ctx.refuse 414))
  | blank (h : line.length ≤ maxLine) (hblank : line = [10] ∨ line = [13, 10]) :
      HeadLine ctx line (.inl { ctx with recvStatu := .body })
  | malformed (h : line.length ≤ maxLine) (hblank : ¬ (line = [10] ∨ line = [13, 10]))
      (hfield : headerField line = none) : HeadLine ctx line (.inl (ctx.refuse 400))
  | field (key val) (h : line.length ≤ maxLine) (hblank : ¬ (line = [10] ∨ line = [13, 10]))
      (hfield : headerField line = some (key, val)) : HeadLine ctx line (.inr (key, val))

theorem exists_headLine (ctx : HttpContext) (line : Bytes) : ∃ o, HeadLine ctx line o := by
  by_cases hlong : line.length > maxLine
  · exact ⟨_, .long hlong⟩
  · have hshort : line.length ≤ maxLine := Nat.le_of_not_lt hlong
    by_cases hblank : line = [10] ∨ line = [13, 10]
    · exact ⟨_, .blank hshort hblank⟩
    · cases hfield : headerField line with
      | none => exact ⟨_, .malformed hshort hblank hfield⟩
      | some kv => exact ⟨_, .field kv.1 kv.2 hshort hblank hfield⟩

theorem headLoop_incomplete (n : Nat) (ctx : HttpContext) {buf : Bytes} (h : 10 ∉ buf) :
    headLoop (n + 1) ctx buf =
      .ok (if buf.length > maxLine then ctx.refuse 414 else ctx, buf) := by
  rw [headLoop, getLineAndPop_of_not_mem h]

theorem headLoop_line (n : Nat) {ctx : HttpContext} {text : Bytes} (h : 10 ∉ text)
    {o : HttpContext ⊕ (Bytes × Bytes)} (ho : HeadLine ctx (text ++ [10]) o) (rest : Bytes) :
    headLoop (n + 1) ctx (text ++ 10 :: rest) =
      o.elim (fun ctx' => .ok (ctx', rest))
        (fun kv => headLoop n (ctx.addHeader kv.1 kv.2) rest) := by
  obtain ⟨b, line, hline⟩ := exists_cons_of_concat text
  rw [headLoop, getLineAndPop_append h]
  rw [hline] at ho ⊢
  cases ho with
  | long hlong => simp only [hlong, if_true, Sum.elim_inl]
  | blank hshort hblank =>
    simp only [Nat.not_lt_of_le hshort, if_false, hblank, if_true, Sum.elim_inl]
  | malformed hshort hblank hfield =>
    simp only [Nat.not_lt_of_le hshort, if_false, hblank, parseHttpHead_eq, hfield]
    rfl
  | field key val hshort hblank hfield =>
    simp only [Nat.not_lt_of_le hshort, if_false, hblank, parseHttpHead_eq, hfield]
    rfl

/-- **The header loop ends**, and the number of rounds does not matter as long as it exceeds the
number of bytes. -/
theorem headLoop_rounds {n m : Nat} (ctx : HttpContext) {buf : Bytes} (hn : buf.length < n)
    (hm : buf.length < m) : headLoop n ctx buf = headLoop m ctx buf := by
  induction n generalizing m ctx buf with
  | zero => omega
  | succ n ih =>
    obtain ⟨m, rfl⟩ : ∃ m', m = m' + 1 := ⟨m - 1, by omega⟩
    rcases not_mem_or_first 10 buf with hnone | ⟨text, rest, rfl, htext⟩
    · rw [headLoop_incomplete n ctx hnone, headLoop_incomplete m ctx hnone]
    · obtain ⟨o, ho⟩ := exists_headLine ctx (text ++ [10])
      rw [headLoop_line n htext ho, headLoop_line m htext ho]
      rw [List.length_append, List.length_cons] at hn hm
      cases o with
      | inl ctx' => rfl
      | inr kv => exact ih _ (by omega) (by omega)

theorem recvHttpHead_skip {ctx : HttpContext} (hstatu : ctx.recvStatu ≠ .head) (buf : Bytes) :
    recvHttpHead ctx buf = .ok (ctx, buf) := if_pos hstatu

theorem recvHttpHead_incomplete {ctx : HttpContext} (hstatu : ctx.recvStatu = .head) {buf : Bytes}
    (h : 10 ∉ buf) :
    recvHttpHead ctx buf = .ok (if buf.length > maxLine then ctx.refuse 414 else ctx, buf) := by
  rw [recvHttpHead, if_neg (not_not_intro hstatu), headLoop_incomplete _ ctx h]

/-- **The header stage goes line by line**: a line that is complete is taken off, and the stage ends
or begins again behind it. -/
theorem recvHttpHead_line {ctx : HttpContext} (hstatu : ctx.recvStatu = .head) {text : Bytes}
    (h : 10 ∉ text) {o : HttpContext ⊕ (Bytes × Bytes)} (ho : HeadLine ctx (text ++ [10]) o)
    (rest : Bytes) :
    recvHttpHead ctx (text ++ 10 :: rest) =
      o.elim (fun ctx' => .ok (ctx', rest))
        (fun kv => recvHttpHead (ctx.addHeader kv.1 kv.2) rest) := by
  rw [recvHttpHead, if_neg (not_not_intro hstatu), headLoop_line _ h ho]
  cases o with
  | inl ctx' => rfl
  | inr kv =>
    have hstatu' : (ctx.addHeader kv.1 kv.2).recvStatu = .head := hstatu
    rw [Sum.elim_inr, Sum.elim_inr, recvHttpHead, if_neg (not_not_intro hstatu')]
    exact headLoop_rounds _ (by simp; omega) (Nat.lt_succ_self _)

theorem recvHttpHead_crlf {ctx : HttpContext} (hstatu : ctx.recvStatu = .head) {line : Bytes}
    (h : 10 ∉ line) {o : HttpContext ⊕ (Bytes × Bytes)} (ho : HeadLine ctx (line ++ [13, 10]) o)
    (rest : Bytes) :
    recvHttpHead ctx (line ++ 13 :: 10 :: rest) =
      o.elim (fun ctx' => .ok (ctx', rest))
        (fun kv => recvHttpHead (ctx.addHeader kv.1 kv.2) rest) := by
  have hnewline : (10 : UInt8) ∉ line ++ [13] := by simp [h]
  rw [← crlf_join] at ho
  rw [crlf_split, recvHttpHead_line hstatu hnewline ho]

/-- Of a line that CR LF ends, the end is taken off. -/
theorem headerField_line (line : Bytes) :
    headerField (line ++ [13, 10]) =
      (find (ascii ": ") line).map fun pos => (line.take pos, line.drop (pos + 2)) := by
  have hpop : popBack 13 (popBack 10 (line ++ [13, 10])) = line := by
    rw [← crlf_join, popBack, popBack, if_pos (by simp), List.dropLast_concat, if_pos (by simp),
      List.dropLast_concat]
  rw [headerField, hpop]

/-- A line that is read as a header, without its line ending: it has a name and a value, and it is
not too long with the ending. -/
structure HeaderOk (line : Bytes) : Prop where
  newline : 10 ∉ line
  fits : line.length + 2 ≤ maxLine
  field : (headerField (line ++ [13, 10])).isSome = true

/-- The names and values of header lines. -/
def headerFields (lines : List Bytes) : List (Bytes × Bytes) :=
  lines.filterMap fun line => headerField (line ++ [13, 10])

/-- More headers. -/
def addHeaders (ctx : HttpContext) (kvs : List (Bytes × Bytes)) : HttpContext :=
  { ctx with request := { ctx.request with
      headers := kvs.foldl (fun m kv => m.insert kv.1 kv.2) ctx.request.headers } }

theorem not_blank_of_headerField {line : Bytes} {kv : Bytes × Bytes}
    (h : headerField line = some kv) : ¬ (line = [10] ∨ line = [13, 10]) := by
  have hnone : headerField [10] = none ∧ headerField [13, 10] = none := by decide
  rintro (rfl | rfl)
  · cases hnone.1.symm.trans h
  · cases hnone.2.symm.trans h

theorem headLine_of_headerOk {line : Bytes} (h : HeaderOk line) (ctx : HttpContext) :
    ∃ kv, headerField (line ++ [13, 10]) = some kv ∧ HeadLine ctx (line ++ [13, 10]) (.inr kv) := by
  obtain ⟨kv, hkv⟩ := Option.isSome_iff_exists.mp h.field
  have hlength : (line ++ [13, 10]).length ≤ maxLine := by
    rw [List.length_append]
    exact h.fits
  exact ⟨kv, hkv, .field kv.1 kv.2 hlength (not_blank_of_headerField hkv) hkv⟩

theorem flatMap_crlf (line : Bytes) (lines : List Bytes) (rest : Bytes) :
    (line :: lines).flatMap (· ++ [13, 10]) ++ rest =
      line ++ 13 :: 10 :: (lines.flatMap (· ++ [13, 10]) ++ rest) := by simp

/-- **Header lines go into the headers one by one**, whatever comes behind them. -/
theorem recvHttpHead_lines {lines : List Bytes} {ctx : HttpContext} (hstatu : ctx.recvStatu = .head)
    (h : ∀ line ∈ lines, HeaderOk line) (rest : Bytes) :
    ctx.recvHttpHead (lines.flatMap (· ++ [13, 10]) ++ rest) =
      (ctx.addHeaders (headerFields lines)).recvHttpHead rest := by
  induction lines generalizing ctx with
  | nil => rfl
  | cons line lines ih =>
    obtain ⟨hline, hlines⟩ := List.forall_mem_cons.mp h
    obtain ⟨kv, hkv, ho⟩ := headLine_of_headerOk hline ctx
    have hfields : headerFields (line :: lines) = kv :: headerFields lines :=
      List.filterMap_cons_some hkv
    have hstatu' : (ctx.addHeader kv.1 kv.2).recvStatu = .head := hstatu
    rw [flatMap_crlf, recvHttpHead_crlf hstatu hline.newline ho, hfields]
    exact ih hstatu' hlines

theorem recvHttpHead_end {ctx : HttpContext} (hstatu : ctx.recvStatu = .head) (rest : Bytes) :
    ctx.recvHttpHead (13 :: 10 :: rest) = .ok ({ ctx with recvStatu := .body }, rest) := by
  have ho : HeadLine ctx ([] ++ [13, 10]) (.inl { ctx with recvStatu := .body }) :=
    .blank (by decide) (Or.inr rfl)
  exact recvHttpHead_crlf hstatu List.not_mem_nil ho rest

/-- **One line that is not read as a header, and the request is refused.** -/
theorem recvHttpHead_refused {lines : List Bytes} {ctx : HttpContext}
    (hstatu : ctx.recvStatu = .head) (hlines : ∀ line ∈ lines, 10 ∉ line ∧ line ≠ [])
    (h : ¬ ∀ line ∈ lines, HeaderOk line) (rest : Bytes) :
    ∃ (ctx' : HttpContext) (statu : Nat) (left : Bytes), (400 ≤ statu ∧ statu < 500) ∧
      ctx.recvHttpHead (lines.flatMap (· ++ [13, 10]) ++ rest) = .ok (ctx'.refuse statu, left) := by
  induction lines generalizing ctx with
  | nil => exact absurd (by simp) h
  | cons line lines ih =>
    obtain ⟨⟨hten, hne⟩, hlines⟩ := List.forall_mem_cons.mp hlines
    rw [flatMap_crlf]
    by_cases hline : HeaderOk line
    · obtain ⟨kv, -, ho⟩ := headLine_of_headerOk hline ctx
      have hstatu' : (ctx.addHeader kv.1 kv.2).recvStatu = .head := hstatu
      rw [recvHttpHead_crlf hstatu hten ho]
      exact ih hstatu' hlines fun hall => h (List.forall_mem_cons.mpr ⟨hline, hall⟩)
    · obtain ⟨o, ho⟩ := exists_headLine ctx (line ++ [13, 10])
      rw [recvHttpHead_crlf hstatu hten ho]
      cases ho with
      | long => exact ⟨ctx, 414, _, by decide, rfl⟩
      | malformed => exact ⟨ctx, 400, _, by decide, rfl⟩
      | blank _ hblank =>
        exfalso
        rcases hblank with hblank | hblank
        · have hlength := congrArg List.length hblank
          rw [List.length_append] at hlength
          simp at hlength
        · exact hne (by simpa using hblank)
      | field key val hshort _ hfield =>
        refine absurd ⟨hten, by simpa using hshort, ?_⟩ hline
        rw [hfield]
        rfl

/-! ## 4. The body

How much is still to come depends on the length in the headers and on what has been read of the body
before. -/

theorem recvHttpBody_skip {ctx : HttpContext} (hstatu : ctx.recvStatu ≠ .body) (buf : Bytes) :
    recvHttpBody ctx buf = .ok (ctx, buf) := if_pos hstatu

/-- A `Content-Length` that `std::stol` does not read. -/
theorem recvHttpBody_raises {ctx : HttpContext} (hstatu : ctx.recvStatu = .body)
    {e : StdException} (h : ctx.request.contentLength = .error e) (buf : Bytes) :
    recvHttpBody ctx buf = .error (.raises e) := by
  rw [recvHttpBody, if_neg (not_not_intro hstatu), h]
  rfl

theorem recvHttpBody_empty {ctx : HttpContext} (hstatu : ctx.recvStatu = .body)
    (h : ctx.request.contentLength = .ok 0) (buf : Bytes) :
    recvHttpBody ctx buf = .ok ({ ctx with recvStatu := .over }, buf) := by
  rw [recvHttpBody, if_neg (not_not_intro hstatu), h]
  rfl

/-- The number of body bytes still to come, as the code computes it. -/
def realLen (ctx : HttpContext) (contentLength : Nat) : Nat :=
  (((contentLength : Int) - ctx.request.body.length) % 2 ^ 64).toNat

/-- The request with more of its body. -/
def addBody (ctx : HttpContext) (bytes : Bytes) : HttpContext :=
  { ctx with request := { ctx.request with body := ctx.request.body ++ bytes } }

/-- A body that is not all there yet. -/
theorem recvHttpBody_more {ctx : HttpContext} (hstatu : ctx.recvStatu = .body) {n : Nat}
    (h : ctx.request.contentLength = .ok n) (hn : n ≠ 0) {buf : Bytes}
    (hbuf : buf.length < ctx.realLen n) : recvHttpBody ctx buf = .ok (ctx.addBody buf, []) := by
  rw [recvHttpBody, if_neg (not_not_intro hstatu), h]
  simp only [raising_ok, bind, Except.bind, hn, if_false]
  exact if_neg (Nat.not_le_of_lt hbuf)

/-- A complete body is searched for files, and only if the request is multipart. -/
theorem parseIfMultipart_ok (req : HttpRequest) :
    ∃ files, parseIfMultipart req = .ok { req with files := files } ∧
      (req.isMultipartFormData = false → files = req.files) := by
  unfold parseIfMultipart
  split
  · rename_i hmulti
    obtain ⟨files, hfiles⟩ := parseMultipartBody_ok req
    exact ⟨files, hfiles, fun hno => absurd hmulti (by rw [hno]; decide)⟩
  · exact ⟨req.files, rfl, fun _ => rfl⟩

theorem exists_parseIfMultipart (req : HttpRequest) :
    ∃ request, parseIfMultipart req = .ok request := by
  obtain ⟨files, hfiles, -⟩ := parseIfMultipart_ok req
  exact ⟨_, hfiles⟩

/-- **A body that is there.**  Its bytes go off the buffer and the request is complete. -/
theorem recvHttpBody_complete {ctx : HttpContext} (hstatu : ctx.recvStatu = .body) {n : Nat}
    (h : ctx.request.contentLength = .ok n) (hn : n ≠ 0) {bytes : Bytes}
    (hlen : bytes.length = ctx.realLen n) {request : HttpRequest}
    (hreq : parseIfMultipart (ctx.addBody bytes).request = .ok request) (rest : Bytes) :
    recvHttpBody ctx (bytes ++ rest) = .ok (⟨ctx.respStatu, .over, request⟩, rest) := by
  have hge : (bytes ++ rest).length ≥ ctx.realLen n := by
    rw [List.length_append, ← hlen]
    exact Nat.le_add_right _ _
  have htake : (bytes ++ rest).take (ctx.realLen n) = bytes := List.take_left' hlen
  have hdrop : (bytes ++ rest).drop (ctx.realLen n) = rest := List.drop_left' hlen
  rw [recvHttpBody, if_neg (not_not_intro hstatu), h]
  simp only [raising_ok, bind, Except.bind, hn, if_false]
  unfold recvBodyBytes
  rw [realLen] at hge htake hdrop
  rw [addBody] at hreq
  simp only [hge, if_true, htake, hdrop, bind, Except.bind, hreq]
  rfl

/-- What is still to come behind part of the body. -/
theorem realLen_addBody {ctx : HttpContext} {n : Nat} {bytes : Bytes}
    (h : bytes.length ≤ ctx.realLen n) :
    (ctx.addBody bytes).realLen n = ctx.realLen n - bytes.length := by
  unfold realLen addBody at *
  simp only [List.length_append]
  omega

/-! ## 5. The call

The fallthroughs of the `switch`, one state after the other. -/

/-- `RecvHttpRequest` from the headers on. -/
def recvFromHead (ctx : HttpContext) (buf : Bytes) : Except Abort (HttpContext × Bytes) :=
  ctx.recvHttpHead buf >>= fun p => p.1.recvHttpBody p.2

theorem recvFromHead_eq {ctx ctx' : HttpContext} {buf rest : Bytes}
    (h : ctx.recvHttpHead buf = .ok (ctx', rest)) :
    ctx.recvFromHead buf = ctx'.recvHttpBody rest := by
  rw [recvFromHead, h]
  rfl

/-- A request that is neither in its headers nor in its body stays as it is. -/
theorem recvFromHead_skip {ctx : HttpContext} (hhead : ctx.recvStatu ≠ .head)
    (hbody : ctx.recvStatu ≠ .body) (buf : Bytes) : ctx.recvFromHead buf = .ok (ctx, buf) := by
  rw [recvFromHead_eq (recvHttpHead_skip hhead buf), recvHttpBody_skip hbody]

theorem recvHttpRequest_line {ctx ctx' : HttpContext} (hstatu : ctx.recvStatu = .line)
    {buf rest : Bytes} (h : ctx.recvHttpLine buf = .ok (ctx', rest)) :
    ctx.recvHttpRequest buf = ctx'.recvFromHead rest := by
  rw [recvHttpRequest, hstatu]
  simp only [h]
  rfl

theorem recvHttpRequest_head {ctx : HttpContext} (hstatu : ctx.recvStatu = .head) (buf : Bytes) :
    ctx.recvHttpRequest buf = ctx.recvFromHead buf := by
  rw [recvHttpRequest, hstatu]
  rfl

theorem recvHttpRequest_body {ctx : HttpContext} (hstatu : ctx.recvStatu = .body) (buf : Bytes) :
    ctx.recvHttpRequest buf = ctx.recvHttpBody buf := by
  rw [recvHttpRequest, hstatu]

theorem recvHttpRequest_over {ctx : HttpContext} (hstatu : ctx.recvStatu = .over) (buf : Bytes) :
    ctx.recvHttpRequest buf = .ok (ctx, buf) := by
  rw [recvHttpRequest, hstatu]

end HttpContext

end OnlineJudge.Net
