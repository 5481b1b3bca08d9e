/-
# When the parser is safe

`OnMessage` calls `RecvHttpRequest` outside its `try` block, so an exception of the parser ends
the process.  What a caller needs of every call: it returns, and when it has come upon a
malformed request (request line, query string, header line or `Content-Length` value) the
request is refused with a client error.

Nothing but `ContentLength` gets in the way.  `std::stol` is called on the header's value without
a guard: it raises on text that is not a number or too large, a negative number becomes a
length that no connection can deliver, and what follows a number is ignored.  No such value is
ever refused.  So a call is safe exactly when it does not come to the end of a header block
whose `Content-Length` is unusable (`safeCall_iff`), and the same holds of whole runs, however
the stream is cut (`parser_safe_iff`).
-/
import OnlineJudge.Lib.Transition
import OnlineJudge.Net.OnMessage

namespace OnlineJudge.Net

open ByteString HttpContext

/-! ## 1. Malformed requests

What a call comes upon is defined on its context and its buffer, before the call.  So the condition
does not speak of what the parser does with it. -/

/-- The value of a `Content-Length` header: digits, with blanks around them, of a number that a
64-bit `long` holds. -/
def UsableLength (val : Bytes) : Prop :=
  ∃ pre ds post, val = pre ++ (ds ++ post) ∧ (∀ b ∈ pre ++ post, b = 32 ∨ b = 9) ∧ ds ≠ [] ∧
    (∀ b ∈ ds, isDigit b = true) ∧ digitsValue ds < 2 ^ 63

/-- The headers give no length, or a usable one.  The name is looked up as it is written here, so
that a length under another spelling counts as none. -/
def LengthOk (headers : StrMap Bytes) : Prop :=
  ∀ val, headers.find? (ascii "Content-Length") = some val → UsableLength val

/-- The line that ends the header block. -/
def IsBlank (text : Bytes) : Prop := text = [] ∨ text = [13]

/-- The block has a line without `: ` before its end. -/
inductive HeadBroken : Bytes → Prop
  | here {text} (rest) (h : 10 ∉ text) (hblank : ¬ IsBlank text)
      (hfield : headerField (text ++ [10]) = none) : HeadBroken (text ++ 10 :: rest)
  | later {text rest key val} (h : 10 ∉ text)
      (hfield : headerField (text ++ [10]) = some (key, val)) (hrest : HeadBroken rest) :
      HeadBroken (text ++ 10 :: rest)

/-- The block is there up to its end, with well-formed lines that turn the first headers into
the second. -/
inductive HeadEnds : StrMap Bytes → Bytes → StrMap Bytes → Prop
  | blank {headers text} (rest) (hblank : IsBlank text) :
      HeadEnds headers (text ++ 10 :: rest) headers
  | field {headers headers' text rest key val} (h : 10 ∉ text) (hshort : text.length < maxLine)
      (hfield : headerField (text ++ [10]) = some (key, val))
      (hrest : HeadEnds (headers.insert key val) rest headers') :
      HeadEnds headers (text ++ 10 :: rest) headers'

/-- A call with this context and buffer gets to header lines, and these are the bytes. -/
inductive HeadAt (ctx : HttpContext) : Bytes → Bytes → Prop
  | head (buf) (hstatu : ctx.recvStatu = .head) : HeadAt ctx buf buf
  | line {text} (rest) (hstatu : ctx.recvStatu = .line) (h : 10 ∉ text)
      (hshort : text.length < maxLine) (hline : LineOk (text ++ [10])) :
      HeadAt ctx (text ++ 10 :: rest) rest

/-- The call comes upon a malformed request line, query string or header line. -/
def MalformedLine (ctx : HttpContext) (buf : Bytes) : Prop :=
  (ctx.recvStatu = .line ∧ ∃ text rest, buf = text ++ 10 :: rest ∧ 10 ∉ text ∧
    ¬ LineOk (text ++ [10])) ∨
  ∃ block, HeadAt ctx buf block ∧ HeadBroken block

/-- The call comes upon an unusable `Content-Length`: it finds the end of a header block that
has one, or it is in the body of such a request. -/
def UnusableLength (ctx : HttpContext) (buf : Bytes) : Prop :=
  (ctx.recvStatu = .body ∧ ¬ LengthOk ctx.request.headers) ∨
  ∃ block headers, HeadAt ctx buf block ∧ HeadEnds ctx.request.headers block headers ∧
    ¬ LengthOk headers

/-- What a call has to do. -/
def SafeCall (ctx : HttpContext) (buf : Bytes) : Prop :=
  ∃ ctx' rest, ctx.recvHttpRequest buf = .ok (ctx', rest) ∧
    (MalformedLine ctx buf ∨ UnusableLength ctx buf → Refused ctx')

/-! ## 2. The length

A usable value is read as it should be, and `stol` raises on no such value.  Nothing is claimed of
an unusable one but that it is never refused. -/

/-- A usable length is read as the number it denotes. -/
theorem UsableLength.stol {val : Bytes} (h : UsableLength val) :
    ∃ n : Nat, ByteString.stol val = .ok (n : Int) := by
  obtain ⟨pre, ds, post, rfl, hblank, hds, hdigits, hlt⟩ := h
  have hspace : ∀ b ∈ pre, isSpace b = true := by
    intro b hb
    rcases hblank b (List.mem_append_left _ hb) with rfl | rfl <;> rfl
  have hpost : ∀ b ∈ post, isDigit b = false := by
    intro b hb
    rcases hblank b (List.mem_append_right _ hb) with rfl | rfl <;> rfl
  exact ⟨_, stol_digits hspace hds hdigits hpost hlt⟩

theorem not_lengthOk_of_raises {req : HttpRequest} {e : StdException}
    (h : req.contentLength = .error e) : ¬ LengthOk req.headers := by
  intro hok
  unfold HttpRequest.contentLength at h
  cases hfind : req.headers.find? (ascii "Content-Length") with
  | none =>
    rw [hfind] at h
    cases h
  | some val =>
    obtain ⟨n, hn⟩ := (hok val hfind).stol
    rw [hfind] at h
    simp only [hn] at h
    cases h

/-! ## 3. The header block

A block that is there up to its end, or up to its first broken line.  These are the two cases in
which the loop of `RecvHttpHead` ends with a verdict. -/

theorem isBlank_iff {text : Bytes} :
    IsBlank text ↔ text ++ [10] = [10] ∨ text ++ [10] = [13, 10] := by
  have hsame : ∀ t : Bytes, text = t ↔ text ++ [10] = t ++ [10] := fun t =>
    (List.append_left_inj [10]).symm
  exact or_congr (hsame []) (hsame [13])

theorem not_isBlank_of_field {text key val : Bytes}
    (h : headerField (text ++ [10]) = some (key, val)) : ¬ IsBlank text := by
  intro hblank
  exact not_blank_of_headerField h (isBlank_iff.mp hblank)

/-- **A malformed header line is refused**, like a line before it that is too long. -/
theorem HeadBroken.refused {block : Bytes} (h : HeadBroken block) {ctx : HttpContext}
    (hstatu : ctx.recvStatu = .head) :
    ∃ ctx' rest, ctx.recvHttpHead block = .ok (ctx', rest) ∧ Refused ctx' := by
  induction h generalizing ctx with
  | here rest h hblank hfield =>
    obtain ⟨o, ho⟩ := exists_headLine ctx (_ ++ [10])
    rw [recvHttpHead_line hstatu h ho]
    cases ho with
    | long | malformed => exact ⟨_, rest, rfl, refused_refuse ctx (by decide)⟩
    | blank _ hblank' => exact absurd (isBlank_iff.mpr hblank') hblank
    | field key val _ _ hfield' => cases hfield.symm.trans hfield'
  | @later text rest key val h hfield hrest ih =>
    obtain ⟨o, ho⟩ := exists_headLine ctx (text ++ [10])
    rw [recvHttpHead_line hstatu h ho]
    cases ho with
    | long | malformed => exact ⟨_, rest, rfl, refused_refuse ctx (by decide)⟩
    | blank _ hblank' => exact absurd (isBlank_iff.mpr hblank') (not_isBlank_of_field hfield)
    | field key' val' => exact ih hstatu

/-- **A complete header block is read to its end**, and the headers are those of its lines.  By
induction on the block. -/
theorem HeadEnds.read {headers headers' : StrMap Bytes} {block : Bytes}
    (h : HeadEnds headers block headers') {ctx : HttpContext} (hstatu : ctx.recvStatu = .head)
    (hheaders : ctx.request.headers = headers) :
    ∃ request rest, ctx.recvHttpHead block = .ok (⟨ctx.respStatu, .body, request⟩, rest) ∧
      request.headers = headers' := by
  induction h generalizing ctx with
  | @blank headers text rest hblank =>
    have htext : 10 ∉ text := by rcases hblank with rfl | rfl <;> decide
    have ho : HeadLine ctx (text ++ [10]) (.inl { ctx with recvStatu := .body }) := by
      refine .blank ?_ (isBlank_iff.mp hblank)
      rcases hblank with rfl | rfl <;> decide
    exact ⟨ctx.request, rest, recvHttpHead_line hstatu htext ho rest, hheaders⟩
  | @field headers headers' text rest key val h hshort hfield hrest ih =>
    have ho : HeadLine ctx (text ++ [10]) (.inr (key, val)) := by
      refine .field key val ?_ (fun hblank => not_isBlank_of_field hfield ?_) hfield
      · rw [List.length_append, List.length_singleton]
        omega
      · exact isBlank_iff.mpr hblank
    rw [recvHttpHead_line hstatu h ho]
    have hstatu' : (ctx.addHeader key val).recvStatu = .head := hstatu
    refine ih hstatu' ?_
    rw [← hheaders]
    rfl

/-- Conversely, the header stage only ends at the end of a block. -/
theorem headEnds_of_body {ctx ctx' : HttpContext} {block rest : Bytes}
    (hstatu : ctx.recvStatu = .head) (h : ctx.recvHttpHead block = .ok (ctx', rest))
    (hbody : ctx'.recvStatu = .body) :
    HeadEnds ctx.request.headers block ctx'.request.headers := by
  induction hn : block.length using Nat.strong_induction_on generalizing ctx block with
  | _ n ih =>
    rcases not_mem_or_first 10 block with hnone | ⟨text, rest', rfl, htext⟩
    · rw [recvHttpHead_incomplete hstatu hnone] at h
      obtain ⟨hctx, -⟩ := Prod.mk.inj (Except.ok.inj h)
      split at hctx
      · rw [← hctx] at hbody
        cases hbody
      · rw [← hctx, hstatu] at hbody
        cases hbody
    · obtain ⟨o, ho⟩ := exists_headLine ctx (text ++ [10])
      rw [recvHttpHead_line hstatu htext ho] at h
      cases ho with
      | long | malformed =>
        obtain ⟨rfl, -⟩ := Prod.mk.inj (Except.ok.inj h)
        cases hbody
      | blank _ hblank =>
        obtain ⟨rfl, -⟩ := Prod.mk.inj (Except.ok.inj h)
        exact .blank rest' (isBlank_iff.mpr hblank)
      | field key val hshort _ hfield =>
        rw [List.length_append, List.length_singleton] at hshort
        rw [List.length_append, List.length_cons] at hn
        have hstatu' : (ctx.addHeader key val).recvStatu = .head := hstatu
        exact .field htext hshort hfield (ih rest'.length (by omega) hstatu' h rfl)

/-! ## 4. One call

The fallthroughs of the `switch` make a call one pass through the stages that are left, so the two
conditions are looked at where the header stage begins. -/

/-- A call that gets to header lines goes on as from a context in the header state. -/
theorem HeadAt.recv {ctx : HttpContext} {buf block : Bytes} (hctx : Open ctx)
    (h : HeadAt ctx buf block) :
    ∃ ctx₁, Open ctx₁ ∧ ctx₁.recvStatu = .head ∧
      ctx₁.request.headers = ctx.request.headers ∧
      ctx.recvHttpRequest buf = ctx₁.recvFromHead block := by
  cases h with
  | head _ hstatu => exact ⟨ctx, hctx, hstatu, rfl, recvHttpRequest_head hstatu _⟩
  | @line text rest hstatu h hshort hline =>
    rcases parseHttpLine_cases ctx (text ++ [10]) with
      ⟨-, request, hparse, hheaders⟩ | ⟨hnot, -⟩
    · refine ⟨⟨ctx.respStatu, .head, request⟩, hctx.move _ (by decide) request, rfl, hheaders,
        recvHttpRequest_line hstatu ?_⟩
      rw [recvHttpLine_short hstatu h hshort, hparse]
      rfl
    · exact absurd hline hnot

theorem MalformedLine.refused {ctx : HttpContext} {buf : Bytes} (hctx : Open ctx)
    (h : MalformedLine ctx buf) :
    ∃ ctx' rest, ctx.recvHttpRequest buf = .ok (ctx', rest) ∧ Refused ctx' := by
  rcases h with ⟨hstatu, text, rest, rfl, htext, hline⟩ | ⟨block, hat, hbroken⟩
  · have hrefuse : ∃ ctx', ctx.recvHttpLine (text ++ 10 :: rest) = .ok (ctx', rest) ∧
        Refused ctx' := by
      rcases Nat.lt_or_ge text.length maxLine with hshort | hlong
      · rcases parseHttpLine_cases ctx (text ++ [10]) with ⟨hok, -⟩ | ⟨-, ctx', hparse⟩
        · exact absurd hok hline
        · refine ⟨ctx'.refuse 400, ?_, refused_refuse ctx' (by decide)⟩
          rw [recvHttpLine_short hstatu htext hshort, hparse]
          rfl
      · exact ⟨ctx.refuse 414, recvHttpLine_long hstatu htext hlong rest,
          refused_refuse ctx (by decide)⟩
    obtain ⟨ctx', hrecv, href⟩ := hrefuse
    refine ⟨ctx', rest, ?_, href⟩
    rw [recvHttpRequest_line hstatu hrecv]
    exact recvFromHead_skip (href.ne (by decide)) (href.ne (by decide)) rest
  · obtain ⟨ctx₁, -, hstatu, -, hrecv⟩ := hat.recv hctx
    obtain ⟨ctx', rest, hhead, href⟩ := hbroken.refused hstatu
    refine ⟨ctx', rest, ?_, href⟩
    rw [hrecv, recvFromHead_eq hhead]
    exact recvHttpBody_skip (href.ne (by decide)) rest

/-- An unusable length is not refused: the call raises, or leaves the request in its body, or
takes it for complete. -/
theorem UnusableLength.not_refused {ctx : HttpContext} {buf : Bytes} (hctx : Open ctx)
    (h : UnusableLength ctx buf) {ctx' : HttpContext} {rest : Bytes}
    (hrecv : ctx.recvHttpRequest buf = .ok (ctx', rest)) : ctx'.recvStatu ≠ .error := by
  have hbody : ∃ ctx₂ mid, Open ctx₂ ∧ ctx₂.recvStatu = .body ∧
      ctx₂.recvHttpBody mid = .ok (ctx', rest) := by
    rcases h with ⟨hstatu, -⟩ | ⟨block, headers, hat, hends, -⟩
    · rw [recvHttpRequest_body hstatu] at hrecv
      exact ⟨ctx, buf, hctx, hstatu, hrecv⟩
    · obtain ⟨ctx₁, hctx₁, hstatu, hheaders, heq⟩ := hat.recv hctx
      obtain ⟨request, mid, hhead, -⟩ := hends.read hstatu hheaders
      rw [heq, recvFromHead_eq hhead] at hrecv
      exact ⟨_, mid, hctx₁.move _ (by decide) request, rfl, hrecv⟩
  obtain ⟨ctx₂, mid, hctx₂, hstatu₂, hbody⟩ := hbody
  rcases recvHttpBody_advances hctx₂ hstatu₂ mid with
    ⟨e, -, hraise⟩ | ⟨n, ctx₃, rest₃, -, hok, hopen, -⟩
  · cases hraise.symm.trans hbody
  · obtain ⟨rfl, rfl⟩ := Prod.mk.inj (Except.ok.inj (hok.symm.trans hbody))
    exact hopen.recvStatu

/-- A call that gets past the request line gets to header lines. -/
theorem headAt_of_head {ctx ctx₁ : HttpContext} {buf block : Bytes}
    (hstatu : ctx.recvStatu = .line) (h : ctx.recvHttpLine buf = .ok (ctx₁, block))
    (hhead : ctx₁.recvStatu = .head) :
    HeadAt ctx buf block ∧ ctx₁.request.headers = ctx.request.headers := by
  rcases not_mem_or_first 10 buf with hnone | ⟨text, rest, rfl, htext⟩
  · rw [recvHttpLine_incomplete hstatu hnone] at h
    obtain ⟨hctx₁, -⟩ := Prod.mk.inj (Except.ok.inj h)
    exfalso
    split at hctx₁
    · rw [← hctx₁] at hhead
      cases hhead
    · rw [← hctx₁, hstatu] at hhead
      cases hhead
  · rcases Nat.lt_or_ge text.length maxLine with hshort | hlong
    · rw [recvHttpLine_short hstatu htext hshort] at h
      rcases parseHttpLine_cases ctx (text ++ [10]) with
        ⟨hok, request, hparse, hheaders⟩ | ⟨-, ctx', hparse⟩
      · rw [hparse] at h
        obtain ⟨rfl, rfl⟩ := Prod.mk.inj (Except.ok.inj h)
        exact ⟨.line _ hstatu htext hshort hok, hheaders⟩
      · rw [hparse] at h
        obtain ⟨rfl, -⟩ := Prod.mk.inj (Except.ok.inj h)
        cases hhead
    · rw [recvHttpLine_long hstatu htext hlong] at h
      obtain ⟨rfl, -⟩ := Prod.mk.inj (Except.ok.inj h)
      cases hhead

/-- A call that does not return has come upon an unusable length. -/
theorem unusableLength_of_abort {ctx : HttpContext} {buf : Bytes} (hctx : Open ctx) {a : Abort}
    (h : ctx.recvHttpRequest buf = .error a) : UnusableLength ctx buf := by
  have hbody : ∀ {ctx₂ : HttpContext} {mid : Bytes}, Open ctx₂ → ctx₂.recvStatu = .body →
      ctx₂.recvHttpBody mid = .error a → ¬ LengthOk ctx₂.request.headers := by
    intro ctx₂ mid hctx₂ hstatu₂ hbody
    rcases recvHttpBody_advances hctx₂ hstatu₂ mid with
      ⟨e, hlength, -⟩ | ⟨n, ctx₃, rest₃, -, hok, -⟩
    · exact not_lengthOk_of_raises hlength
    · cases hok.symm.trans hbody
  have hhead : ∀ {ctx₁ : HttpContext} {block : Bytes}, Open ctx₁ → ctx₁.recvStatu = .head →
      ctx₁.recvFromHead block = .error a →
      ∃ headers, HeadEnds ctx₁.request.headers block headers ∧ ¬ LengthOk headers := by
    intro ctx₁ block hctx₁ hstatu₁ heq
    obtain ⟨ctx₂, mid, hok, hadv⟩ := recvHttpHead_advances hctx₁ hstatu₁ block
    rw [recvFromHead_eq hok] at heq
    rcases hadv with href | ⟨hctx₂, hstatu₂ | hstatu₂⟩
    · cases (recvHttpBody_skip (href.ne (by decide)) mid).symm.trans heq
    · cases (recvHttpBody_skip (by rw [hstatu₂]; decide) mid).symm.trans heq
    · exact ⟨_, headEnds_of_body hstatu₁ hok hstatu₂, hbody hctx₂ hstatu₂ heq⟩
  cases hstatu : ctx.recvStatu with
  | error => exact absurd hstatu hctx.recvStatu
  | «over» => cases (recvHttpRequest_over hstatu buf).symm.trans h
  | body =>
    rw [recvHttpRequest_body hstatu] at h
    exact Or.inl ⟨hstatu, hbody hctx hstatu h⟩
  | head =>
    rw [recvHttpRequest_head hstatu] at h
    obtain ⟨headers, hends, hlength⟩ := hhead hctx hstatu h
    exact Or.inr ⟨buf, headers, .head buf hstatu, hends, hlength⟩
  | line =>
    obtain ⟨ctx₁, block, hok, hadv⟩ := recvHttpLine_advances hctx hstatu buf
    rw [recvHttpRequest_line hstatu hok] at h
    have hskip : ctx₁.recvStatu ≠ .head → ctx₁.recvStatu ≠ .body → UnusableLength ctx buf := by
      intro hhead₁ hbody₁
      cases (recvFromHead_skip hhead₁ hbody₁ block).symm.trans h
    rcases hadv with href | ⟨hctx₁, hstatu₁ | hstatu₁⟩
    · exact hskip (href.ne (by decide)) (href.ne (by decide))
    · exact hskip (by rw [hstatu₁]; decide) (by rw [hstatu₁]; decide)
    · obtain ⟨hat, hheaders⟩ := headAt_of_head hstatu hok hstatu₁
      obtain ⟨headers, hends, hlength⟩ := hhead hctx₁ hstatu₁ h
      exact Or.inr ⟨block, headers, hat, hheaders ▸ hends, hlength⟩

/-- **A call is safe exactly when it does not come upon an unusable length.** -/
theorem safeCall_iff {ctx : HttpContext} (hctx : Open ctx) (buf : Bytes) :
    SafeCall ctx buf ↔ ¬ UnusableLength ctx buf := by
  constructor
  · rintro ⟨ctx', rest, hrecv, hmal⟩ hlength
    exact hlength.not_refused hctx hrecv (hmal (Or.inr hlength)).recvStatu
  · intro hlength
    cases hrecv : ctx.recvHttpRequest buf with
    | error a => exact absurd (unusableLength_of_abort hctx hrecv) hlength
    | ok p =>
      refine ⟨p.1, p.2, hrecv, ?_⟩
      rintro (hline | hlength')
      · obtain ⟨ctx', rest, hrecv', href⟩ := hline.refused hctx
        rw [hrecv] at hrecv'
        rw [Except.ok.inj hrecv']
        exact href
      · exact absurd hlength' hlength

/-! ## 5. Runs

A run is any order of reads and calls.  The first call that is not safe is the first one that comes
upon an unusable length, and up to there both sides agree. -/

/-- A connection between two calls: the context, and the bytes that no call has taken yet. -/
structure Reading where
  ctx : HttpContext
  buffer : Bytes

namespace Reading

/-- Bytes arrive, or `OnMessage` calls the parser. -/
inductive Action
  | read (bytes : Bytes)
  | recvHttpRequest

/-- A new connection. -/
def initial : Reading := ⟨.reSet, []⟩

/-- A call, with what `OnMessage` does when it is back: a complete request and an error reset
the context, an error also clears the buffer.  An exception ends the process. -/
def step (s : Reading) : Action → Option Reading
  | .read bytes => some ⟨s.ctx, s.buffer ++ bytes⟩
  | .recvHttpRequest =>
    match callOutcome (s.ctx.recvHttpRequest s.buffer) with
    | .wait ctx rest => some ⟨ctx, rest⟩
    | .done _ rest => some ⟨.reSet, rest⟩
    | .fail (.refused _ _) => some ⟨.reSet, []⟩
    | .fail (.aborted _) => none

/-- Every call of a run is safe. -/
def Safe (s : Reading) : Action → Prop
  | .read _ => True
  | .recvHttpRequest => SafeCall s.ctx s.buffer

/-- No call of a run comes upon an unusable length. -/
def LengthsUsable (s : Reading) : Action → Prop
  | .read _ => True
  | .recvHttpRequest => ¬ UnusableLength s.ctx s.buffer

/-- The loop of `OnMessage` is a run of such calls, as long as nothing stops it. -/
theorem exec_of_drain {n : Nat} {ctx ctx' : HttpContext} {buf rest : Bytes} {conn : HttpConn}
    (h : onMessage.drain n ctx buf = some conn) (hlive : conn.live = some (ctx', rest)) :
    ∃ k, Transition.exec step ⟨ctx, buf⟩ (List.replicate k .recvHttpRequest) =
      some ⟨ctx', rest⟩ := by
  induction n generalizing ctx buf conn with
  | zero => cases h
  | succ n ih =>
    by_cases hne : buf = []
    · subst hne
      obtain rfl := Option.some.inj h
      obtain ⟨rfl, rfl⟩ := Prod.mk.inj (Option.some.inj hlive)
      exact ⟨0, rfl⟩
    · cases hstage : onMessage.stage ctx buf with
      | wait ctx₁ mid =>
        rw [Framer.drain_wait hne hstage] at h
        obtain rfl := Option.some.inj h
        obtain ⟨rfl, rfl⟩ := Prod.mk.inj (Option.some.inj hlive)
        have hcall : callOutcome (ctx.recvHttpRequest buf) = .wait ctx₁ mid := hstage
        refine ⟨1, ?_⟩
        rw [List.replicate_one, Transition.exec_cons, step]
        simp only [hcall]
        rfl
      | done ctx₁ mid =>
        rw [Framer.drain_done hne hstage] at h
        obtain ⟨d, hd, rfl⟩ := Option.map_eq_some_iff.mp h
        obtain ⟨k, hk⟩ := ih hd hlive
        have hcall : callOutcome (ctx.recvHttpRequest buf) = .done ctx₁ mid := hstage
        refine ⟨k + 1, ?_⟩
        rw [List.replicate_succ, Transition.exec_cons, step]
        simp only [hcall]
        exact hk
      | fail e =>
        rw [Framer.drain_fail hne hstage] at h
        obtain rfl := Option.some.inj h
        cases hlive

theorem open_step {s s' : Reading} {a : Action} (h : Open s.ctx) (hs : s.step a = some s') :
    Open s'.ctx := by
  cases a with
  | read bytes =>
    obtain rfl := Option.some.inj hs
    exact h
  | recvHttpRequest =>
    simp only [step] at hs
    split at hs
    · rename_i ctx rest hcall
      obtain rfl := Option.some.inj hs
      exact (onMessage_lawful.resumable.wait h hcall).1
    · obtain rfl := Option.some.inj hs
      exact open_reSet
    · obtain rfl := Option.some.inj hs
      exact open_reSet
    · cases hs

theorem safe_iff {s : Reading} (h : Open s.ctx) (a : Action) : s.Safe a ↔ s.LengthsUsable a := by
  cases a with
  | read bytes => exact Iff.rfl
  | recvHttpRequest => exact safeCall_iff h s.buffer

/-- **When the parser is safe.**  Take any run of reads and calls of the parser.  Every call
returns, and refuses a malformed request with a client error, if and only if no call comes upon
an unusable `Content-Length`. -/
theorem parser_safe_iff (as : List Action) :
    Transition.Along step Safe initial as ↔ Transition.Along step LengthsUsable initial as := by
  constructor
  · exact Transition.along_of_invariant (fun _ _ _ hi _ hs => open_step hi hs)
      (fun _ a hi hsafe => (safe_iff hi a).mp hsafe) open_reSet
  · exact Transition.along_of_invariant (fun _ _ _ hi _ hs => open_step hi hs)
      (fun _ a hi hlength => (safe_iff hi a).mpr hlength) open_reSet

/-- **The parser can raise.**  A `Content-Length` that is no number ends the process. -/
theorem not_always_safe : ¬ ∀ as : List Action, Transition.Along step Safe initial as := by
  intro h
  have hrun : Transition.Along step Safe initial
      ([.read (ascii "GET / HTTP/1.1\r\nContent-Length: x\r\n\r\n")] ++ [.recvHttpRequest]) :=
    h _
  obtain ⟨ctx', rest, hrecv, -⟩ := hrun.at_step step rfl
  have hraise : recvHttpRequest .reSet
      (ascii "GET / HTTP/1.1\r\nContent-Length: x\r\n\r\n") =
        .error (.raises .invalidArgument) := by rfl
  cases hraise.symm.trans hrecv

end Reading

end OnlineJudge.Net
