/-
# `OnMessage`: the parse loop of a connection

`HttpServer::OnMessage` (`net/http.hpp`) is called when bytes have been appended to the buffer of a
connection.  While the buffer is not empty it calls `RecvHttpRequest`; it answers an error and
stops, hands a complete request over and resets the context, or returns to wait for more. That is
the loop of `Framer`, with `RecvHttpRequest` as the parser (`onMessage`).

The parser is resumable: the three stages are, each for its own reason, and `Resumable.seq` puts
them together.  So the requests and errors that a stream gives do not depend on how the network cuts
it (`onMessage_cut_independent`).

What happens to a request that is handed over is not part of this: the loop is the same whatever the
handler does.  The connection, with its buffers and its shutdown, is in `Net.Connection`.
-/
import OnlineJudge.Lib.Framer
import OnlineJudge.Net.Stages

namespace OnlineJudge.Net

open ByteString Framer HttpContext

/-! ## 1. The loop

`Framer` has the loop once and for all: an outcome is that the parser waits, is done with a request,
or fails. -/

/-- Why the loop stops: the request is answered with an error status, or the call of the parser
does not return. -/
inductive Failure
  | refused (statu : Nat) (request : HttpRequest)
  | aborted (a : Abort)
deriving DecidableEq

/-- What `OnMessage` does when `RecvHttpRequest` is back. -/
def callOutcome : Except Abort (HttpContext × Bytes) → Outcome HttpContext UInt8 Failure
  | .error a => .fail (.aborted a)
  | .ok (ctx, rest) =>
    if ctx.respStatu ≥ 400 then .fail (.refused ctx.respStatu ctx.request)
    else if ctx.recvStatu ≠ .over then .wait ctx rest
    else .done ctx rest

/-- `OnMessage`, as far as parsing goes. -/
def onMessage : Framer HttpContext UInt8 Failure HttpRequest where
  fresh := .reSet
  stage ctx buf := callOutcome (ctx.recvHttpRequest buf)
  message ctx := ctx.request

/-- A connection of the server. -/
abbrev HttpConn := Conn HttpContext UInt8 Failure HttpRequest

/-! ## 2. The stages are resumable

Resumable means: to wait and be given more comes to the same as having had it at once.  The line
stage and the header stage are so because a line that is complete stays what it is, and the body
stage because it counts. -/

/-- The contexts between two calls: nothing has been refused.  `OnMessage` resets the context after
a refusal, so it never calls the parser with another one. -/
structure Open (ctx : HttpContext) : Prop where
  respStatu : ctx.respStatu < 400
  recvStatu : ctx.recvStatu ≠ .error

theorem open_reSet : Open .reSet where
  respStatu := by decide
  recvStatu := by decide

/-- Any state but the error state, with the status so far. -/
theorem Open.move {ctx : HttpContext} (hctx : Open ctx) (statu : HttpRecvStatu)
    (hstatu : statu ≠ .error) (request : HttpRequest) : Open ⟨ctx.respStatu, statu, request⟩ :=
  ⟨hctx.respStatu, hstatu⟩

/-- A stage by itself: it waits as long as the context is in the stage's own state. -/
def stageOutcome (own : HttpRecvStatu) :
    Except Abort (HttpContext × Bytes) → Outcome HttpContext UInt8 Failure
  | .error a => .fail (.aborted a)
  | .ok (ctx, rest) =>
    if ctx.respStatu ≥ 400 then .fail (.refused ctx.respStatu ctx.request)
    else if ctx.recvStatu = own then .wait ctx rest
    else .done ctx rest

theorem stageOutcome_refuse (own : HttpRecvStatu) (ctx : HttpContext) (statu : Nat)
    (h : 400 ≤ statu) (rest : Bytes) :
    stageOutcome own (.ok (ctx.refuse statu, rest)) = .fail (.refused statu ctx.request) :=
  if_pos h

theorem stageOutcome_wait {own : HttpRecvStatu} {ctx : HttpContext} (hresp : ctx.respStatu < 400)
    (hown : ctx.recvStatu = own) (rest : Bytes) :
    stageOutcome own (.ok (ctx, rest)) = .wait ctx rest := by
  simp only [stageOutcome, ge_iff_le, Nat.not_le_of_lt hresp, if_false, hown, if_true]

theorem stageOutcome_done {own : HttpRecvStatu} {ctx : HttpContext} (hresp : ctx.respStatu < 400)
    (hown : ctx.recvStatu ≠ own) (rest : Bytes) :
    stageOutcome own (.ok (ctx, rest)) = .done ctx rest := by
  simp only [stageOutcome, ge_iff_le, Nat.not_le_of_lt hresp, if_false, hown]

theorem stageOutcome_move {own statu : HttpRecvStatu} {ctx : HttpContext} (hctx : Open ctx)
    (hown : statu ≠ own) (request : HttpRequest) (rest : Bytes) :
    stageOutcome own (.ok (⟨ctx.respStatu, statu, request⟩, rest)) =
      .done ⟨ctx.respStatu, statu, request⟩ rest := by
  have hresp : (HttpContext.mk ctx.respStatu statu request).respStatu < 400 := hctx.respStatu
  exact stageOutcome_done hresp hown rest

/-- `RecvHttpLine` as a stage. -/
def lineStage : Stage HttpContext UInt8 Failure := fun ctx buf =>
  stageOutcome .line (raising (ctx.recvHttpLine buf))

/-- `RecvHttpHead` as a stage. -/
def headStage : Stage HttpContext UInt8 Failure := fun ctx buf =>
  stageOutcome .head (ctx.recvHttpHead buf)

/-- `RecvHttpBody` as a stage. -/
def bodyStage : Stage HttpContext UInt8 Failure := fun ctx buf =>
  stageOutcome .body (ctx.recvHttpBody buf)

theorem lineStage_skip {ctx : HttpContext} (hctx : Open ctx) (hstatu : ctx.recvStatu ≠ .line)
    (buf : Bytes) : lineStage ctx buf = .done ctx buf := by
  rw [lineStage, recvHttpLine, if_pos hstatu]
  exact stageOutcome_done hctx.respStatu hstatu buf

theorem headStage_skip {ctx : HttpContext} (hctx : Open ctx) (hstatu : ctx.recvStatu ≠ .head)
    (buf : Bytes) : headStage ctx buf = .done ctx buf := by
  rw [headStage, recvHttpHead_skip hstatu]
  exact stageOutcome_done hctx.respStatu hstatu buf

theorem bodyStage_skip {ctx : HttpContext} (hctx : Open ctx) (hstatu : ctx.recvStatu ≠ .body)
    (buf : Bytes) : bodyStage ctx buf = .done ctx buf := by
  rw [bodyStage, recvHttpBody_skip hstatu]
  exact stageOutcome_done hctx.respStatu hstatu buf

/-- A buffer without a complete line that is too long already stays too long: the line that gets
complete later is, and so is the buffer if none does. -/
theorem overlong_append {buf : Bytes} (h : 10 ∉ buf) (hlong : maxLine < buf.length) (x : Bytes) :
    (10 ∉ buf ++ x ∧ maxLine < (buf ++ x).length) ∨
    ∃ text rest, buf ++ x = text ++ 10 :: rest ∧ 10 ∉ text ∧ maxLine ≤ text.length := by
  rcases not_mem_or_first 10 (buf ++ x) with hnone | ⟨text, rest, heq, htext⟩
  · refine Or.inl ⟨hnone, ?_⟩
    rw [List.length_append]
    omega
  · refine Or.inr ⟨text, rest, heq, htext, ?_⟩
    by_contra hlt
    have hpre : text ++ [10] <+: buf := by
      have hline : text ++ [10] <+: buf ++ x :=
        ⟨rest, by rw [heq, List.append_assoc, List.singleton_append]⟩
      refine List.prefix_of_prefix_length_le hline (List.prefix_append buf x) ?_
      rw [List.length_append, List.length_singleton]
      omega
    exact h (hpre.subset (by simp))

theorem lineStage_overlong {ctx : HttpContext} (hstatu : ctx.recvStatu = .line) {buf : Bytes}
    (h : 10 ∉ buf) (hlong : maxLine < buf.length) (x : Bytes) :
    lineStage ctx (buf ++ x) = .fail (.refused 414 ctx.request) := by
  rcases overlong_append h hlong x with ⟨hnone, hlen⟩ | ⟨text, rest, heq, htext, hlen⟩
  · rw [lineStage, recvHttpLine_incomplete hstatu hnone, if_pos hlen]
    exact stageOutcome_refuse .line ctx _ (by decide) _
  · rw [lineStage, heq, recvHttpLine_long hstatu htext hlen]
    exact stageOutcome_refuse .line ctx _ (by decide) _

theorem headStage_overlong {ctx : HttpContext} (hstatu : ctx.recvStatu = .head) {buf : Bytes}
    (h : 10 ∉ buf) (hlong : maxLine < buf.length) (x : Bytes) :
    headStage ctx (buf ++ x) = .fail (.refused 414 ctx.request) := by
  rcases overlong_append h hlong x with ⟨hnone, hlen⟩ | ⟨text, rest, heq, htext, hlen⟩
  · rw [headStage, recvHttpHead_incomplete hstatu hnone, if_pos hlen]
    exact stageOutcome_refuse .head ctx _ (by decide) _
  · have ho : HeadLine ctx (text ++ [10]) (.inl (ctx.refuse 414)) := by
      refine .long ?_
      rw [List.length_append, List.length_singleton]
      omega
    rw [headStage, heq, recvHttpHead_line hstatu htext ho]
    exact stageOutcome_refuse .head ctx _ (by decide) _

/-- A complete request line decides the line stage. -/
theorem lineStage_line {ctx : HttpContext} (hctx : Open ctx) (hstatu : ctx.recvStatu = .line)
    {text : Bytes} (h : 10 ∉ text) :
    (∃ e, ∀ rest, lineStage ctx (text ++ 10 :: rest) = .fail e) ∨
    ∃ ctx', Open ctx' ∧ ctx'.recvStatu = .head ∧
      ∀ rest, lineStage ctx (text ++ 10 :: rest) = .done ctx' rest := by
  by_cases hlong : maxLine ≤ text.length
  · refine Or.inl ⟨.refused 414 ctx.request, fun rest => ?_⟩
    rw [lineStage, recvHttpLine_long hstatu h hlong]
    exact stageOutcome_refuse .line ctx _ (by decide) rest
  · have hshort : text.length < maxLine := Nat.lt_of_not_le hlong
    rcases parseHttpLine_cases ctx (text ++ [10]) with ⟨-, request, hparse, -⟩ | ⟨-, ctx', hparse⟩
    · refine Or.inr ⟨_, hctx.move .head (by decide) request, rfl, fun rest => ?_⟩
      rw [lineStage, recvHttpLine_short hstatu h hshort, hparse]
      exact stageOutcome_move hctx (by decide) request rest
    · refine Or.inl ⟨.refused 400 ctx'.request, fun rest => ?_⟩
      rw [lineStage, recvHttpLine_short hstatu h hshort, hparse]
      exact stageOutcome_refuse .line ctx' _ (by decide) rest

/-- **The line stage is resumable.**  A line that is complete is not changed by what comes behind
it, and one that is not is waited for, unless it is too long already. -/
theorem lineStage_resumable : Resumable Open lineStage := by
  refine .of_resumes fun ctx buf hctx => ?_
  by_cases hstatu : ctx.recvStatu = .line
  · rcases not_mem_or_first 10 buf with hnone | ⟨text, rest, rfl, htext⟩
    · by_cases hlong : maxLine < buf.length
      · exact .fail _ fun x => lineStage_overlong hstatu hnone hlong x
      · refine .wait ctx buf hctx ?_ fun x => rfl
        rw [lineStage, recvHttpLine_incomplete hstatu hnone, if_neg hlong]
        exact stageOutcome_wait hctx.respStatu hstatu buf
    · rcases lineStage_line hctx hstatu htext with ⟨e, hfail⟩ | ⟨ctx', hctx', -, hdone⟩
      · exact .fail e fun x => by rw [List.append_assoc, List.cons_append, hfail]
      · exact .done ctx' rest hctx' (by simp; omega) fun x => by
          rw [List.append_assoc, List.cons_append, hdone]
  · exact .done ctx buf hctx (Nat.le_refl _) fun x => lineStage_skip hctx hstatu _

theorem headStage_line {ctx : HttpContext} (hstatu : ctx.recvStatu = .head) {text : Bytes}
    (h : 10 ∉ text) {o : HttpContext ⊕ (Bytes × Bytes)} (ho : HeadLine ctx (text ++ [10]) o)
    (rest : Bytes) :
    headStage ctx (text ++ 10 :: rest) =
      o.elim (fun ctx' => stageOutcome .head (.ok (ctx', rest)))
        (fun kv => headStage (ctx.addHeader kv.1 kv.2) rest) := by
  rw [headStage, recvHttpHead_line hstatu h ho]
  cases o <;> rfl

/-- **The header stage is resumable.**  By induction on the buffer: a complete line either ends
the stage or leaves the stage to go on with the bytes behind it. -/
theorem headStage_resumable : Resumable Open headStage := by
  refine .of_resumes fun ctx buf hctx => ?_
  by_cases hstatu : ctx.recvStatu = .head
  · induction hn : buf.length using Nat.strong_induction_on generalizing ctx buf with
    | _ n ih =>
      rcases not_mem_or_first 10 buf with hnone | ⟨text, rest, rfl, htext⟩
      · by_cases hlong : maxLine < buf.length
        · exact .fail _ fun x => headStage_overlong hstatu hnone hlong x
        · refine .wait ctx buf hctx ?_ fun x => rfl
          rw [headStage, recvHttpHead_incomplete hstatu hnone, if_neg hlong]
          exact stageOutcome_wait hctx.respStatu hstatu buf
      · obtain ⟨o, ho⟩ := exists_headLine ctx (text ++ [10])
        have hline : ∀ x, headStage ctx (text ++ 10 :: rest ++ x) =
            o.elim (fun ctx' => stageOutcome .head (.ok (ctx', rest ++ x)))
              (fun kv => headStage (ctx.addHeader kv.1 kv.2) (rest ++ x)) := fun x => by
          rw [List.append_assoc, List.cons_append, headStage_line hstatu htext ho]
        have hnil := hline []
        rw [List.append_nil, List.append_nil] at hnil
        cases ho with
        | long =>
          exact .fail (.refused 414 ctx.request) fun x =>
            (hline x).trans (stageOutcome_refuse .head ctx 414 (by decide) (rest ++ x))
        | malformed =>
          exact .fail (.refused 400 ctx.request) fun x =>
            (hline x).trans (stageOutcome_refuse .head ctx 400 (by decide) (rest ++ x))
        | blank =>
          exact .done _ rest (hctx.move .body (by decide) ctx.request)
            (by simp; omega) fun x =>
              (hline x).trans (stageOutcome_move hctx (by decide) ctx.request (rest ++ x))
        | field key val =>
          have hlen : rest.length < n := by
            rw [← hn, List.length_append, List.length_cons]
            omega
          cases ih rest.length hlen (ctx.addHeader key val) rest
            ⟨hctx.respStatu, hctx.recvStatu⟩ hstatu rfl with
          | wait ctx' rest' hctx' hwait happ =>
            exact .wait ctx' rest' hctx' (hnil.trans hwait) fun x => (hline x).trans (happ x)
          | done ctx' rest' hctx' hle happ =>
            exact .done ctx' rest' hctx' (by simp; omega) fun x => (hline x).trans (happ x)
          | fail e happ => exact .fail e fun x => (hline x).trans (happ x)
  · exact .done ctx buf hctx (Nat.le_refl _) fun x => headStage_skip hctx hstatu _

/-- Bytes that were not all of the body yet, and more. -/
theorem bodyStage_addBody {ctx : HttpContext} (hstatu : ctx.recvStatu = .body) {n : Nat}
    (h : ctx.request.contentLength = .ok n) (hn : n ≠ 0) {buf : Bytes}
    (hbuf : buf.length < ctx.realLen n) (x : Bytes) :
    bodyStage ctx (buf ++ x) = bodyStage (ctx.addBody buf) x := by
  have hstatu' : (ctx.addBody buf).recvStatu = .body := hstatu
  have h' : (ctx.addBody buf).request.contentLength = .ok n := h
  have hreal : (ctx.addBody buf).realLen n = ctx.realLen n - buf.length :=
    realLen_addBody (Nat.le_of_lt hbuf)
  have hbody : ∀ bytes, (ctx.addBody buf).addBody bytes = ctx.addBody (buf ++ bytes) := by
    intro bytes
    simp only [addBody, List.append_assoc]
  rw [bodyStage, bodyStage]
  rcases Nat.lt_or_ge (buf ++ x).length (ctx.realLen n) with hlt | hge
  · have hlt' : x.length < (ctx.addBody buf).realLen n := by
      rw [List.length_append] at hlt
      omega
    rw [recvHttpBody_more hstatu h hn hlt, recvHttpBody_more hstatu' h' hn hlt', hbody]
  · -- the same bytes complete the body, whether they came before or with the others
    obtain ⟨request, hreq⟩ :=
      exists_parseIfMultipart (ctx.addBody (buf ++ x.take (ctx.realLen n - buf.length))).request
    have hreq' := hreq
    rw [← hbody] at hreq'
    rw [List.length_append] at hge
    have hsplit : buf ++ x = (buf ++ x.take (ctx.realLen n - buf.length)) ++
        x.drop (ctx.realLen n - buf.length) := by
      rw [List.append_assoc, List.take_append_drop]
    have hlen : (buf ++ x.take (ctx.realLen n - buf.length)).length = ctx.realLen n := by
      simp
      omega
    have hlen' :
        (x.take (ctx.realLen n - buf.length)).length = (ctx.addBody buf).realLen n := by
      rw [hreal]
      simp
      omega
    have hall := recvHttpBody_complete hstatu h hn hlen hreq (x.drop (ctx.realLen n - buf.length))
    have hmore :=
      recvHttpBody_complete hstatu' h' hn hlen' hreq' (x.drop (ctx.realLen n - buf.length))
    rw [List.take_append_drop] at hmore
    rw [hsplit, hall, hmore]
    rfl

/-- **The body stage is resumable**: the bytes that have come count against the length. -/
theorem bodyStage_resumable : Resumable Open bodyStage := by
  refine .of_resumes fun ctx buf hctx => ?_
  by_cases hstatu : ctx.recvStatu = .body
  · cases hlength : ctx.request.contentLength with
    | error e =>
      exact .fail (.aborted (.raises e)) fun x => by
        rw [bodyStage, recvHttpBody_raises hstatu hlength]
        rfl
    | ok n =>
      by_cases hn : n = 0
      · subst hn
        refine .done _ buf (hctx.move .over (by decide) ctx.request)
          (Nat.le_refl _) fun x => ?_
        rw [bodyStage, recvHttpBody_empty hstatu hlength]
        exact stageOutcome_move hctx (by decide) ctx.request (buf ++ x)
      · rcases Nat.lt_or_ge buf.length (ctx.realLen n) with hlt | hge
        · have hopen : Open (ctx.addBody buf) := ⟨hctx.respStatu, hctx.recvStatu⟩
          refine .wait (ctx.addBody buf) [] hopen ?_ fun x => ?_
          · rw [bodyStage, recvHttpBody_more hstatu hlength hn hlt]
            exact stageOutcome_wait hopen.respStatu hstatu _
          · exact bodyStage_addBody hstatu hlength hn hlt x
        · obtain ⟨request, hreq⟩ :=
            exists_parseIfMultipart (ctx.addBody (buf.take (ctx.realLen n))).request
          refine .done _ (buf.drop (ctx.realLen n))
            (hctx.move .over (by decide) request) (by simp) fun x => ?_
          have hsplit : buf ++ x =
              buf.take (ctx.realLen n) ++ (buf.drop (ctx.realLen n) ++ x) := by
            rw [← List.append_assoc, List.take_append_drop]
          rw [bodyStage, hsplit,
            recvHttpBody_complete hstatu hlength hn (List.length_take_of_le hge) hreq]
          exact stageOutcome_move hctx (by decide) request _
  · exact .done ctx buf hctx (Nat.le_refl _) fun x => bodyStage_skip hctx hstatu _

/-! ## 3. The parser is resumable

The call is its three stages in a row.  A stage that waits must not let the next one begin, and one
that is over must not be entered again: that is what the state of the context is for. -/

/-- The request has been refused with a client error: the state stops the loop, and the status goes
into the response. -/
structure Refused (ctx : HttpContext) : Prop where
  recvStatu : ctx.recvStatu = .error
  respStatu : 400 ≤ ctx.respStatu ∧ ctx.respStatu < 500

theorem refused_refuse (ctx : HttpContext) {statu : Nat} (h : 400 ≤ statu ∧ statu < 500) :
    Refused (ctx.refuse statu) :=
  ⟨rfl, h⟩

theorem Refused.ne {ctx : HttpContext} (h : Refused ctx) {statu : HttpRecvStatu}
    (hstatu : statu ≠ .error) : ctx.recvStatu ≠ statu := by
  rw [h.recvStatu]
  exact hstatu.symm

/-- What a stage leaves: a refusal, or an open context in the stage's own state or in the next
one. -/
def Advances (own next : HttpRecvStatu) (ctx : HttpContext) : Prop :=
  Refused ctx ∨ Open ctx ∧ (ctx.recvStatu = own ∨ ctx.recvStatu = next)

theorem advances_refuse (own next : HttpRecvStatu) (ctx : HttpContext) {statu : Nat}
    (h : 400 ≤ statu ∧ statu < 500) : Advances own next (ctx.refuse statu) :=
  Or.inl (refused_refuse ctx h)

theorem recvHttpLine_advances {ctx : HttpContext} (hctx : Open ctx) (hstatu : ctx.recvStatu = .line)
    (buf : Bytes) :
    ∃ ctx' rest, ctx.recvHttpLine buf = .ok (ctx', rest) ∧ Advances .line .head ctx' := by
  rcases not_mem_or_first 10 buf with hnone | ⟨text, rest, rfl, htext⟩
  · refine ⟨_, _, recvHttpLine_incomplete hstatu hnone, ?_⟩
    split
    · exact advances_refuse _ _ ctx (by decide)
    · exact Or.inr ⟨hctx, Or.inl hstatu⟩
  · rcases Nat.lt_or_ge text.length maxLine with hshort | hlong
    · rw [recvHttpLine_short hstatu htext hshort]
      rcases parseHttpLine_cases ctx (text ++ [10]) with ⟨-, request, hparse, -⟩ | ⟨-, ctx', hparse⟩
      · rw [hparse]
        exact ⟨_, _, rfl, Or.inr ⟨hctx.move _ (by decide) request, Or.inr rfl⟩⟩
      · rw [hparse]
        exact ⟨_, _, rfl, advances_refuse _ _ ctx' (by decide)⟩
    · exact ⟨_, _, recvHttpLine_long hstatu htext hlong rest, advances_refuse _ _ ctx (by decide)⟩

theorem recvHttpHead_advances {ctx : HttpContext} (hctx : Open ctx) (hstatu : ctx.recvStatu = .head)
    (buf : Bytes) :
    ∃ ctx' rest, ctx.recvHttpHead buf = .ok (ctx', rest) ∧ Advances .head .body ctx' := by
  induction hn : buf.length using Nat.strong_induction_on generalizing ctx buf with
  | _ n ih =>
    rcases not_mem_or_first 10 buf with hnone | ⟨text, rest, rfl, htext⟩
    · refine ⟨_, _, recvHttpHead_incomplete hstatu hnone, ?_⟩
      split
      · exact advances_refuse _ _ ctx (by decide)
      · exact Or.inr ⟨hctx, Or.inl hstatu⟩
    · obtain ⟨o, ho⟩ := exists_headLine ctx (text ++ [10])
      rw [recvHttpHead_line hstatu htext ho]
      cases ho with
      | long | malformed => exact ⟨_, rest, rfl, advances_refuse _ _ ctx (by decide)⟩
      | blank =>
        exact ⟨_, rest, rfl, Or.inr ⟨hctx.move _ (by decide) ctx.request, Or.inr rfl⟩⟩
      | field key val =>
        have hlen : rest.length < n := by
          rw [← hn, List.length_append, List.length_cons]
          omega
        have hopen : Open (ctx.addHeader key val) := ⟨hctx.respStatu, hctx.recvStatu⟩
        exact ih rest.length hlen hopen hstatu rest rfl

theorem recvHttpBody_advances {ctx : HttpContext} (hctx : Open ctx) (hstatu : ctx.recvStatu = .body)
    (buf : Bytes) :
    (∃ e, ctx.request.contentLength = .error e ∧
      ctx.recvHttpBody buf = .error (.raises e)) ∨
    ∃ n ctx' rest, ctx.request.contentLength = .ok n ∧
      ctx.recvHttpBody buf = .ok (ctx', rest) ∧ Open ctx' ∧
        (ctx'.recvStatu = .body ∨ ctx'.recvStatu = .over) := by
  cases hlength : ctx.request.contentLength with
  | error e => exact Or.inl ⟨e, rfl, recvHttpBody_raises hstatu hlength buf⟩
  | ok n =>
    refine Or.inr ?_
    by_cases hn : n = 0
    · subst hn
      exact ⟨0, _, _, rfl, recvHttpBody_empty hstatu hlength buf,
        hctx.move _ (by decide) ctx.request, Or.inr rfl⟩
    · rcases Nat.lt_or_ge buf.length (ctx.realLen n) with hlt | hge
      · exact ⟨n, _, _, rfl, recvHttpBody_more hstatu hlength hn hlt,
          ⟨hctx.respStatu, hctx.recvStatu⟩, Or.inl hstatu⟩
      · obtain ⟨request, hreq⟩ :=
          exists_parseIfMultipart (ctx.addBody (buf.take (ctx.realLen n))).request
        have hall := recvHttpBody_complete hstatu hlength hn (List.length_take_of_le hge) hreq
          (buf.drop (ctx.realLen n))
        rw [List.take_append_drop] at hall
        exact ⟨n, _, _, rfl, hall, hctx.move _ (by decide) request, Or.inr rfl⟩

/-- `RecvHttpRequest` by stages. -/
def requestStage : Stage HttpContext UInt8 Failure := lineStage.seq (headStage.seq bodyStage)

theorem wait_of_stageOutcome {own : HttpRecvStatu} {r : Except Abort (HttpContext × Bytes)}
    {ctx : HttpContext} {rest : Bytes} (h : stageOutcome own r = .wait ctx rest) :
    ctx.recvStatu = own := by
  unfold stageOutcome at h
  split at h
  · cases h
  · split at h
    · cases h
    · split at h
      · rename_i hown
        obtain ⟨rfl, -⟩ := Outcome.wait.inj h
        exact hown
      · cases h

theorem headStage_seq_bodyStage_resumable : Resumable Open (headStage.seq bodyStage) := by
  refine headStage_resumable.seq bodyStage_resumable fun hs hwait b => ?_
  refine headStage_skip (bodyStage_resumable.wait hs hwait).1 ?_ b
  rw [wait_of_stageOutcome hwait]
  decide

/-- **`RecvHttpRequest` is resumable**: a stage that waits lets the stages before it pass. -/
theorem requestStage_resumable : Resumable Open requestStage := by
  refine lineStage_resumable.seq headStage_seq_bodyStage_resumable fun hs hwait b => ?_
  refine lineStage_skip (headStage_seq_bodyStage_resumable.wait hs hwait).1 ?_ b
  rcases wait_of_seq hwait with hhead | ⟨t, mid, -, hbody⟩
  · rw [wait_of_stageOutcome hhead]
    decide
  · rw [wait_of_stageOutcome hbody]
    decide

/-- A refusal stops the loop whichever stage it comes from. -/
theorem callOutcome_refused (own : HttpRecvStatu) {ctx : HttpContext} (h : Refused ctx)
    (rest : Bytes) :
    callOutcome (.ok (ctx, rest)) = .fail (.refused ctx.respStatu ctx.request) ∧
      stageOutcome own (.ok (ctx, rest)) = .fail (.refused ctx.respStatu ctx.request) :=
  ⟨if_pos h.respStatu.1, if_pos h.respStatu.1⟩

theorem callOutcome_wait {ctx : HttpContext} (hctx : Open ctx) (hstatu : ctx.recvStatu ≠ .over)
    (rest : Bytes) : callOutcome (.ok (ctx, rest)) = .wait ctx rest := by
  simp only [callOutcome, ge_iff_le, Nat.not_le_of_lt hctx.respStatu, if_false, ne_eq, hstatu,
    not_false_eq_true, if_true]

theorem callOutcome_done {ctx : HttpContext} (hctx : Open ctx) (hstatu : ctx.recvStatu = .over)
    (rest : Bytes) : callOutcome (.ok (ctx, rest)) = .done ctx rest := by
  simp only [callOutcome, ge_iff_le, Nat.not_le_of_lt hctx.respStatu, if_false, ne_eq, hstatu,
    not_true_eq_false]

theorem callOutcome_body {ctx : HttpContext} (hctx : Open ctx) (hstatu : ctx.recvStatu = .body)
    (buf : Bytes) : callOutcome (ctx.recvHttpBody buf) = bodyStage ctx buf := by
  rw [bodyStage]
  rcases recvHttpBody_advances hctx hstatu buf with
    ⟨e, -, hbody⟩ | ⟨n, ctx', rest, -, hbody, hctx', hstatu'⟩
  · rw [hbody]
    rfl
  · rw [hbody]
    rcases hstatu' with hstatu' | hstatu'
    · rw [callOutcome_wait hctx' (by rw [hstatu']; decide),
        stageOutcome_wait hctx'.respStatu hstatu']
    · rw [callOutcome_done hctx' hstatu',
        stageOutcome_done hctx'.respStatu (by rw [hstatu']; decide)]

theorem callOutcome_head {ctx : HttpContext} (hctx : Open ctx) (hstatu : ctx.recvStatu = .head)
    (buf : Bytes) :
    callOutcome (ctx.recvFromHead buf) = headStage.seq bodyStage ctx buf := by
  obtain ⟨ctx', rest, hhead, hadv⟩ := recvHttpHead_advances hctx hstatu buf
  rw [Stage.seq, headStage, recvFromHead_eq hhead, hhead]
  rcases hadv with href | ⟨hctx', hstatu' | hstatu'⟩
  · obtain ⟨hcall, hstage⟩ := callOutcome_refused .head href rest
    rw [recvHttpBody_skip (href.ne (by decide)), hcall, hstage]
  · rw [recvHttpBody_skip (by rw [hstatu']; decide), stageOutcome_wait hctx'.respStatu hstatu',
      callOutcome_wait hctx' (by rw [hstatu']; decide)]
  · rw [stageOutcome_done hctx'.respStatu (by rw [hstatu']; decide)]
    exact callOutcome_body hctx' hstatu' rest

/-- **A call of the parser is its three stages**, with what `OnMessage` does when it is back. -/
theorem callOutcome_eq {ctx : HttpContext} (hctx : Open ctx) (buf : Bytes) :
    callOutcome (ctx.recvHttpRequest buf) = requestStage ctx buf := by
  unfold requestStage
  cases hstatu : ctx.recvStatu with
  | error => exact absurd hstatu hctx.recvStatu
  | line =>
    obtain ⟨ctx', rest, hline, hadv⟩ := recvHttpLine_advances hctx hstatu buf
    rw [Stage.seq, lineStage, hline, raising_ok, recvHttpRequest_line hstatu hline]
    rcases hadv with href | ⟨hctx', hstatu' | hstatu'⟩
    · obtain ⟨hcall, hstage⟩ := callOutcome_refused .line href rest
      rw [recvFromHead_skip (href.ne (by decide)) (href.ne (by decide)), hcall, hstage]
    · rw [recvFromHead_skip (by rw [hstatu']; decide) (by rw [hstatu']; decide),
        stageOutcome_wait hctx'.respStatu hstatu', callOutcome_wait hctx' (by rw [hstatu']; decide)]
    · rw [stageOutcome_done hctx'.respStatu (by rw [hstatu']; decide)]
      exact callOutcome_head hctx' hstatu' rest
  | head =>
    rw [seq_of_done (lineStage_skip hctx (by rw [hstatu]; decide) buf),
      recvHttpRequest_head hstatu]
    exact callOutcome_head hctx hstatu buf
  | body =>
    rw [seq_of_done (lineStage_skip hctx (by rw [hstatu]; decide) buf),
      seq_of_done (headStage_skip hctx (by rw [hstatu]; decide) buf), recvHttpRequest_body hstatu]
    exact callOutcome_body hctx hstatu buf
  | «over» =>
    rw [seq_of_done (lineStage_skip hctx (by rw [hstatu]; decide) buf),
      seq_of_done (headStage_skip hctx (by rw [hstatu]; decide) buf),
      bodyStage_skip hctx (by rw [hstatu]; decide), recvHttpRequest_over hstatu]
    exact callOutcome_done hctx hstatu buf

/-! ## 4. The loop

A call that hands a request over takes at least its line off the buffer, so the loop ends. -/

theorem lineStage_consumes {ctx ctx' : HttpContext} {buf rest : Bytes} (hctx : Open ctx)
    (hstatu : ctx.recvStatu = .line) (h : lineStage ctx buf = .done ctx' rest) :
    rest.length < buf.length := by
  rcases not_mem_or_first 10 buf with hnone | ⟨text, rest', rfl, htext⟩
  · exfalso
    by_cases hlong : maxLine < buf.length
    · have hfail := lineStage_overlong hstatu hnone hlong []
      rw [List.append_nil, h] at hfail
      cases hfail
    · rw [lineStage, recvHttpLine_incomplete hstatu hnone, if_neg hlong] at h
      cases h.symm.trans (stageOutcome_wait hctx.respStatu hstatu buf)
  · rcases lineStage_line hctx hstatu htext with ⟨e, hfail⟩ | ⟨_, -, -, hdone⟩
    · cases h.symm.trans (hfail rest')
    · obtain ⟨-, rfl⟩ := Outcome.done.inj (h.symm.trans (hdone rest'))
      simp
      omega

/-- **The loop of `OnMessage` meets the requirements of a framing loop.** -/
theorem onMessage_lawful : onMessage.Lawful Open where
  fresh := open_reSet
  resumable := requestStage_resumable.congr fun _ buf hctx => callOutcome_eq hctx buf
  consumes := by
    intro buf ctx' rest h
    have hstage : requestStage .reSet buf = .done ctx' rest :=
      (callOutcome_eq open_reSet buf).symm.trans h
    cases hline : lineStage .reSet buf with
    | done ctx mid =>
      have hctx : Open ctx := (lineStage_resumable.done open_reSet hline).1
      have hmid := lineStage_consumes open_reSet rfl hline
      rw [requestStage, seq_of_done hline] at hstage
      have htail := headStage_seq_bodyStage_resumable.done hctx hstage
      omega
    | _ =>
      rw [requestStage, Stage.seq, hline] at hstage
      cases hstage

/-- **Parsing does not depend on how the stream is cut.**  Two ways of cutting a stream into
reads give the same requests and errors and, unless one of these has stopped the loop, the same
parser state and the same unread bytes; and the loop always comes to an end. -/
theorem onMessage_cut_independent (chunks chunks' : List Bytes)
    (h : chunks.flatten = chunks'.flatten) :
    ∃ conn : HttpConn, onMessage.feed chunks = some conn ∧ onMessage.feed chunks' = some conn := by
  obtain ⟨conn, hconn, -⟩ := onMessage_lawful.exists_read onMessage_lawful.quiet_opened
    chunks.flatten
  refine ⟨conn, ?_, ?_⟩
  · rw [onMessage_lawful.feed_eq, hconn]
  · rw [onMessage_lawful.feed_eq, ← h, hconn]

/-- A request in one read, and in three. -/
theorem onMessage_cut_independent_three_reads :
    ∃ conn : HttpConn,
      onMessage.feed [ascii "GET / HTTP/1.1\r\nHost: a\r\n\r\n"] = some conn ∧
      onMessage.feed [ascii "GET / HT", ascii "TP/1.1\r\nHost: a\r", ascii "\n\r\n"] = some conn :=
  onMessage_cut_independent _ _ (by decide)

end OnlineJudge.Net
