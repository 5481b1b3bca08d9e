/-
# Spellings of header lines

The names of header fields may be written in any case, and any spaces and tabs, or none, may stand
between the colon and the value.  `ParseHttpHead` cuts a line at the first `: ` and looks the names
up as they are written, in four places: `Content-Length` for the body, `Connection` for
`Close`, `Content-Type` for the files, `Authorization` for `AuthenticateRequest`.

* `stage_readable`: what the parser emits if it can cut every line (`SpelledRequest.received`).
* `stage_unreadable`: otherwise it refuses the request.
* `spellings_alike_iff`: when two spellings of a request, at the same place of two streams, are
  emitted alike.
-/
import OnlineJudge.Auth.Jwt
import OnlineJudge.Lib.FieldLine
import OnlineJudge.Net.Multipart
import OnlineJudge.Net.OnMessage

namespace OnlineJudge.Net

open ByteString ByteString.FieldLine Framer HttpContext

/-! ## 1. Requests and their spellings

A spelling is a list of lines, and two spellings are of one request if their lines agree up to what
the protocol leaves free.  Whether a spelling can be read, and whether it is taken whole, is said of
its lines. -/

/-- The text of a length: digits, and perhaps blanks behind them. -/
def LengthText (n : Nat) (val : Bytes) : Prop :=
  ∃ ds post, val = ds ++ post ∧ ds ≠ [] ∧ (∀ b ∈ ds, isDigit b = true) ∧ digitsValue ds = n ∧
    ∀ b ∈ post, b = 32 ∨ b = 9

/-- A request with its header lines as they are written.  `Content-Length` is there if there is a
body, and gives its length. -/
structure SpelledRequest where
  requestLine : Bytes
  fields : List FieldLine
  body : Bytes
  line_ok : LineOk (requestLine ++ [13, 10])
  line_newline : 10 ∉ requestLine
  length_ok : ∀ l ∈ fields, l.named (ascii "Content-Length") = true → LengthText body.length l.value
  framed : body ≠ [] → ∃ l ∈ fields, l.named (ascii "Content-Length") = true
  contentType_once : (fields.filter (named (ascii "Content-Type"))).length ≤ 1
  authorization_once : (fields.filter (named (ascii "Authorization"))).length ≤ 1
  /-- no `std::string` is longer -/
  body_length : body.length < 2 ^ 63

/-- The other request has the same lines, up to the case of the names and the blanks behind the
colons. -/
structure Respelled (r r' : SpelledRequest) : Prop where
  requestLine : r.requestLine = r'.requestLine
  fields : List.Forall₂ Same r.fields r'.fields
  body : r.body = r'.body

namespace SpelledRequest

/-- The request on the wire, and what comes behind it. -/
def serialize (r : SpelledRequest) (rest : Bytes) : Bytes :=
  r.requestLine ++ 13 :: 10 ::
    ((r.fields.map text).flatMap (· ++ [13, 10]) ++ 13 :: 10 :: (r.body ++ rest))

/-- Requests on the wire. -/
def stream (rs : List SpelledRequest) (rest : Bytes) : Bytes := rs.foldr serialize rest

/-- The lines are not longer than the parser takes them, and it can cut every header line. -/
structure Readable (r : SpelledRequest) : Prop where
  line : r.requestLine.length + 2 ≤ maxLine
  fields : ∀ l ∈ r.fields, l.text.length + 2 ≤ maxLine ∧ l.readable = true

/-- The parser takes the whole request off the stream: it can cut the lines, and if there is a body
it recognises the length. -/
structure Taken (r : SpelledRequest) : Prop where
  readable : r.Readable
  length : r.body ≠ [] → reads (ascii "Content-Length") r.fields = true

/-- Among the lines that the parser reads as `Connection`, the first keeps the connection. -/
def keepsAlive (r : SpelledRequest) : Bool :=
  (r.fields.find? (exact (ascii "Connection"))).any fun l =>
    l.blanks == [32] && l.value == ascii "keep-alive"

end SpelledRequest

/-! ## 2. What is emitted

The headers of the parser are a map from names as they are written, and each value has the blanks in
front of it that were there beyond the first.  What each lookup finds follows from the lines. -/

/-- The files that a content type and a body give. -/
def filesIn (contentType body : Bytes) : StrMap File :=
  if (find (ascii "multipart/form-data") contentType).isSome then
    (parts contentType body).foldl (Part.put body) .empty
  else .empty

namespace SpelledRequest

/-- The request with what the request line says. -/
def target (r : SpelledRequest) : HttpRequest :=
  match parseHttpLine .reSet (r.requestLine ++ [13, 10]) with
  | .ok (ctx, _) => ctx.request
  | .error _ => .reSet

/-- The body bytes that the parser takes for the body. -/
def gets (r : SpelledRequest) : Bytes :=
  if reads (ascii "Content-Length") r.fields then r.body else []

/-- The headers as the parser has them. -/
def headers (r : SpelledRequest) : StrMap Bytes :=
  (r.fields.filterMap cut).foldl (fun m kv => m.insert kv.1 kv.2) .empty

/-- The files of the request, as the parser finds them. -/
def files (r : SpelledRequest) : StrMap File :=
  if r.gets = [] then .empty
  else ((r.headers.find? (ascii "Content-Type")).map (filesIn · r.gets)).getD .empty

/-- What the parser emits. -/
def received (r : SpelledRequest) : HttpRequest :=
  { r.target with headers := r.headers, body := r.gets, files := r.files }

theorem target_spec (r : SpelledRequest) :
    parseHttpLine .reSet (r.requestLine ++ [13, 10]) = .ok (⟨200, .line, r.target⟩, true) ∧
      r.target.headers = .empty ∧ r.target.body = [] ∧ r.target.files = .empty := by
  obtain ⟨line, hline, hquery⟩ := r.line_ok
  obtain ⟨request, hparse, hheaders, hbody, hfiles⟩ : ∃ request,
      parseHttpLine .reSet (r.requestLine ++ [13, 10]) = .ok (⟨200, .line, request⟩, true) ∧
        request.headers = .empty ∧ request.body = [] ∧ request.files = .empty := by
    unfold parseHttpLine
    rw [matchRequestLine_of_matches hline]
    simp only
    rcases parseQuery_cases _ (Util.split line.query (ascii "&")) with
      ⟨params, heq, -⟩ | ⟨ctx', -, hnot⟩
    · exact ⟨_, heq, rfl, rfl, rfl⟩
    · exact absurd hquery hnot
  have htarget : r.target = request := by rw [target, hparse]
  rw [htarget]
  exact ⟨hparse, hheaders, hbody, hfiles⟩

/-- **A header of the request**, as the parser has it. -/
theorem find_headers (r : SpelledRequest) (name : Bytes) (hname : 58 ∉ name) :
    r.headers.find? name = (r.fields.find? (exact name)).map seen := by
  rw [headers, StrMap.find?_foldl_insert, lookup_cut hname]
  rfl

theorem spaced_of_exact {l : FieldLine} {name : Bytes} (h : l.exact name = true) :
    l.spaced = true := by
  rw [exact, Bool.and_eq_true] at h
  exact h.2

/-- The blanks between the first one and the value are blanks. -/
theorem tail_blank {l : FieldLine} {b : UInt8} (hb : b ∈ l.blanks.tail) : b = 32 ∨ b = 9 :=
  l.blanks_ok b (List.mem_of_mem_tail hb)

/-- **The length that the parser reads** is that of the bytes it takes. -/
theorem contentLength_eq (r : SpelledRequest) (req : HttpRequest) (h : req.headers = r.headers) :
    req.contentLength = .ok r.gets.length := by
  have hlookup := r.find_headers (ascii "Content-Length") (by decide)
  have hreads := find_exact_isSome (ascii "Content-Length") r.fields
  rw [HttpRequest.contentLength, h, hlookup, gets, ← hreads]
  cases hfind : r.fields.find? (exact (ascii "Content-Length")) with
  | none => rfl
  | some l =>
    have hexact : l.exact (ascii "Content-Length") = true := List.find?_some hfind
    obtain ⟨ds, post, hval, hne, hdigits, hvalue, hpost⟩ :=
      r.length_ok l (List.mem_of_find?_eq_some hfind) (named_of_exact hexact)
    have hblank : ∀ b ∈ l.blanks.tail, isSpace b = true := by
      intro b hb
      rcases tail_blank hb with rfl | rfl <;> rfl
    have hend : ∀ b ∈ post, isDigit b = false := by
      intro b hb
      rcases hpost b hb with rfl | rfl <;> rfl
    have hlt := r.body_length
    have hstol : stol (l.blanks.tail ++ (ds ++ post)) = .ok (digitsValue ds : Int) :=
      stol_digits hblank hne hdigits hend (by omega)
    have hmod : ((r.body.length : Int) % 2 ^ 64).toNat = r.body.length := by omega
    simp only [Option.map_some, seen, hval, hstol, hvalue, Option.isSome_some, if_true]
    exact congrArg Except.ok hmod

/-- A complete body of a request without files so far. -/
theorem parseIfMultipart_eq (req : HttpRequest) (h : req.files = .empty) :
    parseIfMultipart req = .ok { req with files :=
      ((req.headers.find? (ascii "Content-Type")).map (filesIn · req.body)).getD .empty } := by
  have hnone : { req with files := .empty } = req := by rw [← h]
  unfold parseIfMultipart HttpRequest.isMultipartFormData
  cases hfind : req.headers.find? (ascii "Content-Type") with
  | none =>
    rw [Option.map_none, Option.getD_none, hnone]
    rfl
  | some val =>
    rw [Option.map_some, Option.getD_some, filesIn]
    simp only
    by_cases hmulti : (find (ascii "multipart/form-data") val).isSome = true
    · have hval : req.getHeader (ascii "Content-Type") = val := by
        rw [HttpRequest.getHeader, hfind, Option.getD_some]
      rw [if_pos hmulti, if_pos hmulti, parseMultipartBody_eq, hval, h]
    · rw [if_neg hmulti, if_neg hmulti, hnone]

/-- **The body is read**, as many bytes of it as the parser takes for it, and with the files that
these have. -/
theorem recvHttpBody_gets (r : SpelledRequest) (left : Bytes) :
    recvHttpBody ⟨200, .body, { r.target with headers := r.headers }⟩ (r.gets ++ left) =
      .ok (⟨200, .over, r.received⟩, left) := by
  obtain ⟨-, -, hbody, hfiles⟩ := r.target_spec
  have hlength := r.contentLength_eq { r.target with headers := r.headers } rfl
  by_cases hgets : r.gets = []
  · have hreceived : r.received = { r.target with headers := r.headers } := by
      rw [received, SpelledRequest.files, if_pos hgets, hgets, ← hbody, ← hfiles]
    rw [hgets] at hlength ⊢
    rw [recvHttpBody_empty rfl hlength, hreceived]
    rfl
  · have hne : r.gets.length ≠ 0 := fun h => hgets (List.length_eq_zero_iff.mp h)
    have hle : r.gets.length ≤ r.body.length := by
      rw [gets]
      split
      · exact le_refl _
      · exact Nat.zero_le _
    have hlt := r.body_length
    have hreal : r.gets.length =
        realLen ⟨200, .body, { r.target with headers := r.headers }⟩ r.gets.length := by
      unfold realLen
      simp only [hbody, List.length_nil]
      omega
    have hreq : parseIfMultipart (addBody ⟨200, .body, { r.target with headers := r.headers }⟩
        r.gets).request = .ok r.received := by
      have hadd : (addBody ⟨200, .body, { r.target with headers := r.headers }⟩ r.gets).request =
          { r.target with headers := r.headers, body := r.gets } := by
        simp only [addBody, hbody, List.nil_append]
      have hparse := parseIfMultipart_eq
        { r.target with headers := r.headers, body := r.gets } hfiles
      rw [hadd, received, SpelledRequest.files, if_neg hgets]
      exact hparse
    exact recvHttpBody_complete rfl hlength hne hreal hreq left

/-! ## 3. One request of a stream

A request that can be read is emitted, but with the bytes that the parser takes for its body.
Without a `Content-Length` that it recognises these are none. -/

theorem headerOk_text (l : FieldLine) :
    HeaderOk l.text ↔ l.text.length + 2 ≤ maxLine ∧ l.readable = true := by
  have hfield : headerField (l.text ++ [13, 10]) = l.cut := headerField_line l.text
  constructor
  · intro h
    refine ⟨h.fits, ?_⟩
    rw [← cut_isSome, ← hfield]
    exact h.field
  · rintro ⟨hfits, hreadable⟩
    refine ⟨l.inLine_text.2, hfits, ?_⟩
    rw [hfield, cut_isSome]
    exact hreadable

theorem headerFields_text (fields : List FieldLine) :
    headerFields (fields.map text) = fields.filterMap cut := by
  rw [headerFields, List.filterMap_map]
  exact List.filterMap_congr fun l _ => headerField_line l.text

theorem recvHttpLine_spelled (r : SpelledRequest) (h : r.requestLine.length + 2 ≤ maxLine)
    (rest : Bytes) :
    recvHttpLine .reSet (r.requestLine ++ 13 :: 10 :: rest) =
      .ok (⟨200, .head, r.target⟩, rest) := by
  rw [recvHttpLine_crlf rfl r.line_newline h, r.target_spec.1]
  rfl

/-- **A request whose lines can be cut is emitted.**  What is left on the stream is what comes
behind the bytes that were taken for the body. -/
theorem stage_readable {r : SpelledRequest} (h : r.Readable) (rest : Bytes) :
    ∃ left, r.body ++ rest = r.gets ++ left ∧
      onMessage.stage .reSet (r.serialize rest) = .done ⟨200, .over, r.received⟩ left := by
  obtain ⟨left, hleft⟩ : ∃ left, r.body ++ rest = r.gets ++ left := by
    rw [gets]
    split
    · exact ⟨rest, rfl⟩
    · exact ⟨r.body ++ rest, rfl⟩
  have hlines : ∀ line ∈ r.fields.map text, HeaderOk line := by
    intro line hline
    obtain ⟨l, hl, rfl⟩ := List.mem_map.mp hline
    exact (headerOk_text l).mpr (h.fields l hl)
  have hhead : recvHttpHead ⟨200, .head, r.target⟩
      ((r.fields.map text).flatMap (· ++ [13, 10]) ++ 13 :: 10 :: (r.body ++ rest)) =
        .ok (⟨200, .body, { r.target with headers := r.headers }⟩, r.body ++ rest) := by
    have hempty := r.target_spec.2.1
    rw [recvHttpHead_lines rfl hlines, recvHttpHead_end rfl, headerFields_text]
    simp only [addHeaders, hempty]
    rfl
  have hrecv : recvHttpRequest .reSet (r.serialize rest) =
      .ok (⟨200, .over, r.received⟩, left) := by
    rw [serialize, recvHttpRequest_line rfl (r.recvHttpLine_spelled h.line _),
      recvFromHead_eq hhead, hleft]
    exact r.recvHttpBody_gets left
  exact ⟨left, hleft, congrArg callOutcome hrecv⟩

/-- **Any other request is refused.** -/
theorem stage_unreadable {r : SpelledRequest} (h : ¬ r.Readable) (rest : Bytes) :
    ∃ e, onMessage.stage .reSet (r.serialize rest) = .fail e := by
  by_cases hline : r.requestLine.length + 2 ≤ maxLine
  · have hnot : ¬ ∀ line ∈ r.fields.map text, HeaderOk line := by
      intro hall
      refine h ⟨hline, fun l hl => ?_⟩
      exact (headerOk_text l).mp (hall l.text (List.mem_map_of_mem hl))
    have hlines : ∀ line ∈ r.fields.map text, 10 ∉ line ∧ line ≠ [] := by
      intro line hl
      obtain ⟨l, -, rfl⟩ := List.mem_map.mp hl
      exact ⟨l.inLine_text.2, l.text_ne_nil⟩
    have hstate : (HttpContext.mk 200 .head r.target).recvStatu = .head := rfl
    obtain ⟨ctx', statu, left, hstatu, hhead⟩ :=
      recvHttpHead_refused hstate hlines hnot (13 :: 10 :: (r.body ++ rest))
    have href := refused_refuse ctx' hstatu
    have hrecv : recvHttpRequest .reSet (r.serialize rest) = .ok (ctx'.refuse statu, left) := by
      rw [serialize, recvHttpRequest_line rfl (r.recvHttpLine_spelled hline _),
        recvFromHead_eq hhead, recvHttpBody_skip (href.ne (by decide))]
    exact ⟨_, (congrArg callOutcome hrecv).trans (callOutcome_refused .head href left).1⟩
  · have hnewline : (10 : UInt8) ∉ r.requestLine ++ [13] := by simp [r.line_newline]
    have hlong : maxLine ≤ (r.requestLine ++ [13]).length := by
      rw [List.length_append, List.length_singleton]
      omega
    have href : Refused (HttpContext.reSet.refuse 414) := refused_refuse _ (by decide)
    have hrecv : ∃ left, recvHttpRequest .reSet (r.serialize rest) =
        .ok (HttpContext.reSet.refuse 414, left) := by
      rw [serialize, crlf_split, recvHttpRequest_line rfl (recvHttpLine_long rfl hnewline hlong _),
        recvFromHead_skip (href.ne (by decide)) (href.ne (by decide))]
      exact ⟨_, rfl⟩
    obtain ⟨left, hrecv⟩ := hrecv
    exact ⟨_, (congrArg callOutcome hrecv).trans (callOutcome_refused .line href left).1⟩

theorem serialize_ne_nil (r : SpelledRequest) (rest : Bytes) : r.serialize rest ≠ [] := by
  rw [serialize]
  exact List.append_ne_nil_of_right_ne_nil _ (List.cons_ne_nil _ _)

/-! ## 4. Streams

What the parser does not take for the body it takes for the next request.  So the requests in front
have to be taken whole, or the place of the request on the stream is lost. -/

/-- What is taken whole leaves the stream behind it. -/
theorem stage_taken {r : SpelledRequest} (h : r.Taken) (rest : Bytes) :
    onMessage.stage .reSet (r.serialize rest) = .done ⟨200, .over, r.received⟩ rest := by
  obtain ⟨left, hleft, hstage⟩ := stage_readable h.readable rest
  have hgets : r.gets = r.body := by
    rw [gets]
    split
    · rfl
    · rename_i hreads
      by_contra hne
      exact hreads (h.length fun hbody => hne hbody.symm)
  rw [hgets] at hleft
  rw [hstage, List.append_cancel_left hleft]

/-- The requests that are taken whole are emitted one by one, and the loop goes on behind them. -/
theorem drain_stream {rs : List SpelledRequest} (h : ∀ r ∈ rs, r.Taken) {n : Nat} {buf : Bytes}
    {conn : HttpConn} (hdrain : onMessage.drain n .reSet buf = some conn) :
    onMessage.drain (rs.length + n) .reSet (stream rs buf) =
      some ⟨rs.map (fun r => .message r.received) ++ conn.events, conn.live⟩ := by
  induction rs with
  | nil =>
    rw [List.length_nil, Nat.zero_add]
    exact hdrain
  | cons r rs ih =>
    obtain ⟨hr, hrs⟩ := List.forall_mem_cons.mp h
    have hrest := ih hrs
    have hrounds : (r :: rs).length + n = (rs.length + n) + 1 := by
      rw [List.length_cons]
      omega
    have hstep := Framer.drain_done (n := rs.length + n) (r.serialize_ne_nil (stream rs buf))
      (stage_taken hr (stream rs buf))
    have hfresh : onMessage.fresh = HttpContext.reSet := rfl
    rw [hrounds]
    refine hstep.trans ?_
    rw [hfresh, hrest]
    rfl

/-- On this stream the parser emits this request as the `k`-th, counted from 0. -/
def Emits (chunks : List Bytes) (k : Nat) (req : HttpRequest) : Prop :=
  ∃ conn : HttpConn, onMessage.feed chunks = some conn ∧ conn.events[k]? = some (.message req)

/-- **What is emitted for a request** behind requests that are taken whole. -/
theorem emits_iff {rs : List SpelledRequest} (hrs : ∀ r ∈ rs, r.Taken) (r : SpelledRequest)
    {rest : Bytes} {chunks : List Bytes} (hchunks : chunks.flatten = stream rs (r.serialize rest))
    (req : HttpRequest) :
    Emits chunks rs.length req ↔ r.Readable ∧ req = r.received := by
  obtain ⟨conn, hdrain⟩ : ∃ conn, onMessage.drain ((r.serialize rest).length + 1) .reSet
      (r.serialize rest) = some conn := onMessage_lawful.exists_drain_fresh (Nat.lt_succ_self _)
  have hfeed := onMessage_lawful.feed_of_drain (hchunks ▸ drain_stream hrs hdrain)
  have hemits : Emits chunks rs.length req ↔ conn.events[0]? = some (.message req) := by
    have hat : (rs.map (fun r => Event.message r.received) ++ conn.events)[rs.length]? =
        conn.events[0]? := by
      rw [List.getElem?_append_right (by simp), List.length_map, Nat.sub_self]
    rw [Emits, hfeed]
    constructor
    · rintro ⟨conn', hconn', hevent⟩
      obtain rfl := Option.some.inj hconn'
      exact hat.symm.trans hevent
    · intro hevent
      exact ⟨_, rfl, hat.trans hevent⟩
  rw [hemits]
  by_cases hr : r.Readable
  · obtain ⟨left, -, hstage⟩ := stage_readable hr rest
    have hstep := Framer.drain_done (n := (r.serialize rest).length) (r.serialize_ne_nil rest)
      hstage
    obtain ⟨conn', -, rfl⟩ := Option.map_eq_some_iff.mp (hstep.symm.trans hdrain)
    rw [List.getElem?_cons_zero, Option.some.injEq, Event.message.injEq]
    constructor
    · intro heq
      exact ⟨hr, heq.symm⟩
    · intro heq
      exact heq.2.symm
  · obtain ⟨e, hstage⟩ := stage_unreadable hr rest
    have hstep := Framer.drain_fail (n := (r.serialize rest).length) (r.serialize_ne_nil rest)
      hstage
    obtain rfl := Option.some.inj (hstep.symm.trans hdrain)
    rw [List.getElem?_cons_zero, Option.some.injEq]
    constructor
    · intro heq
      cases heq
    · intro heq
      exact absurd heq.1 hr

/-! ## 5. Two spellings

The two are compared field by field, with one lemma for each of the four lookups: when it makes no
difference which spelling was used. -/

/-- The blanks in front of a content type do not matter. -/
theorem filesIn_blanks {blanks : Bytes} (h : ∀ b ∈ blanks, b = 32 ∨ b = 9)
    (contentType body : Bytes) :
    filesIn (blanks ++ contentType) body = filesIn contentType body := by
  have hnot : ∀ {c : UInt8}, c ≠ 32 → c ≠ 9 → c ∉ blanks := by
    intro c hspace htab hc
    rcases h c hc with rfl | rfl
    · exact hspace rfl
    · exact htab rfl
  have hmulti : (find (ascii "multipart/form-data") (blanks ++ contentType)).isSome =
      (find (ascii "multipart/form-data") contentType).isSome := by
    have hskip : find (ascii "multipart/form-data") (blanks ++ contentType) =
        (find (ascii "multipart/form-data") contentType).map (· + blanks.length) :=
      find_append_of_not_mem (hnot (by decide) (by decide)) contentType
    rw [hskip, Option.isSome_map]
  have hboundary : boundaryOf (blanks ++ contentType) = boundaryOf contentType := by
    have hskip : find (ascii "boundary=") (blanks ++ contentType) =
        (find (ascii "boundary=") contentType).map (· + blanks.length) :=
      find_append_of_not_mem (hnot (by decide) (by decide)) contentType
    rw [boundaryOf, boundaryOf, hskip, Option.map_map]
    refine congrArg (Option.map · _) (funext fun pos => ?_)
    have hdrop : (blanks ++ contentType).drop (pos + blanks.length + 9) =
        contentType.drop (pos + 9) := by
      have hsum : pos + blanks.length + 9 = blanks.length + (pos + 9) := by omega
      rw [hsum, List.drop_length_add_append]
    exact congrArg (ascii "--" ++ ·) hdrop
  rw [filesIn, filesIn, hmulti, parts, parts, hboundary]

/-- A part of the body is a file, and the content type says that there are parts. -/
def CarriesFiles (contentType body : Bytes) : Prop :=
  (find (ascii "multipart/form-data") contentType).isSome = true ∧
    ∃ part ∈ parts contentType body, part.isFile = true

theorem foldl_put_ne_empty (body : Bytes) (parts : List Part) {files : StrMap File}
    (h : files ≠ .empty ∨ ∃ part ∈ parts, part.isFile = true) :
    parts.foldl (Part.put body) files ≠ .empty := by
  induction parts generalizing files with
  | nil =>
    rcases h with h | ⟨part, hpart, -⟩
    · exact h
    · cases hpart
  | cons first parts ih =>
    refine ih ?_
    by_cases hfirst : first.isFile = true
    · refine Or.inl fun hempty => ?_
      have hfound := congrArg (StrMap.find? · first.header.name) hempty
      simp only [Part.put, if_pos hfirst, StrMap.find?_set, if_true] at hfound
      cases hfound
    · rw [Part.put, if_neg hfirst]
      rcases h with h | ⟨part, hpart, hfile⟩
      · exact Or.inl h
      · rcases List.mem_cons.mp hpart with rfl | hpart
        · exact absurd hfile hfirst
        · exact Or.inr ⟨part, hpart, hfile⟩

theorem foldl_put_empty (body : Bytes) {parts : List Part} {files : StrMap File}
    (h : ∀ part ∈ parts, ¬ part.isFile = true) : parts.foldl (Part.put body) files = files := by
  induction parts with
  | nil => rfl
  | cons first parts ih =>
    obtain ⟨hfirst, hparts⟩ := List.forall_mem_cons.mp h
    rw [List.foldl_cons, Part.put, if_neg hfirst, ih hparts]

/-- **When a body has files**: when some part of it is one. -/
theorem filesIn_ne_empty_iff {contentType body : Bytes} :
    filesIn contentType body ≠ .empty ↔ CarriesFiles contentType body := by
  rw [filesIn, CarriesFiles]
  by_cases hmulti : (find (ascii "multipart/form-data") contentType).isSome = true
  · rw [if_pos hmulti]
    constructor
    · intro hne
      refine ⟨hmulti, ?_⟩
      by_contra hnone
      exact hne (foldl_put_empty body fun part hpart hfile => hnone ⟨part, hpart, hfile⟩)
    · intro hfiles
      exact foldl_put_ne_empty body _ (Or.inr hfiles.2)
  · rw [if_neg hmulti]
    constructor
    · intro hne
      exact absurd rfl hne
    · intro hfiles
      exact absurd hfiles.1 hmulti

/-- The files are those of the value, whatever blanks stand in front of it. -/
theorem files_eq (r : SpelledRequest) :
    r.files =
      if r.gets = [] ∨ reads (ascii "Content-Type") r.fields = false then .empty
      else ((valueOf (ascii "Content-Type") r.fields).map (filesIn · r.gets)).getD .empty := by
  have hlookup := r.find_headers (ascii "Content-Type") (by decide)
  have hreads := find_exact_isSome (ascii "Content-Type") r.fields
  rw [SpelledRequest.files, hlookup]
  by_cases hgets : r.gets = []
  · rw [if_pos hgets, if_pos (Or.inl hgets)]
  · rw [if_neg hgets]
    cases hfind : r.fields.find? (exact (ascii "Content-Type")) with
    | none =>
      rw [hfind] at hreads
      have hno : reads (ascii "Content-Type") r.fields = false := hreads.symm
      rw [if_pos (Or.inr hno)]
      rfl
    | some l =>
      rw [hfind] at hreads
      have hnot : ¬ (r.gets = [] ∨ reads (ascii "Content-Type") r.fields = false) := by
        rw [← hreads]
        simp [hgets]
      rw [if_neg hnot, find_exact_of_once r.contentType_once hfind, Option.map_some,
        Option.map_some, Option.map_some, Option.getD_some, Option.getD_some, seen,
        filesIn_blanks fun b hb => tail_blank hb]

/-- **The decision about the connection** is the one that the lines say, as far as the parser
recognises them. -/
theorem close_received (r : SpelledRequest) : r.received.close = !r.keepsAlive := by
  have hlookup := r.find_headers (ascii "Connection") (by decide)
  have hclose : r.received.close =
      ((r.fields.find? (exact (ascii "Connection"))).map seen != some (ascii "keep-alive")) := by
    rw [← hlookup]
    rfl
  rw [hclose, keepsAlive]
  cases hfind : r.fields.find? (exact (ascii "Connection")) with
  | none => rfl
  | some l =>
    have hspaced := spaced_of_exact (List.find?_some hfind)
    have hseen : l.seen = ascii "keep-alive" ↔ l.blanks = [32] ∧ l.value = ascii "keep-alive" :=
      seen_eq_iff hspaced ⟨107, rfl, by decide⟩
    rw [Option.map_some, Option.any_some, bne, Bool.not_inj_iff, Bool.eq_iff_iff, beq_iff_eq,
      Option.some.injEq, hseen, Bool.and_eq_true, beq_iff_eq, beq_iff_eq]

end SpelledRequest

/-- The handlers find the same in two requests. -/
structure SameView (auth : HttpRequest → Option Auth.AuthInfo) (req req' : HttpRequest) : Prop where
  method : req.method = req'.method
  path : req.path = req'.path
  params : req.params = req'.params
  body : req.body = req'.body
  files : req.files = req'.files
  close : req.close = req'.close
  auth : auth req = auth req'

namespace SpelledRequest

section

variable (codec : Json.Codec) (lib : Auth.OpenSsl) (secret : Bytes) (now : Auth.Instant)

/-- **Who is authenticated**: the token behind `Bearer ` counts if it stands behind one space. -/
theorem authenticateRequest_received (r : SpelledRequest) (info : Auth.AuthInfo) :
    Auth.authenticateRequest codec lib secret r.received now = some info ↔
      plainly (ascii "Authorization") r.fields = true ∧
        ∃ token, valueOf (ascii "Authorization") r.fields = some (ascii "Bearer " ++ token) ∧
          Auth.verifyJwt codec lib secret token now = some info := by
  have hlookup : r.received.headers.find? (ascii "Authorization") =
      (r.fields.find? (exact (ascii "Authorization"))).map seen :=
    r.find_headers (ascii "Authorization") (by decide)
  rw [Auth.authenticateRequest_eq_some_iff, hlookup]
  cases hfind : r.fields.find? (exact (ascii "Authorization")) with
  | none =>
    have hplain : ¬ plainly (ascii "Authorization") r.fields = true := by
      intro hplain
      obtain ⟨l, hl, hl'⟩ := List.any_eq_true.mp hplain
      exact List.find?_eq_none.mp hfind l hl (exact_of_plain hl')
    simp [hplain]
  | some l =>
    have hspaced := spaced_of_exact (List.find?_some hfind)
    have hseen : ∀ token, l.seen = ascii "Bearer " ++ token ↔
        l.blanks = [32] ∧ l.value = ascii "Bearer " ++ token := fun token =>
      seen_eq_iff hspaced ⟨66, rfl, by decide⟩
    rw [plainly_eq r.authorization_once hfind, find_exact_of_once r.authorization_once hfind,
      beq_iff_eq, Option.map_some]
    simp only [Option.some.injEq, hseen]
    constructor
    · rintro ⟨token, ⟨hblanks, hval⟩, hverify⟩
      exact ⟨hblanks, token, hval, hverify⟩
    · rintro ⟨hblanks, token, hval, hverify⟩
      exact ⟨token, ⟨hblanks, hval⟩, hverify⟩

/-- The lines that the parser looks at are spelled alike, as far as it matters. -/
structure Aligned (r r' : SpelledRequest) : Prop where
  length : r.body ≠ [] →
    reads (ascii "Content-Length") r.fields = reads (ascii "Content-Length") r'.fields
  connection : r.keepsAlive = r'.keepsAlive
  contentType : r.body ≠ [] → reads (ascii "Content-Length") r.fields = true →
    ∀ val, valueOf (ascii "Content-Type") r.fields = some val → CarriesFiles val r.body →
      reads (ascii "Content-Type") r.fields = reads (ascii "Content-Type") r'.fields
  authorization : ∀ token info,
    valueOf (ascii "Authorization") r.fields = some (ascii "Bearer " ++ token) →
      Auth.verifyJwt codec lib secret token now = some info →
        plainly (ascii "Authorization") r.fields = plainly (ascii "Authorization") r'.fields

variable {r r' : SpelledRequest}

theorem target_eq (h : Respelled r r') : r.target = r'.target := by
  rw [target, target, h.requestLine]

/-- **The bodies** are taken alike exactly when the length is recognised in both spellings or in
neither; without a body it does not matter. -/
theorem gets_eq_iff (h : Respelled r r') :
    r.gets = r'.gets ↔
      (r.body ≠ [] →
        reads (ascii "Content-Length") r.fields = reads (ascii "Content-Length") r'.fields) := by
  rw [gets, gets, ← h.body]
  cases reads (ascii "Content-Length") r.fields <;>
    cases reads (ascii "Content-Length") r'.fields <;> simp [eq_comm]

/-- **The files**, of bodies that are read alike, are the same unless there are some, and one
spelling of the content type is recognised and the other is not. -/
theorem files_eq_iff (h : Respelled r r') (hgets : r.gets = r'.gets) :
    r.files = r'.files ↔
      (r.gets ≠ [] → ∀ val, valueOf (ascii "Content-Type") r.fields = some val →
        CarriesFiles val r.gets →
          reads (ascii "Content-Type") r.fields = reads (ascii "Content-Type") r'.fields) := by
  rw [files_eq, files_eq, ← hgets, ← valueOf_eq h.fields]
  by_cases hnil : r.gets = []
  · simp [hnil]
  cases hval : valueOf (ascii "Content-Type") r.fields with
  | none => simp
  | some val =>
    have hempty : filesIn val r.gets = .empty ↔ ¬ CarriesFiles val r.gets := by
      rw [← filesIn_ne_empty_iff, not_not]
    simp only [hnil, false_or, Option.map_some, Option.getD_some, ne_eq, not_false_eq_true,
      forall_const, Option.some.injEq, forall_eq']
    cases reads (ascii "Content-Type") r.fields <;>
      cases reads (ascii "Content-Type") r'.fields <;>
        simp [hempty, eq_comm (a := StrMap.empty)]

/-- **Who is authenticated** is the same in both unless the token verifies, and is behind one space
in one spelling and not in the other. -/
theorem auth_eq_iff (h : Respelled r r') :
    Auth.authenticateRequest codec lib secret r.received now =
        Auth.authenticateRequest codec lib secret r'.received now ↔
      ∀ token info, valueOf (ascii "Authorization") r.fields = some (ascii "Bearer " ++ token) →
        Auth.verifyJwt codec lib secret token now = some info →
          plainly (ascii "Authorization") r.fields = plainly (ascii "Authorization") r'.fields := by
  have hinfo := authenticateRequest_received codec lib secret now r
  have hinfo' := authenticateRequest_received codec lib secret now r'
  rw [← valueOf_eq h.fields] at hinfo'
  constructor
  · intro heq token info hval hverify
    rw [Bool.eq_iff_iff]
    constructor
    · intro hplain
      have hsome := (hinfo info).mpr ⟨hplain, token, hval, hverify⟩
      exact ((hinfo' info).mp (heq.symm.trans hsome)).1
    · intro hplain
      have hsome := (hinfo' info).mpr ⟨hplain, token, hval, hverify⟩
      exact ((hinfo info).mp (heq.trans hsome)).1
  · intro hplain
    refine Option.ext fun info => ?_
    rw [hinfo, hinfo']
    constructor
    · rintro ⟨hplain', token, hval, hverify⟩
      exact ⟨(hplain token info hval hverify).symm.trans hplain', token, hval, hverify⟩
    · rintro ⟨hplain', token, hval, hverify⟩
      exact ⟨(hplain token info hval hverify).trans hplain', token, hval, hverify⟩

/-- **When two spellings are received alike**: the lines that the parser looks at are aligned. -/
theorem sameView_iff (h : Respelled r r') :
    SameView (fun req => Auth.authenticateRequest codec lib secret req now) r.received r'.received ↔
      Aligned codec lib secret now r r' := by
  have htarget := target_eq h
  have hclose : r.received.close = r'.received.close ↔ r.keepsAlive = r'.keepsAlive := by
    rw [close_received, close_received, Bool.not_inj_iff]
  have hgets := gets_eq_iff h
  have hauth := auth_eq_iff codec lib secret now h
  have htaken : reads (ascii "Content-Length") r.fields = true → r.gets = r.body := by
    intro hreads
    exact if_pos hreads
  constructor
  · intro hview
    have hbody : r.gets = r'.gets := hview.body
    refine ⟨hgets.mp hbody, hclose.mp hview.close, ?_, hauth.mp hview.auth⟩
    intro hne hreads val hval hfiles
    rw [← htaken hreads] at hne hfiles
    exact (files_eq_iff h hbody).mp hview.files hne val hval hfiles
  · intro haligned
    have hbody : r.gets = r'.gets := hgets.mpr haligned.length
    have hmethod : r.target.method = r'.target.method := by rw [htarget]
    have hpath : r.target.path = r'.target.path := by rw [htarget]
    have hparams : r.target.params = r'.target.params := by rw [htarget]
    refine ⟨hmethod, hpath, hparams, hbody, ?_, hclose.mpr haligned.connection,
      hauth.mpr haligned.authorization⟩
    refine (files_eq_iff h hbody).mpr fun hne val hval hfiles => ?_
    cases hreads : reads (ascii "Content-Length") r.fields with
    | true =>
      rw [htaken hreads] at hne hfiles
      exact haligned.contentType hne hreads val hval hfiles
    | false =>
      rw [gets, hreads] at hne
      exact absurd rfl hne

/-- **Whole streams.**  If every request is taken whole in both spellings, and the spellings of each
are aligned, the two streams give requests that are alike one by one, and nothing else. -/
theorem streams_alike {rs rs' : List SpelledRequest}
    (hrs : List.Forall₂ (fun r r' => Respelled r r' ∧ Aligned codec lib secret now r r') rs rs')
    (htaken : ∀ r ∈ rs, r.Taken) (htaken' : ∀ r ∈ rs', r.Taken) {chunks chunks' : List Bytes}
    (hchunks : chunks.flatten = stream rs []) (hchunks' : chunks'.flatten = stream rs' []) :
    ∃ reqs reqs' : List HttpRequest,
      onMessage.feed chunks = some ⟨reqs.map .message, some (.reSet, [])⟩ ∧
      onMessage.feed chunks' = some ⟨reqs'.map .message, some (.reSet, [])⟩ ∧
      List.Forall₂ (SameView fun req => Auth.authenticateRequest codec lib secret req now)
        reqs reqs' := by
  have hfeed : ∀ {rs : List SpelledRequest} {chunks : List Bytes}, (∀ r ∈ rs, r.Taken) →
      chunks.flatten = stream rs [] → onMessage.feed chunks =
        some ⟨(rs.map received).map .message, some (.reSet, [])⟩ := by
    intro rs chunks hall hflat
    have hnil : onMessage.drain 1 .reSet [] = some ⟨[], some (.reSet, [])⟩ := Framer.drain_nil 0 _
    rw [onMessage_lawful.feed_of_drain (hflat ▸ drain_stream hall hnil), List.append_nil,
      List.map_map]
    rfl
  refine ⟨rs.map received, rs'.map received, hfeed htaken hchunks, hfeed htaken' hchunks', ?_⟩
  rw [List.forall₂_map_left_iff, List.forall₂_map_right_iff]
  exact hrs.imp fun r r' h => (sameView_iff codec lib secret now h.1).mpr h.2

/-- **When equivalent spellings parse alike.**  Two streams have the same number of requests in
front that are taken whole, and then two spellings `r` and `r'` of one request; what comes behind is
arbitrary, and so are the cuts.  The parser emits both, with the same method, path, parameters,
body, files, decision about the connection and authentication, if and only if it can cut all their
lines and reads `Content-Length`, `Connection`, `Content-Type` and `Authorization` in both or in
neither, where it matters. -/
theorem spellings_alike_iff {rs rs' : List SpelledRequest} (hrs : List.Forall₂ Respelled rs rs')
    (htaken : ∀ r ∈ rs, r.Taken) (htaken' : ∀ r ∈ rs', r.Taken) (h : Respelled r r')
    {rest rest' : Bytes} {chunks chunks' : List Bytes}
    (hchunks : chunks.flatten = stream rs (r.serialize rest))
    (hchunks' : chunks'.flatten = stream rs' (r'.serialize rest')) :
    (∃ req req', Emits chunks rs.length req ∧ Emits chunks' rs.length req' ∧
        SameView (fun req => Auth.authenticateRequest codec lib secret req now) req req') ↔
      r.Readable ∧ r'.Readable ∧ Aligned codec lib secret now r r' := by
  have hemits := emits_iff htaken r hchunks
  have hemits' := emits_iff htaken' r' hchunks'
  rw [← hrs.length_eq] at hemits'
  constructor
  · rintro ⟨req, req', hreq, hreq', hview⟩
    obtain ⟨hreadable, rfl⟩ := (hemits req).mp hreq
    obtain ⟨hreadable', rfl⟩ := (hemits' req').mp hreq'
    exact ⟨hreadable, hreadable', (sameView_iff codec lib secret now h).mp hview⟩
  · rintro ⟨hreadable, hreadable', haligned⟩
    exact ⟨r.received, r'.received, (hemits _).mpr ⟨hreadable, rfl⟩,
      (hemits' _).mpr ⟨hreadable', rfl⟩, (sameView_iff codec lib secret now h).mpr haligned⟩

end

/-- `Content-Length: 2`. -/
def lengthLine : FieldLine :=
  ⟨ascii "Content-Length", [32], ascii "2", by decide, by decide +kernel,
    by decide +kernel⟩

/-- `Content-Length:` with a space and a tab behind it. -/
def widerLine : FieldLine :=
  ⟨ascii "Content-Length", [32, 9], ascii "2", by decide, by decide +kernel,
    by decide +kernel⟩

/-- `content-length: 2`. -/
def lowerLine : FieldLine :=
  ⟨ascii "content-length", [32], ascii "2", by decide, by decide +kernel,
    by decide +kernel⟩

/-- `POST /judge` with a body of two bytes, and its length on this line. -/
def postSpelled (l : FieldLine)
    (h : l.named (ascii "Content-Length") = true ∧ l.value = ascii "2") : SpelledRequest where
  requestLine := ascii "POST /judge HTTP/1.1"
  fields := [l]
  body := ascii "{}"
  line_ok := by
    refine ⟨⟨ascii "POST", ascii "/judge", [], ascii "HTTP/1.1"⟩, ?_, ?_⟩
    · exact matches_of_matchRequestLine (by decide)
    · unfold QueryOk
      decide
  line_newline := by decide
  length_ok := by
    intro l' hl' _
    rw [List.mem_singleton.mp hl', h.2]
    exact ⟨ascii "2", [], rfl, by decide, by decide +kernel, rfl, by decide +kernel⟩
  framed _ := ⟨l, List.mem_singleton_self l, h.1⟩
  contentType_once := List.length_filter_le _ _
  authorization_once := List.length_filter_le _ _
  body_length := by decide

theorem respelled_postSpelled {l l' : FieldLine} (hl : Same l l')
    (h : l.named (ascii "Content-Length") = true ∧ l.value = ascii "2")
    (h' : l'.named (ascii "Content-Length") = true ∧ l'.value = ascii "2") :
    Respelled (postSpelled l h) (postSpelled l' h') :=
  ⟨rfl, .cons hl .nil, rfl⟩

/-- The header line as clients write it, with one blank more, and with a name in lower case. -/
def postPlain : SpelledRequest := postSpelled lengthLine (by decide)
def postWider : SpelledRequest := postSpelled widerLine (by decide)
def postLower : SpelledRequest := postSpelled lowerLine (by decide)

theorem readable_postSpelled {l : FieldLine}
    (h : l.named (ascii "Content-Length") = true ∧ l.value = ascii "2")
    (hl : l.text.length + 2 ≤ maxLine ∧ l.readable = true) : (postSpelled l h).Readable where
  line := by
    show (ascii "POST /judge HTTP/1.1").length + 2 ≤ maxLine
    decide
  fields := by
    intro l' hl'
    rw [List.mem_singleton.mp hl']
    exact hl

/-- Behind the same request, a request and the request with one blank more. -/
theorem spellings_alike_iff_blanks :
    (∃ req req', Emits [ascii ("POST /judge HTTP/1.1\r\nContent-Length: 2\r\n\r\n{}" ++
          "POST /judge HTTP/1.1\r\nContent-Length: 2\r\n\r\n{}")] 1 req ∧
        Emits [ascii "POST /judge HTTP/1.1\r\nContent-Length: 2\r\n\r\n{}",
          ascii "POST /judge HTTP/1.1\r\nContent-Length: \t2\r\n\r\n{}"] 1 req' ∧
        SameView (fun req => Auth.authenticateRequest Auth.sampleCodec Auth.sampleOpenSsl
          (ascii "secret") req Auth.sampleInstant) req req') ↔
      postPlain.Readable ∧ postWider.Readable ∧
        Aligned Auth.sampleCodec Auth.sampleOpenSsl (ascii "secret") Auth.sampleInstant
          postPlain postWider := by
  have htaken : ∀ r ∈ [postPlain], r.Taken := by
    intro r hr
    rw [List.mem_singleton.mp hr]
    exact ⟨readable_postSpelled _ (by decide), fun _ => rfl⟩
  have hsame : Respelled postPlain postPlain := ⟨rfl, .cons ⟨rfl, rfl⟩ .nil, rfl⟩
  have hline : Same lengthLine widerLine := ⟨rfl, rfl⟩
  have hwider : Respelled postPlain postWider := respelled_postSpelled hline _ _
  have hplain : [ascii ("POST /judge HTTP/1.1\r\nContent-Length: 2\r\n\r\n{}" ++
      "POST /judge HTTP/1.1\r\nContent-Length: 2\r\n\r\n{}")].flatten =
        stream [postPlain] (postPlain.serialize []) := by decide
  have hcut : [ascii "POST /judge HTTP/1.1\r\nContent-Length: 2\r\n\r\n{}",
      ascii "POST /judge HTTP/1.1\r\nContent-Length: \t2\r\n\r\n{}"].flatten =
        stream [postPlain] (postWider.serialize []) := by decide
  exact spellings_alike_iff Auth.sampleCodec Auth.sampleOpenSsl (ascii "secret") Auth.sampleInstant
    (.cons hsame .nil) htaken htaken hwider hplain hcut

/-- **A name in lower case loses the body**: the length is not recognised, the body is empty, and
its bytes are taken for the next request. -/
theorem spellings_not_alike :
    ¬ ∀ (codec : Json.Codec) (lib : Auth.OpenSsl) (secret : Bytes) (now : Auth.Instant)
      (r r' : SpelledRequest), Respelled r r' → ∀ (rest : Bytes) (chunks chunks' : List Bytes),
        chunks.flatten = r.serialize rest → chunks'.flatten = r'.serialize rest →
          ∃ req req', Emits chunks 0 req ∧ Emits chunks' 0 req' ∧
            SameView (fun req => Auth.authenticateRequest codec lib secret req now) req req' := by
  intro h
  have hline : Same lengthLine lowerLine := ⟨by decide, rfl⟩
  have hlow : Respelled postPlain postLower := respelled_postSpelled hline _ _
  have hplain : [postPlain.serialize []].flatten = postPlain.serialize [] := List.flatten_singleton
  have hlower : [postLower.serialize []].flatten = postLower.serialize [] := List.flatten_singleton
  obtain ⟨req, req', hreq, hreq', hview⟩ := h Auth.sampleCodec Auth.sampleOpenSsl (ascii "secret")
    Auth.sampleInstant postPlain postLower hlow [] _ _ hplain hlower
  have hnone : ∀ r ∈ ([] : List SpelledRequest), r.Taken := by simp
  have hstream : ∀ buf, stream [] buf = buf := fun _ => rfl
  obtain ⟨-, rfl⟩ := (emits_iff hnone postPlain (hplain.trans (hstream _).symm) req).mp hreq
  obtain ⟨-, rfl⟩ := (emits_iff hnone postLower (hlower.trans (hstream _).symm) req').mp hreq'
  have hbody : postPlain.gets = postLower.gets := hview.body
  exact absurd hbody (by decide)

end SpelledRequest

end OnlineJudge.Net
