/-
# Where a response ends

On a connection that stays open a client has nothing but the text itself to tell where one
response ends and the next one begins.  The rules of HTTP/1.1 for that are short: there is no body
after a `HEAD` request and with a status 1xx, 204 or 304, and otherwise the body is as long as
`Content-Length` says.

`WriteReponse` (`net/http.hpp`) looks at neither the method nor the status: it writes whatever body
there is, and a length only for a body that is not empty.  So the text of a response can be
followed by bytes that no client expects, and a response without a body by a client that waits.

* `readResponses`: a client by these rules, one response for each request.
* `readResponse_text`: what it makes of one response of the server, and of what follows.
* `selfDelimiting_iff`: the client follows the connection exactly when each response has an empty
  body if it must not have one, and a body that is not empty if it may.
-/
import OnlineJudge.Net.ResponseText

namespace OnlineJudge.Net

open ByteString

/-! ## 1. A client

This is the client's side, written from the rules of the protocol and not from the source.  It knows
the methods of its requests and has the text of the connection. -/

namespace Client

/-- A response without a body, by the method of its request and its status. -/
def noBody (method : Bytes) (statu : Int) : Bool :=
  method = ascii "HEAD" ∨ (100 ≤ statu ∧ statu < 200) ∨ statu = 204 ∨ statu = 304

/-- The name of a field, which is compared without regard to case. -/
def fieldName (line : Bytes) : Bytes := (line.takeWhile (· != 58)).map toLower

/-- A blank in a field. -/
def isBlank (b : UInt8) : Bool := b == 32 || b == 9

/-- The value of a field, without the blanks around it. -/
def fieldValue (line : Bytes) : Bytes :=
  (((line.dropWhile (· != 58)).tail.dropWhile isBlank).reverse.dropWhile isBlank).reverse

def contentLength (fields : List Bytes) : Option Nat := do
  let line ← fields.find? fun line => fieldName line == ascii "content-length"
  let value := fieldValue line
  if value ≠ [] ∧ value.all isDigit then some (digitsValue value) else none

/-- The status of a status line, behind the first blank. -/
def readStatu (line : Bytes) : Option Int := strtol (line.dropWhile (· != 32))

/-- One response, and the bytes behind it.  Without a length where there may be a body, it cannot
be read. -/
def readResponse (method : Bytes) (s : Bytes) : Option ((Int × Bytes) × Bytes) := do
  let headerEnd ← find crlfcrlf s
  let rest := s.drop (headerEnd + crlfcrlf.length)
  match splitLines (s.take headerEnd) with
  | [] => none
  | statusLine :: fields =>
    let statu ← readStatu statusLine
    if noBody method statu then return ((statu, []), rest)
    else
      let length ← contentLength fields
      if length ≤ rest.length then return ((statu, rest.take length), rest.drop length) else none

/-- One response for each request, and nothing behind the last. -/
def readResponses : List Bytes → Bytes → Option (List (Int × Bytes))
  | [], s => if s = [] then some [] else none
  | method :: methods, s => do
    let (rsp, rest) ← readResponse method s
    let rsps ← readResponses methods rest
    return rsp :: rsps

end Client

/-! ## 2. What the server writes

A response as a handler leaves it, under the conditions that make its text a block of lines.
`Framed` is the condition of the theorem, and it looks at the response and the method only. -/

/-- A request with the response that is handed to `WriteReponse` for it, and the order in which
that finds the fields. -/
structure Answered where
  req : HttpRequest
  rsp : HttpResponse
  heads : List (Bytes × Bytes)

/-- The field is a `Content-Length`. -/
def SetsLength (head : Bytes × Bytes) : Prop := Client.fieldName head.1 = ascii "content-length"

instance (head : Bytes × Bytes) : Decidable (SetsLength head) := inferInstanceAs (Decidable (_ = _))

namespace Answered

variable {ε : Type} (server : SiteServer ε) (x : Answered)

/-- What `WriteReponse` sends. -/
def text : Bytes := SiteServer.responseTextIn x.req (server.completeHeaders x.req x.rsp) x.heads

/-- A response on a connection that is kept: the fields fit on their lines, and neither the
handler nor the settings of the server have written a `Content-Length`. -/
structure Kept : Prop where
  keepAlive : x.req.close = false
  version : InLine x.req.version ∧ 32 ∉ x.req.version
  fields : server.CleanFields x.rsp
  noLength : ∀ head ∈ x.rsp.headers.entries ++ server.defaultHeaders.entries, ¬ SetsLength head
  order : x.heads.Perm (server.completeHeaders x.req x.rsp).headers.entries

/-- The response has no body. -/
def noBody : Bool := Client.noBody x.req.method x.rsp.statu

/-- What a client is to read. -/
def expected : Int × Bytes := (x.rsp.statu, if x.noBody then [] else x.rsp.body)

/-- **The condition**: the response has a body exactly when it may have one.  An empty body where
there may be one is as bad as the reverse, since no length is written for it. -/
def Framed : Prop := x.rsp.body = [] ↔ x.noBody = true

end Answered

/-! ## 3. What a client makes of one response

The client finds the end of the header block where it was written, for any order of the fields, and
the length in the one field that has it.  Whether the body behind it has that length is what
`Framed` says. -/

namespace Client

/-- A name that has a colon in it is read up to that. -/
theorem fieldName_fieldLine (head : Bytes × Bytes) :
    fieldName (SiteServer.fieldLine head) = fieldName head.1 := by
  have htake : ∀ name : Bytes, (name ++ 58 :: (32 :: head.2)).takeWhile (· != 58) =
      name.takeWhile (· != 58) := by
    intro name
    induction name with
    | nil => rfl
    | cons b name ih => simp only [List.cons_append, List.takeWhile_cons, ih]
  have hline : SiteServer.fieldLine head = head.1 ++ 58 :: (32 :: head.2) := by
    have hcolon : ascii ": " = [58, 32] := rfl
    simp only [SiteServer.fieldLine, hcolon, List.append_assoc, List.cons_append, List.nil_append]
  rw [fieldName, fieldName, hline, htake]

theorem dropWhile_isBlank_digits {ds : Bytes} (h : ∀ b ∈ ds, isDigit b = true) :
    ds.dropWhile isBlank = ds := by
  cases ds with
  | nil => rfl
  | cons b ds =>
    have hdigit := h b List.mem_cons_self
    refine List.dropWhile_cons_of_neg ?_
    intro hblank
    simp only [isBlank, Bool.or_eq_true, beq_iff_eq] at hblank
    rcases hblank with rfl | rfl
    · exact absurd hdigit (by decide)
    · exact absurd hdigit (by decide)

theorem fieldValue_contentLength (n : Nat) :
    fieldValue (SiteServer.fieldLine (ascii "Content-Length", decimal n)) = decimal n := by
  have hdigits : ∀ b ∈ decimal n, isDigit b = true := fun b hb => isDigit_of_mem_decimal hb
  have hname : (SiteServer.fieldLine (ascii "Content-Length", decimal n)).dropWhile (· != 58) =
      58 :: 32 :: decimal n := by
    have hletters : ∀ b ∈ ascii "Content-Length", (b != 58) = true := by decide +kernel
    rw [SiteServer.fieldLine, List.append_assoc, List.dropWhile_append_of_pos hletters]
    rfl
  have hblank : (32 :: decimal n).dropWhile isBlank = decimal n := by
    rw [List.dropWhile_cons_of_pos rfl, dropWhile_isBlank_digits hdigits]
  rw [fieldValue, hname, List.tail_cons, hblank,
    dropWhile_isBlank_digits fun b hb => hdigits b (List.mem_reverse.mp hb), List.reverse_reverse]

theorem readStatu_statusLine {req : HttpRequest} (h : 32 ∉ req.version) (rsp : HttpResponse) :
    readStatu (SiteServer.statusLine req rsp) = some rsp.statu := by
  have hblank : ascii " " = [32] := rfl
  have hversion : ∀ b ∈ req.version, (b != 32) = true := by
    intro b hb
    rw [bne_iff_ne]
    rintro rfl
    exact h hb
  have hdrop : (SiteServer.statusLine req rsp).dropWhile (· != 32) =
      [32] ++ (decimalInt rsp.statu ++ (32 :: Util.statuDesc rsp.statu)) := by
    simp only [SiteServer.statusLine, hblank, List.append_assoc]
    rw [List.dropWhile_append_of_pos hversion]
    rfl
  have hend : ∀ b ∈ (32 :: Util.statuDesc rsp.statu).head?, isDigit b = false := by
    intro b hb
    obtain rfl := Option.some.inj hb
    rfl
  rw [readStatu, hdrop]
  exact strtol_decimalInt (by decide +kernel) hend rsp.statu

end Client

namespace Answered

open Client SiteServer

variable {ε : Type} {server : SiteServer ε} {x : Answered}

/-- A `Content-Length` in the response is the one that `WriteReponse` has added. -/
theorem Kept.contentLength_of_mem (h : x.Kept server) {head : Bytes × Bytes}
    (hmem : head ∈ x.heads) (hlength : SetsLength head) :
    x.rsp.body ≠ [] ∧ head = (ascii "Content-Length", decimal x.rsp.body.length) := by
  have hmem' := h.order.mem_iff.mp hmem
  rcases (server.completeHeaders_spec x.req x.rsp).1.added head hmem' with hold | hadded
  · exact absurd hlength (h.noLength head (List.mem_append_left _ hold))
  · cases hadded with
    | default _ hdefault =>
      exact absurd hlength (h.noLength head (List.mem_append_right _ hdefault))
    | contentLength hbody => exact ⟨hbody, rfl⟩
    | close | keepAlive =>
      exact absurd hlength (by unfold SetsLength; decide)
    | contentType =>
      exact absurd hlength (by unfold SetsLength; decide)
    | location =>
      have hlocation : ¬ SetsLength (ascii "Location", []) := by unfold SetsLength; decide
      exact absurd hlength hlocation

/-- A client reads the length of a body that is not empty, and no length otherwise. -/
theorem Kept.contentLength (h : x.Kept server) :
    Client.contentLength (x.heads.map fieldLine) =
      if x.rsp.body = [] then none else some x.rsp.body.length := by
  have hfound : ∀ line ∈ x.heads.map fieldLine,
      (fieldName line == ascii "content-length") = true →
      x.rsp.body ≠ [] ∧ line = fieldLine (ascii "Content-Length", decimal x.rsp.body.length) := by
    intro line hmem hname
    obtain ⟨head, hhead, rfl⟩ := List.mem_map.mp hmem
    rw [beq_iff_eq, fieldName_fieldLine] at hname
    obtain ⟨hbody, rfl⟩ := h.contentLength_of_mem hhead hname
    exact ⟨hbody, rfl⟩
  unfold Client.contentLength
  cases hfind : (x.heads.map fieldLine).find? fun line =>
      fieldName line == ascii "content-length" with
  | none =>
    have hempty : x.rsp.body = [] := by
      by_contra hbody
      obtain ⟨val, hval⟩ := HttpResponse.hasHeader_iff.mp
        ((server.completeHeaders_spec x.req x.rsp).2 hbody)
      have hmem := List.mem_map_of_mem (f := fieldLine) (h.order.mem_iff.mpr hval)
      have hname : (fieldName (fieldLine (ascii "Content-Length", val)) ==
          ascii "content-length") = true := by
        rw [beq_iff_eq, fieldName_fieldLine]
        rfl
      exact List.find?_eq_none.mp hfind _ hmem hname
    rw [if_pos hempty]
    rfl
  | some line =>
    have hname : (fieldName line == ascii "content-length") = true := List.find?_some
      (p := fun line => fieldName line == ascii "content-length") hfind
    obtain ⟨hbody, rfl⟩ := hfound line (List.mem_of_find?_eq_some hfind) hname
    have hdigits : (decimal x.rsp.body.length).all isDigit = true :=
      List.all_eq_true.mpr fun b hb => isDigit_of_mem_decimal hb
    have hvalue := fieldValue_contentLength x.rsp.body.length
    simp only [Option.bind_eq_bind, Option.bind_some, hvalue, if_neg hbody]
    rw [if_pos ⟨decimal_ne_nil _, hdigits⟩, digitsValue_decimal]

/-- **What a client makes of one response**, with anything behind it. -/
theorem Kept.readResponse_text (h : x.Kept server) (rest : Bytes) :
    readResponse x.req.method (x.text server ++ rest) =
      if x.noBody then some ((x.rsp.statu, []), x.rsp.body ++ rest)
      else if x.rsp.body = [] then none
      else some ((x.rsp.statu, x.rsp.body), rest) := by
  have hadds := (server.completeHeaders_spec x.req x.rsp).1
  have hlines := h.fields.isLine h.version.1 h.order
  have hne : statusLine x.req (server.completeHeaders x.req x.rsp) :: x.heads.map fieldLine ≠ [] :=
    List.cons_ne_nil _ _
  have htext : x.text server ++ rest =
      joinLines (statusLine x.req (server.completeHeaders x.req x.rsp) :: x.heads.map fieldLine) ++
        (crlfcrlf ++ (x.rsp.body ++ rest)) := by
    rw [text, responseTextIn_eq, hadds.body]
    simp only [List.append_assoc]
  have hdrop : ∀ block t : Bytes, (block ++ (crlfcrlf ++ t)).drop
      (block.length + crlfcrlf.length) = t := by
    intro block t
    rw [← List.append_assoc, ← List.length_append, List.drop_left]
  have hstatu := readStatu_statusLine h.version.2 (server.completeHeaders x.req x.rsp)
  rw [hadds.statu] at hstatu
  have hlength := h.contentLength
  rw [htext, readResponse, find_block hne hlines]
  simp only [Option.bind_eq_bind, Option.bind_some, List.take_left, hdrop,
    splitLines_joinLines hne hlines, hstatu, hlength]
  rw [noBody]
  cases Client.noBody x.req.method x.rsp.statu with
  | true => rfl
  | false =>
    by_cases hbody : x.rsp.body = []
    · simp only [hbody, if_true, Bool.false_eq_true, if_false, Option.bind_none]
    · have hfits : x.rsp.body.length ≤ (x.rsp.body ++ rest).length := by
        rw [List.length_append]
        exact Nat.le_add_right _ _
      simp only [if_neg hbody, Bool.false_eq_true, if_false, Option.bind_some, if_pos hfits,
        List.take_left, List.drop_left]
      rfl

/-- A response that is framed is read as it is. -/
theorem Kept.readResponse_framed (h : x.Kept server) (hframed : x.Framed) (rest : Bytes) :
    readResponse x.req.method (x.text server ++ rest) = some (x.expected, rest) := by
  rw [h.readResponse_text, expected]
  cases hno : x.noBody with
  | true => rw [hframed.mpr hno, List.nil_append, if_pos rfl, if_pos rfl]
  | false =>
    have hbody : x.rsp.body ≠ [] := fun hempty => by
      rw [hframed.mp hempty] at hno
      cases hno
    simp only [Bool.false_eq_true, if_false, if_neg hbody]

/-- One that is read as it is, with nothing behind it, is framed. -/
theorem Kept.framed (h : x.Kept server)
    (hread : readResponses [x.req.method] (x.text server) = some [x.expected]) : x.Framed := by
  have htext := h.readResponse_text []
  rw [List.append_nil, List.append_nil] at htext
  rw [readResponses, htext] at hread
  unfold Framed
  cases hno : x.noBody with
  | true =>
    by_cases hbody : x.rsp.body = []
    · exact ⟨fun _ => rfl, fun _ => hbody⟩
    · simp [hno, readResponses, hbody] at hread
  | false =>
    by_cases hbody : x.rsp.body = []
    · simp [hno, hbody] at hread
    · exact ⟨fun hempty => absurd hempty hbody, nofun⟩

end Answered

/-! ## 4. A connection

The condition is asked for at every moment, so that a client that reads too much of one response is
not excused by the next one. -/

section

open Client Answered

variable {ε : Type} {server : SiteServer ε}

/-- What has been written on a connection. -/
def written (server : SiteServer ε) (xs : List Answered) : Bytes :=
  (xs.map (Answered.text server)).flatten

/-- The methods of the requests, in order. -/
def methods (xs : List Answered) : List Bytes := xs.map fun x => x.req.method

/-- At every moment, a client has read one response for each request, with its status and its body,
and waits for nothing. -/
def SelfDelimiting (server : SiteServer ε) (xs : List Answered) : Prop :=
  ∀ ys, ys <+: xs → readResponses (methods ys) (written server ys) = some (ys.map expected)

/-- A client that has read responses that are framed goes on with what is behind them. -/
theorem readResponses_append {xs : List Answered} (h : ∀ x ∈ xs, x.Kept server)
    (hframed : ∀ x ∈ xs, x.Framed) (ms : List Bytes) (rest : Bytes) :
    readResponses (methods xs ++ ms) (written server xs ++ rest) =
      (readResponses ms rest).map (xs.map expected ++ ·) := by
  induction xs with
  | nil => simp [methods, written]
  | cons x xs ih =>
    have hx := (h x List.mem_cons_self).readResponse_framed (hframed x List.mem_cons_self)
      (written server xs ++ rest)
    have hxs := ih (fun y hy => h y (List.mem_cons_of_mem _ hy))
      fun y hy => hframed y (List.mem_cons_of_mem _ hy)
    have htext : written server (x :: xs) ++ rest =
        x.text server ++ (written server xs ++ rest) := by
      simp only [written, List.map_cons, List.flatten_cons, List.append_assoc]
    change readResponses (x.req.method :: (methods xs ++ ms)) (written server (x :: xs) ++ rest) = _
    rw [htext, readResponses, hx]
    simp only [Option.bind_eq_bind, Option.bind_some, hxs]
    cases readResponses ms rest with
    | none => rfl
    | some rsps => rfl

/-- **A client follows the connection exactly when every response is framed.**  For any list of
requests and responses on one connection: at every moment the client has read one response for each
request, as it was meant, if and only if each has a body exactly when it may have one. -/
theorem selfDelimiting_iff (server : SiteServer ε) (xs : List Answered)
    (h : ∀ x ∈ xs, x.Kept server) : SelfDelimiting server xs ↔ ∀ x ∈ xs, x.Framed := by
  constructor
  · intro hself
    -- by induction on what has been written so far
    induction xs using List.reverseRecOn with
    | nil => nofun
    | append_singleton xs x ih =>
      have hkept : ∀ y ∈ xs, y.Kept server := fun y hy => h y (List.mem_append_left _ hy)
      have hframed := ih hkept fun ys hys => hself ys (hys.trans (List.prefix_append _ _))
      have hread := hself (xs ++ [x]) List.prefix_rfl
      have hsplit : written server (xs ++ [x]) = written server xs ++ x.text server := by
        simp [written]
      rw [hsplit, methods, List.map_append, List.map_append, ← methods,
        readResponses_append hkept hframed] at hread
      have hlast : (readResponses [x.req.method] (x.text server)) = some [x.expected] := by
        obtain ⟨rsps, hrsps, heq⟩ := Option.map_eq_some_iff.mp hread
        rw [List.map_singleton] at hrsps
        rw [hrsps, List.append_cancel_left heq]
        rfl
      intro y hy
      rcases List.mem_append.mp hy with hy | hy
      · exact hframed y hy
      · obtain rfl := List.mem_singleton.mp hy
        exact (h y (List.mem_append_right _ hy)).framed hlast
  · rintro hframed ys ⟨zs, rfl⟩
    have hread := readResponses_append (fun y hy => h y (List.mem_append_left _ hy))
      (fun y hy => hframed y (List.mem_append_left _ hy)) [] []
    rw [List.append_nil, List.append_nil] at hread
    rw [hread]
    simp [readResponses]

end

/-! ## 5. Two connections

One that a client can follow, and one with the two faults that there are. -/

/-- A server without settings. -/
def plainServer : SiteServer Unit where
  toHttpServer := .new { isRegular := fun _ => false, readFile := fun _ body => (body, false) }
  defaultHeaders := .empty

/-- A request that asks for the connection to be kept. -/
def keepAliveRequest (method : String) : HttpRequest :=
  { HttpRequest.reSet with
    method := ascii method
    headers := StrMap.empty.insert (ascii "Connection") (ascii "keep-alive") }

/-- A request that is answered with a body. -/
def answeredWith (method : String) (body : Bytes) : Answered where
  req := keepAliveRequest method
  rsp := { HttpResponse.ofStatu 200 with body := body }
  heads := (plainServer.completeHeaders (keepAliveRequest method)
    { HttpResponse.ofStatu 200 with body := body }).headers.entries

theorem kept_answeredWith {method : String} (hclose : (keepAliveRequest method).close = false)
    (body : Bytes) : (answeredWith method body).Kept plainServer where
  keepAlive := hclose
  version := by
    have hversion : InLine (ascii "HTTP/1.1") ∧ 32 ∉ ascii "HTTP/1.1" := by decide
    exact hversion
  fields := ⟨nofun, nofun, nofun⟩
  noLength := nofun
  order := List.Perm.refl _

theorem selfDelimiting_iff_two :
    SelfDelimiting plainServer [answeredWith "GET" [104, 105], answeredWith "HEAD" []] := by
  have hkept : ∀ x ∈ [answeredWith "GET" [104, 105], answeredWith "HEAD" []],
      x.Kept plainServer := by
    simp only [List.mem_cons, List.not_mem_nil, or_false, forall_eq_or_imp, forall_eq]
    exact ⟨kept_answeredWith (by decide) _, kept_answeredWith (by decide) _⟩
  refine (selfDelimiting_iff plainServer _ hkept).mpr ?_
  simp only [List.mem_cons, List.not_mem_nil, or_false, forall_eq_or_imp, forall_eq]
  unfold Answered.Framed
  decide

/-- A handler that leaves the body empty, and a file that is asked for with `HEAD`: the client waits
for a length after the first, and finds bytes it does not expect after the second. -/
theorem not_selfDelimiting :
    (answeredWith "GET" []).Kept plainServer ∧
      ¬ SelfDelimiting plainServer [answeredWith "GET" []] ∧
      (answeredWith "HEAD" [104, 105]).Kept plainServer ∧
      ¬ SelfDelimiting plainServer [answeredWith "HEAD" [104, 105]] := by
  refine ⟨kept_answeredWith (by decide) _, fun h => ?_, kept_answeredWith (by decide) _,
    fun h => ?_⟩
  · exact absurd (h _ List.prefix_rfl) (by decide +kernel)
  · exact absurd (h _ List.prefix_rfl) (by decide +kernel)

end OnlineJudge.Net
