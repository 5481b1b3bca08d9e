/-
# The two readers of an HTTP response

The program has an HTTP server and, apart from it, two clients: `SendHttpJson` of the judge manager
(`judge_manager.cpp`), which dispatches jobs and probes workers, and `SendHttpJson` with
`ParseHttpResponse` of the worker (`judge_worker_server.cpp`), which registers.  Each reads until
the server closes the connection, and takes apart what it has then by hand: everything up to the
first `CRLFCRLF` is the header block, from which the status is read, and the rest is the body.

`clients_read_response`: whatever the fields of a response, the order in which they are written and
the bytes of the body, both get the status and the body that the server was given.

Both ignore `Content-Length`, so the claim needs that all of the response has arrived and that
nothing follows it.  What they make of a response that is cut off is in `Judge.CutReply`.
-/
import OnlineJudge.Net.ResponseText

namespace OnlineJudge.Judge

open ByteString Net

/-! ## 1. The clients

A text without the end of a block is no response.  The status is read as a number behind the
version; if there is none, there is no response either. -/

/-- `JudgeManager::SendHttpJson`, from the end of the input on: the status and the body. -/
def sendHttpJson (raw : Bytes) : Option (Int × Bytes) := do
  let sep := ascii "\r\n\r\n"
  let p ← find sep raw
  let (_ver, hs) ← readWord (raw.take p)
  let status ← readInt hs
  return (status, raw.drop (p + sep.length))

/-- `ParseHttpResponse`: the status and the body. -/
def parseHttpResponse (raw : Bytes) : Option (Int × Bytes) := do
  let headerSep := ascii "\r\n\r\n"
  let headerEnd ← find headerSep raw
  let (_httpVersion, iss) ← readWord (raw.take headerEnd)
  let status ← readInt iss
  return (status, raw.drop (headerEnd + headerSep.length))

/-! ## 2. What they read

The block that the server writes ends where the first empty line is, whatever the body looks like.
-/

/-- The first line of the block has the status behind the version. -/
theorem readInt_block {version : Bytes} (hne : version ≠ [])
    (hversion : ∀ b ∈ version, isSpace b = false) {statu : Int}
    (hstatu : -2 ^ 31 ≤ statu ∧ statu < 2 ^ 31) (rest : Bytes) :
    ∃ hs, readWord (version ++ ascii " " ++ decimalInt statu ++ ascii " " ++ rest) =
      some (version, hs) ∧ readInt hs = some statu := by
  have hblank : ascii " " = [32] := rfl
  refine ⟨32 :: (decimalInt statu ++ 32 :: rest), ?_, ?_⟩
  · have hword : readWord (version ++ 32 :: (decimalInt statu ++ 32 :: rest)) =
        some (version, 32 :: (decimalInt statu ++ 32 :: rest)) :=
      readWord_append hne hversion rfl
    simpa only [hblank, List.append_assoc, List.cons_append, List.nil_append] using hword
  · have hend : ∀ b ∈ (32 :: rest).head?, isDigit b = false := by
      rintro b hb
      obtain rfl := Option.some.inj hb
      rfl
    have hint : readInt ([32] ++ (decimalInt statu ++ 32 :: rest)) = some statu :=
      readInt_decimalInt (by decide +kernel) hend hstatu
    exact hint

/-- A text that is a block and a body is read as the status of its first line and the body. -/
theorem sendHttpJson_block {lines : List Bytes} (hne : lines ≠ [])
    (hlines : ∀ line ∈ lines, IsLine line) {ver hs : Bytes} {status : Int}
    (hword : readWord (joinLines lines) = some (ver, hs)) (hint : readInt hs = some status)
    (body : Bytes) :
    sendHttpJson (joinLines lines ++ (crlfcrlf ++ body)) = some (status, body) := by
  have hsep : ascii "\r\n\r\n" = crlfcrlf := rfl
  have hbody : (joinLines lines ++ (crlfcrlf ++ body)).drop
      ((joinLines lines).length + crlfcrlf.length) = body := by
    rw [← List.append_assoc, ← List.length_append, List.drop_left]
  simp only [sendHttpJson, hsep, find_block hne hlines, Option.bind_eq_bind, Option.bind_some,
    List.take_left, hword, hint, hbody]
  rfl

/-- The two clients read alike, though they are written differently. -/
theorem parseHttpResponse_eq (raw : Bytes) : parseHttpResponse raw = sendHttpJson raw := rfl

/-- The block of a response begins with the version and the status. -/
theorem joinLines_statusLine (req : HttpRequest) (rsp : HttpResponse) (lines : List Bytes) :
    ∃ rest, joinLines (SiteServer.statusLine req rsp :: lines) =
      req.version ++ ascii " " ++ decimalInt rsp.statu ++ ascii " " ++ rest := by
  cases lines with
  | nil => exact ⟨Util.statuDesc rsp.statu, rfl⟩
  | cons line lines =>
    refine ⟨Util.statuDesc rsp.statu ++ crlf ++ joinLines (line :: lines), ?_⟩
    rw [joinLines_cons _ (List.cons_ne_nil _ _), SiteServer.statusLine]
    simp only [List.append_assoc]

/-- **The server and its clients agree on a response.**  Whatever order the fields come in, and
whatever bytes the body has, both of the parsers that are written against this server read the
status and the body that were handed to `WriteReponse`. -/
theorem clients_read_response {ε : Type} (server : SiteServer ε) (req : HttpRequest)
    (rsp : HttpResponse) (heads : List (Bytes × Bytes))
    (hheads : heads.Perm (server.completeHeaders req rsp).headers.entries)
    (hne : req.version ≠ []) (hversion : ∀ b ∈ req.version, isSpace b = false)
    (hstatu : -2 ^ 31 ≤ rsp.statu ∧ rsp.statu < 2 ^ 31) (hclean : server.CleanFields rsp) :
    sendHttpJson (SiteServer.responseTextIn req (server.completeHeaders req rsp) heads) =
        some (rsp.statu, rsp.body) ∧
      parseHttpResponse (SiteServer.responseTextIn req (server.completeHeaders req rsp) heads) =
        some (rsp.statu, rsp.body) := by
  have hadds := (server.completeHeaders_spec req rsp).1
  have hinLine : InLine req.version := by
    constructor
    · intro hmem
      exact absurd (hversion 13 hmem) (by decide)
    · intro hmem
      exact absurd (hversion 10 hmem) (by decide)
  have hlines := hclean.isLine hinLine hheads
  obtain ⟨rest, hblock⟩ :=
    joinLines_statusLine req (server.completeHeaders req rsp) (heads.map SiteServer.fieldLine)
  obtain ⟨hs, hword, hint⟩ := readInt_block hne hversion hstatu rest
  have hread : sendHttpJson
      (SiteServer.responseTextIn req (server.completeHeaders req rsp) heads) =
        some (rsp.statu, rsp.body) := by
    rw [SiteServer.responseTextIn_eq, hadds.body]
    have hblockWord : readWord (joinLines (SiteServer.statusLine req
        (server.completeHeaders req rsp) :: heads.map SiteServer.fieldLine)) =
          some (req.version, hs) := by
      rw [hblock, hadds.statu]
      exact hword
    exact sendHttpJson_block (List.cons_ne_nil _ _) hlines hblockWord hint rsp.body
  exact ⟨hread, (parseHttpResponse_eq _).trans hread⟩

/-- A server with one default field. -/
def nosniffServer : SiteServer Unit where
  toHttpServer := .new { isRegular := fun _ => false, readFile := fun _ body => (body, false) }
  defaultHeaders := StrMap.empty.insert (ascii "X-Content-Type-Options") (ascii "nosniff")

/-- A body that looks like the end of a header block and another response. -/
def trickyResponse : HttpResponse :=
  { HttpResponse.ofStatu 200 with body := ascii "\r\n\r\nHTTP/1.1 500 \r\n\r\n" }

theorem clients_read_response_tricky :
    sendHttpJson (SiteServer.responseTextIn .reSet
        (nosniffServer.completeHeaders .reSet trickyResponse)
        (nosniffServer.completeHeaders .reSet trickyResponse).headers.entries) =
      some (200, trickyResponse.body) := by
  have hclean : nosniffServer.CleanFields trickyResponse := by
    refine ⟨nofun, ?_, nofun⟩
    decide +kernel
  exact (clients_read_response nosniffServer .reSet trickyResponse _ (List.Perm.refl _)
    (by decide +kernel) (by decide +kernel) (by decide) hclean).1

end OnlineJudge.Judge
