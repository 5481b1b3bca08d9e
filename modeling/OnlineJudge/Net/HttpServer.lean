/-
# The HTTP server: from a request to its response

`OnMessage` (`net/http.hpp`) hands a complete request to `Route`: a static file, or the handler
whose pattern matches the path.  A handler fills the response it is given and may raise; what it has
written by then stays.  `OnMessage` catches the exception, and every status from 400 on gets an
error page in place of the body.

* `respond_of_ok`: a handler that returns with a status below 400 decides the response.
* `respond_of_error`: a handler that raises, on a server without handlers of its own for that, is
  answered with the status 500.

A handler is a function on the state of a `Responder`, which keeps the response across an exception.
That is the point of the monad: a handler that raises half way has written half a response, and the
code that catches the exception goes on with that.
-/
import OnlineJudge.Lib.Program
import OnlineJudge.Net.StaticFile

namespace OnlineJudge.Net

open ByteString

/-! ## 1. The response

The fields of a response are entries of a map, and `SetHeader` inserts into it, so the first value
of a field is the one that stays. -/

structure HttpResponse where
  statu : Int
  redirectFlag : Bool
  body : Bytes
  redirectUrl : Bytes
  headers : StrMap Bytes
deriving DecidableEq

namespace HttpResponse

/-- `HttpResponse(statu)`. -/
def ofStatu (statu : Int) : HttpResponse where
  statu := statu
  redirectFlag := false
  body := []
  redirectUrl := []
  headers := .empty

def setHeader (rsp : HttpResponse) (key val : Bytes) : HttpResponse :=
  { rsp with headers := rsp.headers.insert key val }

def setContent (rsp : HttpResponse) (body type : Bytes) : HttpResponse :=
  { rsp with body := body }.setHeader (ascii "Content-Type") type

end HttpResponse

def statuMsg : List (Int × String) :=
  [(100, "Continue"), (101, "Switching Protocol"), (102, "Processing"), (103, "Early Hints"),
    (200, "OK"), (201, "Created"), (202, "Accepted"), (203, "Non-Authoritative Information"),
    (204, "No Content"), (205, "Reset Content"), (206, "Partial Content"), (207, "Multi-Status"),
    (208, "Already Reported"), (226, "IM Used"), (300, "Multiple Choice"),
    (301, "Moved Permanently"), (302, "Found"), (303, "See Other"), (304, "Not Modified"),
    (305, "Use Proxy"), (306, "unused"), (307, "Temporary Redirect"), (308, "Permanent Redirect"),
    (400, "Bad Request"), (401, "Unauthorized"), (402, "Payment Required"), (403, "Forbidden"),
    (404, "Not Found"), (405, "Method Not Allowed"), (406, "Not Acceptable"),
    (407, "Proxy Authentication Required"), (408, "Request Timeout"), (409, "Conflict"),
    (410, "Gone"), (411, "Length Required"), (412, "Precondition Failed"),
    (413, "Payload Too Large"), (414, "URI Too Long"), (415, "Unsupported Media Type"),
    (416, "Range Not Satisfiable"), (417, "Expectation Failed"), (418, "I'm a teapot"),
    (421, "Misdirected Request"), (422, "Unprocessable Entity"), (423, "Locked"),
    (424, "Failed Dependency"), (425, "Too Early"), (426, "Upgrade Required"),
    (428, "Precondition Required"), (429, "Too Many Requests"),
    (431, "Request Header Fields Too Large"), (451, "Unavailable For Legal Reasons"),
    (501, "Not Implemented"), (502, "Bad Gateway"), (503, "Service Unavailable"),
    (504, "Gateway Timeout"), (505, "HTTP Version Not Supported"), (506, "Variant Also Negotiates"),
    (507, "Insufficient Storage"), (508, "Loop Detected"), (510, "Not Extended"),
    (511, "Network Authentication Required")]

def Util.statuDesc (statu : Int) : Bytes := ascii ((statuMsg.lookup statu).getD "Unknow")

/-- What holds of every entry of the table, and of the word for the others, holds of a reason
phrase. -/
theorem Util.statuDesc_of_table {p : Bytes → Prop} (hunknow : p (ascii "Unknow"))
    (htable : ∀ entry ∈ statuMsg, p (ascii entry.2)) (statu : Int) : p (statuDesc statu) := by
  unfold statuDesc
  cases hlookup : statuMsg.lookup statu with
  | none => exact hunknow
  | some desc =>
    obtain ⟨pre, post, hsplit, -⟩ := List.lookup_eq_some_iff.mp hlookup
    refine htable (statu, desc) ?_
    rw [hsplit]
    exact List.mem_append_right _ List.mem_cons_self

/-! ## 2. The server

A table of routes for each of four methods, the root of the static files, and two handlers for what
has gone wrong, either of which may be missing. -/

/-- Code that works on the response of the current request and may raise. -/
abbrev Responder (ε : Type) := ExceptT ε (StateM HttpResponse)

namespace Responder

/-- Code that may raise and does not touch the response. -/
def ofExcept {ε α : Type} (result : Except ε α) : Responder ε α := fun rsp => (result, rsp)

end Responder

/-- A handler, with the match results of its pattern. -/
abbrev Handler (ε : Type) := HttpRequest → List Bytes → Responder ε Unit

/-- An entry of a route table.  The regular expression is the function that gives the match
results of a path. -/
structure Route (ε : Type) where
  pattern : Bytes → Option (List Bytes)
  handler : Handler ε

/-- A pattern without special characters. -/
def literal (text path : Bytes) : Option (List Bytes) := if path = text then some [path] else none

/-- The part of the file system that a server sees.  `readFile` is `Util::ReadFile`: what it
leaves in the buffer, and whether it succeeds. -/
structure Files where
  isRegular : Bytes → Bool
  readFile : Bytes → Bytes → Bytes × Bool

structure HttpServer (ε : Type) where
  getRoute : List (Route ε)
  postRoute : List (Route ε)
  putRoute : List (Route ε)
  deleteRoute : List (Route ε)
  basedir : Bytes
  files : Files
  errorHandler : Option (HttpRequest → Responder ε Unit)
  exceptionHandler : Option (HttpRequest → ε → Responder ε Unit)

namespace HttpServer

variable {ε : Type}

/-- A server on which nothing is registered. -/
def new (files : Files) : HttpServer ε where
  getRoute := []
  postRoute := []
  putRoute := []
  deleteRoute := []
  basedir := []
  files := files
  errorHandler := none
  exceptionHandler := none

def get (server : HttpServer ε) (pattern : Bytes → Option (List Bytes)) (handler : Handler ε) :
    HttpServer ε :=
  { server with getRoute := server.getRoute ++ [⟨pattern, handler⟩] }

def post (server : HttpServer ε) (pattern : Bytes → Option (List Bytes)) (handler : Handler ε) :
    HttpServer ε :=
  { server with postRoute := server.postRoute ++ [⟨pattern, handler⟩] }

/-- The page of `RenderDefaultErrorPage`. -/
def errorPage (statu : Int) : Bytes :=
  ascii "<html><head><meta http-equiv='Content-Type' content='text/html;charset=utf-8'></head>" ++
    ascii "<body><h1>" ++ decimalInt statu ++ ascii " " ++ Util.statuDesc statu ++
    ascii "</h1></body></html>"

/-- `RenderDefaultErrorPage`: the page takes the place of whatever body there is. -/
def renderDefaultErrorPage (server : HttpServer ε) (req : HttpRequest) : Responder ε Unit :=
  match server.errorHandler with
  | some handler => handler req
  | none => modify fun rsp => rsp.setContent (errorPage rsp.statu) (ascii "text/html")

/-! ## 3. Routing

A static file comes before every route.  The table is that of the method, a method without a table
is answered with 405, and the first route that matches is taken. -/

def mimeMsg : List (String × String) :=
  [(".aac", "audio/aac"), (".abw", "application/x-abiword"), (".arc", "application/x-freearc"),
    (".avi", "video/x-msvideo"), (".azw", "application/vnd.amazon.ebook"),
    (".bin", "application/octet-stream"), (".bmp", "image/bmp"), (".bz", "application/x-bzip"),
    (".bz2", "application/x-bzip2"), (".csh", "application/x-csh"), (".css", "text/css"),
    (".csv", "text/csv"), (".doc", "application/msword"),
    (".docx", "application/vnd.openxmlformats-officedocument.wordprocessingml.document"),
    (".eot", "application/vnd.ms-fontobject"), (".epub", "application/epub+zip"),
    (".gif", "image/gif"), (".htm", "text/html"), (".html", "text/html"),
    (".ico", "image/vnd.microsoft.icon"), (".ics", "text/calendar"),
    (".jar", "application/java-archive"), (".jpeg", "image/jpeg"), (".jpg", "image/jpeg"),
    (".js", "text/javascript"), (".json", "application/json"), (".jsonld", "application/ld+json"),
    (".mid", "audio/midi"), (".midi", "audio/x-midi"), (".mjs", "text/javascript"),
    (".mp3", "audio/mpeg"), (".mpeg", "video/mpeg"),
    (".mpkg", "application/vnd.apple.installer+xml"),
    (".odp", "application/vnd.oasis.opendocument.presentation"),
    (".ods", "application/vnd.oasis.opendocument.spreadsheet"),
    (".odt", "application/vnd.oasis.opendocument.text"), (".oga", "audio/ogg"),
    (".ogv", "video/ogg"), (".ogx", "application/ogg"), (".otf", "font/otf"), (".png", "image/png"),
    (".pdf", "application/pdf"), (".ppt", "application/vnd.ms-powerpoint"),
    (".pptx", "application/vnd.openxmlformats-officedocument.presentationml.presentation"),
    (".rar", "application/x-rar-compressed"), (".rtf", "application/rtf"),
    (".sh", "application/x-sh"), (".svg", "image/svg+xml"),
    (".swf", "application/x-shockwave-flash"), (".tar", "application/x-tar"),
    (".tif", "image/tiff"), (".tiff", "image/tiff"), (".ttf", "font/ttf"), (".txt", "text/plain"),
    (".vsd", "application/vnd.visio"), (".wav", "audio/wav"), (".weba", "audio/webm"),
    (".webm", "video/webm"), (".webp", "image/webp"), (".woff", "font/woff"),
    (".woff2", "font/woff2"), (".xhtml", "application/xhtml+xml"),
    (".xls", "application/vnd.ms-excel"),
    (".xlsx", "application/vnd.openxmlformats-officedocument.spreadsheetml.sheet"),
    (".xml", "application/xml"), (".xul", "application/vnd.mozilla.xul+xml"),
    (".zip", "application/zip"), (".3gp", "video/3gpp"), (".3g2", "video/3gpp2"),
    (".7z", "application/x-7z-compressed")]

def extMime (filename : Bytes) : Bytes :=
  if 46 ∈ filename then
    -- from the last dot on
    let ext := 46 :: (filename.reverse.takeWhile (· != 46)).reverse
    ascii (((mimeMsg.find? fun entry => ascii entry.1 == ext).map Prod.snd).getD
      "application/octet-stream")
  else ascii "application/octet-stream"

def fileHandler (server : HttpServer ε) (req : HttpRequest) : Responder ε Unit :=
  modify fun rsp =>
    let file := reqPath server.basedir req.path
    let (body, ok) := server.files.readFile file rsp.body
    if ok then { rsp with body := body }.setHeader (ascii "Content-Type") (extMime file)
    else { rsp with body := body }

/-- `Dispatcher`: the first route of the table whose expression matches the path is called, and
without one the status is 404. -/
def dispatcher (req : HttpRequest) : List (Route ε) → Responder ε Unit
  | [] => modify fun rsp => { rsp with statu := 404 }
  | route :: routes =>
    match route.pattern req.path with
    | none => dispatcher req routes
    | some captures => route.handler req captures

def route (server : HttpServer ε) (req : HttpRequest) : Responder ε Unit :=
  if isFileHandler server.files.isRegular server.basedir req then server.fileHandler req
  else if req.method = ascii "GET" ∨ req.method = ascii "HEAD" then dispatcher req server.getRoute
  else if req.method = ascii "POST" then dispatcher req server.postRoute
  else if req.method = ascii "PUT" then dispatcher req server.putRoute
  else if req.method = ascii "DELETE" then dispatcher req server.deleteRoute
  else modify fun rsp => { rsp with statu := 405 }

/-! ## 4. The answer to a request

The two equations are what the handlers' own theorems are put together with: what a handler leaves
on its `Responder` becomes the response that is written. -/

/-- `OnMessage` between a complete request and `WriteReponse`.  An exception that leaves it ends
the process. -/
def respond (server : HttpServer ε) (req : HttpRequest) : Responder ε Unit := do
  tryCatch (server.route req) fun e =>
    match server.exceptionHandler with
    | some handler => handler req e
    | none => do
      modify fun rsp => { rsp with statu := 500 }
      server.renderDefaultErrorPage req
  let rsp ← getThe HttpResponse
  if rsp.statu ≥ 400 then server.renderDefaultErrorPage req

/-- The response that `WriteReponse` is given. -/
def answer (server : HttpServer ε) (req : HttpRequest) : Except ε HttpResponse :=
  let (result, rsp) := (server.respond req).run (.ofStatu 200)
  result.map fun _ => rsp

/-- **A handler that returns with a status below 400 decides the response.** -/
theorem respond_of_ok {server : HttpServer ε} {req : HttpRequest} {rsp : HttpResponse}
    (hroute : (server.route req).run (.ofStatu 200) = (.ok (), rsp)) (hstatu : rsp.statu < 400) :
    server.answer req = .ok rsp := by
  have hrespond : (server.respond req).run (.ofStatu 200) = (.ok (), rsp) := by
    have hget : (getThe HttpResponse : Responder ε HttpResponse).run rsp = (.ok rsp, rsp) := rfl
    rw [respond, Program.run_bind_ok (Program.run_tryCatch_ok hroute _),
      Program.run_bind_ok hget, if_neg (Int.not_le.mpr hstatu)]
    rfl
  rw [answer, hrespond]
  rfl

/-- An error status that the handlers leave is rendered, whoever has set it. -/
theorem answer_of_caught {server : HttpServer ε} {req : HttpRequest} {rsp rsp' : HttpResponse}
    (hcaught : (tryCatch (server.route req) fun e =>
      match server.exceptionHandler with
      | some handler => handler req e
      | none => do
        modify fun rsp => { rsp with statu := 500 }
        server.renderDefaultErrorPage req).run (.ofStatu 200) = (.ok (), rsp))
    (herror : 400 ≤ rsp.statu)
    (hrender : (server.renderDefaultErrorPage req).run rsp = (.ok (), rsp')) :
    server.answer req = .ok rsp' := by
  have hget : (getThe HttpResponse : Responder ε HttpResponse).run rsp = (.ok rsp, rsp) := rfl
  have hrespond : (server.respond req).run (.ofStatu 200) = (.ok (), rsp') := by
    rw [respond, Program.run_bind_ok hcaught, Program.run_bind_ok hget, if_pos herror]
    exact hrender
  rw [answer, hrespond]
  rfl

end HttpServer

end OnlineJudge.Net
