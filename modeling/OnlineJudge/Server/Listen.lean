/-
# The site: what becomes of an error answer

`Listen` (`server.cpp`) puts the routes on the HTTP server and installs two handlers of its own.
One answers for a handler that has raised; the other fills in the page for an error status, a JSON
text on an API path and an HTML page elsewhere.

`OnMessage` calls the second one for every status from 400 on, whoever has set it.  So an API
handler that has refused a request with an answer of its own, and the exception handler too, are
overruled: the status reaches the client, the body does not.

* `answer_of_left`: on an API path the client gets the status that was left, and the fixed text of
  that status.
* `apiError_kept_iff`: the body that was left reaches it exactly when it is that text already.
* `answer_of_raised`: after an exception it never does.
-/
import OnlineJudge.Handler.AuthHandler
import OnlineJudge.Judge.Executor
import OnlineJudge.Lib.JsonText
import OnlineJudge.Net.Connection

namespace OnlineJudge.Server

open ByteString Net

/-! ## 1. The handlers of the site

The two handlers that `Listen` installs, with the texts of the source.  Whether a text is JSON or a
page depends on the path alone. -/

/-- The bytes of a string literal. -/
def utf8 (s : String) : Bytes := s.toUTF8.toList

/-- What a handler may throw: a `std::exception`, or anything else. -/
inductive Thrown
  | exception (e : Raised)
  | other

def isApiPath (path : Bytes) : Bool := path = ascii "/api" ∨ (ascii "/api/").isPrefixOf path

/-- `HtmlEscape`.  Its `replace_all` is the one of `judge_executor.h`. -/
def htmlEscape (text : Bytes) : Bytes :=
  [("&", "&amp;"), ("<", "&lt;"), (">", "&gt;"), ("\"", "&quot;")].foldl
    (fun s entity => Judge.JudgeRequest.replaceAll s (ascii entity.1) (ascii entity.2)) text

/-- The body of `SendApiError`. -/
def apiErrorDoc (error message : Bytes) : Json :=
  .obj ([(ascii "error", .str error)] ++
    if message = [] then [] else [(ascii "message", .str message)])

def sendApiError (codec : Json.Codec) (status : Int) (error message : Bytes) :
    Responder Thrown Unit := do
  modify fun rsp => { rsp with statu := status }
  let text ← Program.ofExcept ((codec.print (apiErrorDoc error message)).mapError .exception)
  modify fun rsp => rsp.setContent text (ascii "application/json")

/-- The page of `SendHtmlError`. -/
def htmlErrorPage (status : Int) (title message : Bytes) : Bytes :=
  ascii "<!doctype html><html lang=\"zh-CN\"><head><meta charset=\"utf-8\">" ++
    ascii "<meta name=\"viewport\" content=\"width=device-width, initial-scale=1\">" ++
    ascii "<title>" ++ decimalInt status ++ ascii " " ++ htmlEscape title ++ ascii "</title>" ++
    ascii "<style>body\x7bfont-family:ui-sans-serif,system-ui,-apple-system,segoe ui,Roboto," ++
    ascii "sans-serif;background:#f7f7f8;color:#1f2937;margin:0;\x7d" ++
    ascii ".wrap\x7bmax-width:760px;margin:12vh auto;padding:24px;\x7d" ++
    ascii ".card\x7bbackground:#fff;border:1px solid #e5e7eb;border-radius:12px;padding:24px;" ++
    ascii "box-shadow:0 8px 30px rgba(0,0,0,.05);\x7d" ++
    ascii "h1\x7bmargin:0 0 8px;font-size:28px;\x7dp\x7bline-height:1.6;margin:0;" ++
    ascii "color:#4b5563;\x7d" ++
    ascii "a\x7bcolor:#0ea5e9;text-decoration:none;\x7da:hover\x7btext-decoration:underline;\x7d" ++
    ascii "</style></head><body>" ++
    ascii "<main class=\"wrap\"><section class=\"card\"><h1>" ++ decimalInt status ++ ascii " " ++
    htmlEscape title ++ ascii "</h1><p>" ++ htmlEscape message ++
    ascii "</p><p style=\"margin-top:14px\"><a href=\"/\">" ++ utf8 "返回首页" ++
    ascii "</a></p></section></main></body></html>"

def sendHtmlError (status : Int) (title message : Bytes) : Responder Thrown Unit :=
  modify fun rsp => { rsp with statu := status }.setContent (htmlErrorPage status title message)
    (ascii "text/html; charset=utf-8")

section

variable (codec : Json.Codec) (what : Raised → Bytes)

/-- The handler of `SetExceptionHandler`.  What is no `std::exception` leaves it. -/
def onException (req : HttpRequest) : Thrown → Responder Thrown Unit
  | .other => throw .other
  | .exception e =>
    if isApiPath req.path then sendApiError codec 500 (ascii "internal") (what e)
    else sendHtmlError 500 (ascii "Internal Server Error") (utf8 "服务器发生异常，请稍后重试。")

/-- The handler of `SetErrorHandler`. -/
def onError (indexHtml : Bytes) (req : HttpRequest) : Responder Thrown Unit := do
  let rsp ← getThe HttpResponse
  let status := if rsp.statu = 0 then 500 else rsp.statu
  if rsp.statu = 404 ∧ !isApiPath req.path ∧ req.method = ascii "GET" ∧ indexHtml ≠ [] then
    modify fun rsp => { rsp with statu := 200 }.setContent indexHtml
      (ascii "text/html; charset=utf-8")
  else if isApiPath req.path then
    sendApiError codec status
      (if rsp.statu = 404 then ascii "not found" else ascii "request failed") []
  else if status = 404 then
    sendHtmlError 404 (ascii "Not Found") (utf8 "请求的页面不存在。")
  else
    sendHtmlError status (ascii "Request Failed") (utf8 "请求处理失败，请检查后重试。")

/-- The settings of `SetDefaultHeaders`. -/
def defaultHeaders : StrMap Bytes :=
  ((StrMap.empty.insert (ascii "X-Content-Type-Options") (ascii "nosniff")).insert
    (ascii "X-Frame-Options") (ascii "SAMEORIGIN")).insert
    (ascii "Referrer-Policy") (ascii "strict-origin-when-cross-origin")

/-- `Listen`, on a server with the routes mounted.  `webDir` is the directory that was found, or
empty, and `indexHtml` the text of `index.html` in it. -/
def listen (webDir indexHtml : Bytes) (mounted : HttpServer Thrown) : SiteServer Thrown where
  toHttpServer :=
    { mounted with
      basedir := webDir
      exceptionHandler := some (onException codec what)
      errorHandler := some (onError codec (if webDir = [] then [] else indexHtml)) }
  defaultHeaders := defaultHeaders

end

/-- A handler on the server, with the database as the request finds it. -/
def mount {σ : Type} (handler : Handler.RouteHandler σ) (db : σ) : Net.Handler Thrown :=
  fun req captures rsp =>
    let (result, w) := (handler req captures).run ⟨rsp, 0, db⟩
    (result.mapError .exception, w.response)

/-! ## 2. What a request leaves behind

A response is left by the handler of the route, or by the exception handler where that one has
raised.  From there on it does not matter who it was. -/

section

variable {ε : Type}

/-- The route table for a method. -/
def routesFor (server : HttpServer ε) (method : Bytes) : List (Route ε) :=
  if method = ascii "GET" ∨ method = ascii "HEAD" then server.getRoute
  else if method = ascii "POST" then server.postRoute
  else if method = ascii "PUT" then server.putRoute
  else if method = ascii "DELETE" then server.deleteRoute
  else []

/-- `handler` is registered for the request: it is not for a file, and its route is the first of the
table that matches. -/
structure HandledBy (server : HttpServer ε) (req : HttpRequest) (handler : Net.Handler ε)
    (captures : List Bytes) : Prop where
  noFile : isFileHandler server.files.isRegular server.basedir req = false
  found : (routesFor server req.method).findSome? (fun r =>
    (r.pattern req.path).map fun captures => (r.handler, captures)) = some (handler, captures)

theorem dispatcher_of_findSome {req : HttpRequest} {handler : Net.Handler ε}
    {captures : List Bytes} {routes : List (Route ε)}
    (h : routes.findSome? (fun r =>
      (r.pattern req.path).map fun captures => (r.handler, captures)) =
        some (handler, captures)) :
    HttpServer.dispatcher req routes = handler req captures := by
  induction routes with
  | nil => cases h
  | cons r routes ih =>
    rw [HttpServer.dispatcher]
    rw [List.findSome?_cons] at h
    cases hmatch : r.pattern req.path with
    | none =>
      rw [hmatch] at h
      exact ih h
    | some found =>
      rw [hmatch] at h
      obtain ⟨rfl, rfl⟩ := Prod.mk.inj (Option.some.inj h)
      rfl

theorem HandledBy.route_eq {server : HttpServer ε} {req : HttpRequest} {handler : Net.Handler ε}
    {captures : List Bytes} (h : HandledBy server req handler captures) :
    server.route req = handler req captures := by
  have hfound := h.found
  have hfile : ¬ isFileHandler server.files.isRegular server.basedir req = true := by
    rw [h.noFile]
    exact Bool.false_ne_true
  rw [HttpServer.route, if_neg hfile]
  unfold routesFor at hfound
  split_ifs at hfound ⊢ with hget hpost hput hdelete
  · exact dispatcher_of_findSome hfound
  · exact dispatcher_of_findSome hfound
  · exact dispatcher_of_findSome hfound
  · exact dispatcher_of_findSome hfound
  · cases hfound

/-- The response is what the registered handler has left, or the exception handler where that
has raised. -/
inductive Left (server : HttpServer ε) (req : HttpRequest) (rsp : HttpResponse) : Prop
  | returned {handler captures} (hby : HandledBy server req handler captures)
      (hrun : (handler req captures).run (.ofStatu 200) = (.ok (), rsp)) : Left server req rsp
  | raised {handler captures e mid catcher} (hby : HandledBy server req handler captures)
      (hrun : (handler req captures).run (.ofStatu 200) = (.error e, mid))
      (hcatcher : server.exceptionHandler = some catcher)
      (hcaught : (catcher req e).run mid = (.ok (), rsp)) : Left server req rsp

/-- **An error status is rendered once more.**  What the error handler makes of the response is
the answer. -/
theorem Left.answer_eq {server : HttpServer ε} {req : HttpRequest} {rsp rsp' : HttpResponse}
    (h : Left server req rsp) (herror : 400 ≤ rsp.statu)
    (hrender : (server.renderDefaultErrorPage req).run rsp = (.ok (), rsp')) :
    server.answer req = .ok rsp' := by
  refine HttpServer.answer_of_caught ?_ herror hrender
  cases h with
  | returned hby hrun =>
    rw [hby.route_eq]
    exact Program.run_tryCatch_ok hrun _
  | raised hby hrun hcatcher hcaught =>
    rw [hby.route_eq, Program.run_tryCatch_error hrun, hcatcher]
    exact hcaught

end

/-! ## 3. API errors

The body of an error answer has two authors, and the second one wins.  The equivalence says when
nobody can tell. -/

section

variable (float : Rat → Bytes) (parse : Bytes → Except Bytes Json) (what : Raised → Bytes)

/-- The printer of the library. -/
def dumping : Json.Codec := Json.printing (.compact float) parse

/-- What the error handler says on an API path. -/
def errorText (statu : Int) : Bytes :=
  if statu = 404 then ascii "\x7b\"error\":\"not found\"\x7d"
  else ascii "\x7b\"error\":\"request failed\"\x7d"

/-- The response with this text in place of its body. -/
def overruled (rsp : HttpResponse) : HttpResponse :=
  rsp.setContent (errorText rsp.statu) (ascii "application/json")

theorem run_sendApiError {codec : Json.Codec} {error message text : Bytes}
    (h : codec.dump (apiErrorDoc error message) = some text) (status : Int) (rsp : HttpResponse) :
    (sendApiError codec status error message).run rsp =
      (.ok (), { rsp with statu := status }.setContent text (ascii "application/json")) := by
  have hmark : (modify fun rsp => { rsp with statu := status } : Responder Thrown Unit).run rsp =
      (.ok (), { rsp with statu := status }) := rfl
  rw [sendApiError, Program.run_bind_ok hmark, Json.Codec.print_eq_ok.mpr h]
  rfl

/-- The error handler keeps the status and writes the text. -/
theorem run_onError {req : HttpRequest} {rsp : HttpResponse} (hapi : isApiPath req.path = true)
    (herror : 400 ≤ rsp.statu) (indexHtml : Bytes) :
    (onError (dumping float parse) indexHtml req).run rsp = (.ok (), overruled rsp) := by
  have hget : (getThe HttpResponse : Responder Thrown HttpResponse).run rsp = (.ok rsp, rsp) := rfl
  have hstatu : ¬ rsp.statu = 0 := by omega
  have hpage : ¬ (rsp.statu = 404 ∧ (!isApiPath req.path) = true ∧ req.method = ascii "GET" ∧
      indexHtml ≠ []) := by
    rintro ⟨-, hnot, -⟩
    rw [hapi] at hnot
    cases hnot
  have hdump : (dumping float parse).dump (apiErrorDoc
      (if rsp.statu = 404 then ascii "not found" else ascii "request failed") []) =
        some (errorText rsp.statu) := by
    unfold errorText
    split <;> rfl
  rw [onError, Program.run_bind_ok hget]
  simp only [if_neg hpage, if_pos hapi, if_neg hstatu]
  exact run_sendApiError hdump rsp.statu rsp

variable (webDir indexHtml : Bytes) (mounted : HttpServer Thrown)

/-- The site as `Listen` starts it. -/
abbrev site : SiteServer Thrown := listen (dumping float parse) what webDir indexHtml mounted

variable {float parse what webDir indexHtml mounted}

/-- On an API path the client gets the status that was left, and the text for it. -/
theorem answer_of_left {req : HttpRequest} {rsp : HttpResponse} (hapi : isApiPath req.path = true)
    (hleft : Left (site float parse what webDir indexHtml mounted).toHttpServer req rsp)
    (herror : 400 ≤ rsp.statu) :
    (site float parse what webDir indexHtml mounted).answer req = .ok (overruled rsp) :=
  hleft.answer_eq herror (run_onError float parse hapi herror _)

/-- **An API error reaches the client as it was left** exactly when it is the text of the error
handler already. -/
theorem apiError_kept_iff {req : HttpRequest} {rsp : HttpResponse}
    (hapi : isApiPath req.path = true)
    (hleft : Left (site float parse what webDir indexHtml mounted).toHttpServer req rsp)
    (herror : 400 ≤ rsp.statu) :
    (∃ rsp', (site float parse what webDir indexHtml mounted).answer req = .ok rsp' ∧
        rsp'.statu = rsp.statu ∧ rsp'.body = rsp.body) ↔
      rsp.body = errorText rsp.statu := by
  have hanswer := answer_of_left hapi hleft herror
  constructor
  · rintro ⟨rsp', hrsp', -, hbody⟩
    rw [hanswer] at hrsp'
    rw [← hbody, ← Except.ok.inj hrsp']
    rfl
  · intro hbody
    exact ⟨overruled rsp, hanswer, rfl, hbody.symm⟩

/-- What the exception handler prints is not what the error handler prints. -/
theorem internalText_ne (message : Bytes) :
    (apiErrorDoc (ascii "internal") message).print (.compact float) ≠ errorText 500 := by
  have hchar : ((apiErrorDoc (ascii "internal") message).print (.compact float))[10]? =
      some 105 := by
    unfold apiErrorDoc
    split <;> rfl
  have hother : (errorText 500)[10]? = some 114 := rfl
  intro heq
  rw [heq, hother] at hchar
  cases hchar

/-- **An exception never reaches the client as it was described.**  The exception handler answers
with the text of the exception, if that can be printed; the error handler takes it away. -/
theorem answer_of_raised {req : HttpRequest} {handler : Net.Handler Thrown}
    {captures : List Bytes} {e : Raised} {mid : HttpResponse}
    (hapi : isApiPath req.path = true)
    (hby : HandledBy (site float parse what webDir indexHtml mounted).toHttpServer req handler
      captures)
    (hrun : (handler req captures).run (.ofStatu 200) = (.error (.exception e), mid))
    (hutf8 : Utf8.wellFormed (what e) = true) :
    ∃ left, Left (site float parse what webDir indexHtml mounted).toHttpServer req left ∧
      left.statu = 500 ∧
      left.body = (apiErrorDoc (ascii "internal") (what e)).print (.compact float) ∧
      (site float parse what webDir indexHtml mounted).answer req = .ok (overruled left) ∧
      (overruled left).body ≠ left.body := by
  have hdoc : (apiErrorDoc (ascii "internal") (what e)).utf8 = true := by
    have hnames : (Json.obj [(ascii "error", .str (ascii "internal"))]).utf8 = true := by decide
    have hmessage : Utf8.wellFormed (ascii "message") = true := by decide
    unfold apiErrorDoc
    split
    · exact hnames
    · simp only [Json.utf8, Json.utf8Members_append, Bool.and_eq_true] at hnames ⊢
      exact ⟨hnames, by simp [Json.utf8Members, Json.utf8, hmessage, hutf8]⟩
  have hdump : (dumping float parse).dump (apiErrorDoc (ascii "internal") (what e)) =
      some ((apiErrorDoc (ascii "internal") (what e)).print (.compact float)) := if_pos hdoc
  have hcaught : (onException (dumping float parse) what req (.exception e)).run mid =
      (.ok (), { mid with statu := 500 }.setContent
        ((apiErrorDoc (ascii "internal") (what e)).print (.compact float))
        (ascii "application/json")) := by
    rw [onException, if_pos hapi]
    exact run_sendApiError hdump 500 mid
  have hleft := Left.raised hby hrun rfl hcaught
  have herror : (400 : Int) ≤ 500 := by decide
  exact ⟨_, hleft, rfl, rfl, answer_of_left hapi hleft herror,
    fun heq => internalText_ne (what e) heq.symm⟩

end

/-! ## 4. Two requests

A handler that happens to say what the error handler says, and a login whose refusal is lost. -/

/-- No files. -/
def noFiles : Files where
  isRegular _ := false
  readFile _ body := (body, false)

/-- The site with a parser that takes every text for an object without members. -/
def sampleSite (mounted : HttpServer Thrown) : SiteServer Thrown :=
  site (fun _ => []) (fun _ => .ok (.obj [])) (fun _ => []) [] [] mounted

/-- A handler that leaves the text of the error handler. -/
def notFoundHandler : Net.Handler Thrown := fun _ _ =>
  sendApiError (dumping (fun _ => []) fun _ => .ok (.obj [])) 404 (ascii "not found") []

/-- The site with this handler. -/
def notFoundSite : SiteServer Thrown :=
  sampleSite ((HttpServer.new noFiles).get (literal (ascii "/api/x")) notFoundHandler)

/-- What the handler leaves. -/
def notFoundLeft : HttpResponse :=
  { HttpResponse.ofStatu 200 with statu := 404 }.setContent (errorText 404)
    (ascii "application/json")

/-- A request for it. -/
def notFoundRequest : HttpRequest :=
  { HttpRequest.reSet with
    method := ascii "GET"
    path := ascii "/api/x" }

theorem apiError_kept_iff_notFound :
    ∃ rsp, notFoundSite.answer notFoundRequest = .ok rsp ∧ rsp.statu = 404 ∧
      rsp.body = errorText 404 := by
  have hleft : Left notFoundSite.toHttpServer notFoundRequest notFoundLeft :=
    .returned ⟨rfl, rfl⟩ rfl
  have herror : 400 ≤ notFoundLeft.statu := by decide
  exact (apiError_kept_iff rfl hleft herror).mpr rfl

/-- The environment of the handlers. -/
def sampleEnv : Handler.Env where
  codec := dumping (fun _ => []) fun _ => .ok (.obj [])
  openSsl := Auth.sampleOpenSsl
  jwtSecret := ascii "secret"
  now := Auth.sampleInstant
  libraryText _ := []

/-- A database that is not there. -/
def noDao : Handler.Dao Unit where
  perform _ _ := throw (.runtime (ascii "connect failed"))

/-- The site with the login. -/
def loginSite : SiteServer Thrown :=
  sampleSite ((HttpServer.new noFiles).post (literal (ascii "/api/auth/login"))
    (mount (Handler.loginHandler sampleEnv noDao) ()))

/-- A login without a name. -/
def emptyLogin : HttpRequest :=
  { HttpRequest.reSet with
    method := ascii "POST"
    path := ascii "/api/auth/login"
    body := ascii "\x7b\x7d" }

/-- What the login makes of it. -/
def refusedLogin : HttpResponse :=
  { HttpResponse.ofStatu 200 with statu := 400 }.setContent
    (ascii "\x7b\"error\":\"username and password required\"\x7d") (ascii "application/json")

/-- The front end looks for the text of the refusal; it is not there. -/
theorem apiError_lost :
    isApiPath emptyLogin.path = true ∧
      Left loginSite.toHttpServer emptyLogin refusedLogin ∧ 400 ≤ refusedLogin.statu ∧
      ¬ ∃ rsp, loginSite.answer emptyLogin = .ok rsp ∧ rsp.statu = refusedLogin.statu ∧
        rsp.body = refusedLogin.body := by
  refine ⟨rfl, .returned ⟨rfl, rfl⟩ rfl, by decide, ?_⟩
  rintro ⟨rsp, hrsp, -, hbody⟩
  have hanswer : loginSite.answer emptyLogin =
      .ok (refusedLogin.setContent (errorText 400) (ascii "application/json")) := rfl
  rw [hanswer] at hrsp
  rw [← Except.ok.inj hrsp] at hbody
  exact absurd hbody (by decide)

end OnlineJudge.Server
