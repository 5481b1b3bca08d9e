/-
# The routes of the site

`HttpServer::HttpServer` (`server.cpp`) and the functions `Register…Routes` it calls register 22
routes.  Nine of the patterns have a group for an id, and several are extensions of others
(`/api/submissions` and `/api/submissions/(\d+)`, `…/testcases` and `…/testcases/upload`), so which
handler a path gets could depend on the order of the registrations.

* `unambiguous_siteRoutes`: no two patterns of one method share a path.
* `route_site`: so every request that is not for a file gets the handler of its one route, whatever
  the order, and a request without a route is answered with 404 or 405.

Which id a handler takes from such a path is in `PathIds.lean`.
-/
import OnlineJudge.Handler.HandlerBase
import OnlineJudge.Net.Router

namespace OnlineJudge.Server

open ByteString Net RunPattern

/-! ## 1. The table

The registrations are those of the source, function by function and in its order.  `siteRoutes` is
the list that the router has in the end. -/

/-- The routes. -/
inductive Endpoint
  | healthz
  | register
  | login
  | logout
  | problems
  | problem
  | languages
  | postSubmissions
  | submission
  | submissions
  | registerWorker
  | adminPostProblem
  | adminGetProblem
  | adminPutProblem
  | adminDeleteProblem
  | adminPostTestCases
  | adminUploadTestCases
  | adminLanguages
  | adminPostLanguage
  | adminPutLanguage
  | adminSubmissions
  | adminPutUserStatus
deriving DecidableEq, Repr

section

variable {ε : Type} (on : Endpoint → Handler ε)

def registerAuthRoutes (router : Router ε) : Router ε :=
  ((router.post "/api/auth/register" (on .register)).post "/api/auth/login" (on .login)).post
    "/api/auth/logout" (on .logout)

def registerProblemRoutes (router : Router ε) : Router ε :=
  (router.get "/api/problems" (on .problems)).get "/api/problems/(\\d+)" (on .problem)

def registerSubmissionRoutes (router : Router ε) : Router ε :=
  (((router.get "/api/languages" (on .languages)).post "/api/submissions"
    (on .postSubmissions)).get "/api/submissions/(\\d+)" (on .submission)).get "/api/submissions"
    (on .submissions)

def registerAdminRoutes (router : Router ε) : Router ε :=
  ((((((((((router.post "/api/admin/problems" (on .adminPostProblem)).get
    "/api/admin/problems/(\\d+)" (on .adminGetProblem)).put
    "/api/admin/problems/(\\d+)" (on .adminPutProblem)).delete
    "/api/admin/problems/(\\d+)" (on .adminDeleteProblem)).post
    "/api/admin/problems/(\\d+)/testcases" (on .adminPostTestCases)).post
    "/api/admin/problems/(\\d+)/testcases/upload" (on .adminUploadTestCases)).get
    "/api/admin/languages" (on .adminLanguages)).post
    "/api/admin/languages" (on .adminPostLanguage)).put
    "/api/admin/languages/(\\d+)" (on .adminPutLanguage)).get
    "/api/admin/submissions" (on .adminSubmissions)).put
    "/api/admin/users/(\\d+)/status" (on .adminPutUserStatus)

/-- The router of the constructor. -/
def siteRouter : Router ε :=
  registerAdminRoutes on ((registerSubmissionRoutes on (registerProblemRoutes on
    (registerAuthRoutes on (Router.get ⟨[]⟩ "/healthz" (on .healthz))))).post
      "/api/judge/workers/register" (on .registerWorker))

end

/-- Its routes. -/
def siteRoutes : List (Method × String × Endpoint) :=
  [(.get, "/healthz", .healthz),
    (.post, "/api/auth/register", .register),
    (.post, "/api/auth/login", .login),
    (.post, "/api/auth/logout", .logout),
    (.get, "/api/problems", .problems),
    (.get, "/api/problems/(\\d+)", .problem),
    (.get, "/api/languages", .languages),
    (.post, "/api/submissions", .postSubmissions),
    (.get, "/api/submissions/(\\d+)", .submission),
    (.get, "/api/submissions", .submissions),
    (.post, "/api/judge/workers/register", .registerWorker),
    (.post, "/api/admin/problems", .adminPostProblem),
    (.get, "/api/admin/problems/(\\d+)", .adminGetProblem),
    (.put, "/api/admin/problems/(\\d+)", .adminPutProblem),
    (.delete, "/api/admin/problems/(\\d+)", .adminDeleteProblem),
    (.post, "/api/admin/problems/(\\d+)/testcases", .adminPostTestCases),
    (.post, "/api/admin/problems/(\\d+)/testcases/upload", .adminUploadTestCases),
    (.get, "/api/admin/languages", .adminLanguages),
    (.post, "/api/admin/languages", .adminPostLanguage),
    (.put, "/api/admin/languages/(\\d+)", .adminPutLanguage),
    (.get, "/api/admin/submissions", .adminSubmissions),
    (.put, "/api/admin/users/(\\d+)/status", .adminPutUserStatus)]

/-- A router with these routes in any order. -/
def routerOf {ε : Type} (on : Endpoint → Handler ε) (routes : List (Method × String × Endpoint)) :
    Router ε :=
  ⟨routes.map fun r => ⟨r.1, r.2.1, on r.2.2⟩⟩

theorem siteRouter_eq {ε : Type} (on : Endpoint → Handler ε) :
    siteRouter on = routerOf on siteRoutes := by
  simp only [siteRouter, registerAdminRoutes, registerSubmissionRoutes, registerProblemRoutes,
    registerAuthRoutes, Router.get, Router.post, Router.put, Router.delete, routerOf, siteRoutes,
    List.map_cons, List.map_nil, List.nil_append, List.cons_append]

/-! ## 2. One route for each path

With patterns of words and groups the overlap of two is decidable, and it is decided once for each
pair in the table.  After that the order in which they were registered has nothing left to say. -/

/-- The patterns of a method. -/
def patternsOf (method : Method) (routes : List (Method × String × Endpoint)) :
    List (Pattern UInt8 × Endpoint) :=
  (routes.filter fun r => r.1 = method).filterMap fun r =>
    (regexOf (ascii r.2.1)).map fun pat => (pat, r.2.2)

/-- **No path is of two patterns of one method.**  Two patterns overlap only if their parts do, one
by one, and none of the pairs in the table does. -/
theorem unambiguous_siteRoutes (method : Method) :
    unambiguous isDigit (patternsOf method siteRoutes) := by
  cases method <;> decide +kernel

/-- The table that `Route` looks in. -/
def methodOf (method : Bytes) : Option Method :=
  if method = ascii "GET" ∨ method = ascii "HEAD" then some .get
  else if method = ascii "POST" then some .post
  else if method = ascii "PUT" then some .put
  else if method = ascii "DELETE" then some .delete
  else none

/-- The request is for this route, with these captures: the route is one of its method, and its
pattern matches the path.  The order of the routes is not part of it. -/
def Endpoint.Serves (e : Endpoint) (method path : Bytes) (captures : List Bytes) : Prop :=
  ∃ m pat, methodOf method = some m ∧ (pat, e) ∈ patternsOf m siteRoutes ∧
    Matches isDigit pat path captures

theorem rows_routerOf {ε : Type} (on : Endpoint → Handler ε)
    (routes : List (Method × String × Endpoint)) (method : Method) :
    Router.rows ((routerOf on routes).routes.filter fun route => route.method = method) =
      (patternsOf method routes).map fun row => (row.1, on row.2) := by
  simp only [Router.rows, routerOf, patternsOf, List.filter_map, List.filterMap_map,
    List.map_filterMap, Option.map_map]
  rfl

theorem patternsOf_perm {routes routes' : List (Method × String × Endpoint)}
    (h : routes.Perm routes') (method : Method) :
    (patternsOf method routes).Perm (patternsOf method routes') :=
  (h.filter _).filterMap _

section

variable {ε : Type} {server : HttpServer ε} {req : HttpRequest}

/-- `Route` for a request that is not for a file. -/
theorem route_of_not_file
    (hfile : isFileHandler server.files.isRegular server.basedir req = false) :
    server.route req =
      match methodOf req.method with
      | some method => HttpServer.dispatcher req (server.table method)
      | none => modify fun rsp => { rsp with statu := 405 } := by
  rw [HttpServer.route, hfile, if_neg (by decide), methodOf]
  split_ifs <;> rfl

/-- **The table of a method, looked up**: the handlers play no part in which route it is. -/
theorem dispatcher_routerOf (on : Endpoint → Handler ε)
    {routes : List (Method × String × Endpoint)} (hperm : routes.Perm siteRoutes)
    (hbare : ∀ method, server.table method = []) (method : Method) :
    HttpServer.dispatcher req (((routerOf on routes).mount server).table method) =
      match lookup isDigit (patternsOf method siteRoutes) req.path with
      | some (e, captures) => on e req (req.path :: captures)
      | none => modify fun rsp => { rsp with statu := 404 } := by
  have hlookup : lookup isDigit (patternsOf method siteRoutes) req.path =
      lookup isDigit (patternsOf method routes) req.path :=
    lookup_perm (unambiguous_siteRoutes method) (patternsOf_perm hperm.symm method) req.path
  rw [Router.table_mount, hbare, List.nil_append, Router.dispatcher_map_toRoute, rows_routerOf,
    lookup_map, hlookup]
  cases lookup isDigit (patternsOf method routes) req.path <;> rfl

end

theorem route_of_serves {ε : Type} (on : Endpoint → Handler ε)
    {routes : List (Method × String × Endpoint)} (hperm : routes.Perm siteRoutes)
    {server : HttpServer ε} (hbare : ∀ method, server.table method = []) {req : HttpRequest}
    (hfile : isFileHandler server.files.isRegular server.basedir req = false) {e : Endpoint}
    {captures : List Bytes} (h : e.Serves req.method req.path captures) :
    ((routerOf on routes).mount server).route req = on e req (req.path :: captures) := by
  obtain ⟨hfiles, hbasedir⟩ := Router.mount_frame (routerOf on routes) server
  obtain ⟨m, pat, hm, hpat, hmatches⟩ := h
  have hlookup := (lookup_eq_some_iff (unambiguous_siteRoutes m)).mpr ⟨pat, hpat, hmatches⟩
  rw [route_of_not_file (by rw [hfiles, hbasedir]; exact hfile), hm]
  dsimp only
  rw [dispatcher_routerOf on hperm hbare, hlookup]

/-- **Which handler a request gets.**  Mount the routes of the site, in whatever order, on a server
without routes.  A request that is not for a file is handled by the one route whose method and
pattern it has, with the path and the groups; if there is none, it is answered with 404, or with
405 if its method has no table.  No request has two routes. -/
theorem route_site {ε : Type} (on : Endpoint → Handler ε)
    {routes : List (Method × String × Endpoint)} (hperm : routes.Perm siteRoutes)
    (server : HttpServer ε) (hbare : ∀ method, server.table method = []) (req : HttpRequest)
    (hfile : isFileHandler server.files.isRegular server.basedir req = false) :
    (∀ (e : Endpoint) captures, e.Serves req.method req.path captures →
        ((routerOf on routes).mount server).route req = on e req (req.path :: captures)) ∧
      ((∀ (e : Endpoint) captures, ¬ e.Serves req.method req.path captures) →
        ((routerOf on routes).mount server).route req =
          modify fun rsp =>
            { rsp with statu := if (methodOf req.method).isSome then 404 else 405 }) ∧
      ∀ (e : Endpoint) captures (e' : Endpoint) captures', e.Serves req.method req.path captures →
        e'.Serves req.method req.path captures' → e = e' ∧ captures = captures' := by
  refine ⟨fun e captures h => route_of_serves on hperm hbare hfile h, ?_, ?_⟩
  · intro hnone
    obtain ⟨hfiles, hbasedir⟩ := Router.mount_frame (routerOf on routes) server
    rw [route_of_not_file (by rw [hfiles, hbasedir]; exact hfile)]
    cases hm : methodOf req.method with
    | none => rfl
    | some m =>
      dsimp only
      rw [dispatcher_routerOf on hperm hbare]
      cases hlookup : lookup isDigit (patternsOf m siteRoutes) req.path with
      | none => rfl
      | some found =>
        obtain ⟨pat, hpat, hmatches⟩ :=
          (lookup_eq_some_iff (unambiguous_siteRoutes m)).mp hlookup
        exact absurd ⟨m, pat, hm, hpat, hmatches⟩ (hnone found.1 found.2)
  · rintro e captures e' captures' ⟨m, pat, hm, hpat, hmatches⟩ ⟨m', pat', hm', hpat', hmatches'⟩
    obtain rfl : m = m' := Option.some.inj (hm.symm.trans hm')
    have hfound := (lookup_eq_some_iff (unambiguous_siteRoutes m)).mpr ⟨pat, hpat, hmatches⟩
    have hfound' := (lookup_eq_some_iff (unambiguous_siteRoutes m)).mpr ⟨pat', hpat', hmatches'⟩
    exact Prod.mk.inj (Option.some.inj (hfound.symm.trans hfound'))

/-- No files. -/
def noFilesServer : HttpServer Unit := .new ⟨fun _ => false, fun _ body => (body, false)⟩

/-- Handlers that answer with their captures, the upload with 201. -/
def echo (e : Endpoint) : Handler Unit := fun _ captures =>
  modify fun rsp =>
    { rsp with
      statu := if e = .adminUploadTestCases then 201 else 200
      body := captures.flatten }

def uploadRequest : HttpRequest :=
  { HttpRequest.reSet with
    method := ascii "POST"
    path := ascii "/api/admin/problems/7/testcases/upload" }

theorem route_site_upload :
    ((routerOf echo siteRoutes.reverse).mount noFilesServer).route uploadRequest =
      echo .adminUploadTestCases uploadRequest [uploadRequest.path, ascii "7"] := by
  have hbare : ∀ method, noFilesServer.table method = [] := fun method => by cases method <;> rfl
  refine (route_site echo (List.reverse_perm _) noFilesServer hbare uploadRequest rfl).1
    .adminUploadTestCases [ascii "7"] ?_
  have hlookup : lookup isDigit (patternsOf .post siteRoutes) uploadRequest.path =
      some (.adminUploadTestCases, [ascii "7"]) := by decide +kernel
  obtain ⟨pat, hpat, hmatches⟩ := (lookup_eq_some_iff (unambiguous_siteRoutes .post)).mp hlookup
  exact ⟨.post, pat, rfl, hpat, hmatches⟩

end OnlineJudge.Server
