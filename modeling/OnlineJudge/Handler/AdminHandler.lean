/-
# The admin routes

The eleven routes that `RegisterAdminRoutes` (`admin_handler.cpp`) puts into the router.  Each
handler is a `try` block that starts with `RequireAdmin`; what it does for an administrator is
written out below, with every answer it can give.

The upload of a zip file goes through a temporary directory and the program `unzip`.  What comes of
that is a `Zip`; which test cases the unpacked files make is the code's own
(`parseTestcasesFromDir`).

* `refused`: a `try` block that starts with `RequireAdmin` and stops if it gets nothing answers any
  other request without looking at the database.
* `admin_gate`: each of the eleven handlers is one.
* `keeps_adminRoutes`: only the status route writes to the table of users.

The gate is stated for the routes as they stand in the table, and not for a pattern that they are
meant to follow: each of the eleven is shown to be a guarded handler by its own definition, so a
handler that looked at the database first would make the proof fail.
-/
import Mathlib.Data.List.Sort
import OnlineJudge.Handler.HandlerBase
import OnlineJudge.Lib.JsonReader

namespace OnlineJudge.Handler

open ByteString Db Net Auth

/-! ## 1. The gate

Two functions with which every handler of this module begins.  Each sends the answer itself if it
has nothing to return. -/

section

variable {σ : Type} (env : Env)

/-- `RequireAdmin`: the bearer of the token, if it is an administrator's; else an answer and
nothing. -/
def requireAdmin (req : HttpRequest) : Program (World σ) (Option AuthInfo) :=
  match authenticateRequest env.codec env.openSsl env.jwtSecret req env.now with
  | none => do
    sendJson env 401 (errorDoc "unauthorized")
    return none
  | some info =>
    if info.role ≠ ascii "admin" then do
      sendJson env 403 (errorDoc "forbidden")
      return none
    else return some info

/-- `ParseBody`: the document in the body, else an answer and nothing. -/
def parseBody (req : HttpRequest) : Program (World σ) (Option Json) :=
  match env.codec.parse req.body with
  | .error error => do
    sendJson env 400 (.obj [(ascii "error", .str (ascii "invalid json")),
      (ascii "message", .str error)])
    return none
  | .ok body => return some body

/-- The body that says a request is done. -/
def okDoc : Json := .obj [(ascii "ok", .bool true)]

/-- The body that carries the id of a new row. -/
def idDoc (id : Int) : Json := .obj [(ascii "id", .int id)]

/-! ## 2. Problems

A missing field takes its default, and one of another type raises, which the `try` block answers
with 500. -/

/-- The fields of a problem, in the order in which they are read. -/
def readProblem (admin : AuthInfo) (body : Json) : Program (World σ) Problem := do
  let title ← field (body.valueStr (ascii "title") [])
  let description ← field (body.valueStr (ascii "description") [])
  let difficulty ← field (body.valueStr (ascii "difficulty") (ascii "medium"))
  let timeLimitMs ← field (body.valueInt (ascii "time_limit_ms") 1000)
  let memoryLimitKb ← field (body.valueInt (ascii "memory_limit_kb") 262144)
  let status ← field (body.valueStr (ascii "status") (ascii "draft"))
  return { id := 0, title := title, description := description, difficulty := difficulty,
           timeLimitMs := .ofInt timeLimitMs, memoryLimitKb := .ofInt memoryLimitKb,
           status := status, createdBy := admin.userId, createdAt := [], updatedAt := [] }

variable (dao : Dao σ)

/-- `POST /api/admin/problems`. -/
def postProblems : RouteHandler σ := fun req _ => guardAdmin env do
  let some admin ← requireAdmin env req | return ()
  let some body ← parseBody env req | return ()
  let p ← readProblem admin body
  if p.title = [] ∨ p.description = [] then
    sendJson env 400 (errorDoc "title and description required")
  else
    let id ← dao.call (.problemCreate p)
    sendJson env 201 (problemJson { p with id := id })

/-- `GET /api/admin/problems/{id}`. -/
def getProblem : RouteHandler σ := fun req captures => guardAdmin env do
  let some _ ← requireAdmin env req | return ()
  let some id ← positiveId env captures "invalid problem id" | return ()
  match ← dao.call (.problemGetById id) with
  | none => sendJson env 404 (errorDoc "problem not found")
  | some p =>
    let testCases ← dao.call (.testCaseListByProblem id false)
    sendJson env 200 (.obj (problemMembers p ++
      [(ascii "test_cases", .arr (testCases.map testCaseJson))] ++ problemMembersEnd p))

/-- `PUT /api/admin/problems/{id}`. -/
def putProblem : RouteHandler σ := fun req captures => guardAdmin env do
  let some admin ← requireAdmin env req | return ()
  let some id ← positiveId env captures "invalid problem id" | return ()
  let some body ← parseBody env req | return ()
  let p ← readProblem admin body
  if p.title = [] ∨ p.description = [] then
    sendJson env 400 (errorDoc "title and description required")
  else
    let updated ← dao.call (.problemUpdate id p)
    if !updated then sendJson env 404 (errorDoc "problem not found")
    else sendJson env 200 okDoc

/-- `DELETE /api/admin/problems/{id}`. -/
def deleteProblem : RouteHandler σ := fun req captures => guardAdmin env do
  let some _ ← requireAdmin env req | return ()
  let some id ← positiveId env captures "invalid problem id" | return ()
  let deleted ← dao.call (.problemDelete id)
  if !deleted then sendJson env 404 (errorDoc "problem not found")
  else sendJson env 200 okDoc

/-! ## 3. Test cases

A single test case comes in a body, and many of them in an archive.  An upload deletes what is there
before it inserts, one statement after the other and without a transaction. -/

/-- `POST /api/admin/problems/{id}/testcases`. -/
def postTestCases : RouteHandler σ := fun req captures => guardAdmin env do
  let some _ ← requireAdmin env req | return ()
  let some pid ← positiveId env captures "invalid problem id" | return ()
  let some body ← parseBody env req | return ()
  let isSample ← field (body.valueBool (ascii "is_sample") false)
  let input ← field (body.valueStr (ascii "input") [])
  let output ← field (body.valueStr (ascii "output") [])
  let sortOrder ← field (body.valueInt (ascii "sort_order") 0)
  let tc := { id := 0, problemId := pid, isSample := isSample, input := input, output := output,
              sortOrder := .ofInt sortOrder, createdAt := [] : TestCase }
  if input = [] ∧ output = [] then sendJson env 400 (errorDoc "input/output required")
  else
    match ← dao.call (.problemGetById pid) with
    | none => sendJson env 404 (errorDoc "problem not found")
    | some _ =>
      let id ← dao.call (.testCaseAdd tc)
      sendJson env 201 (idDoc id.toInt)

/-- A regular file below the directory of an unpacked archive: its path, and what is in it unless
it cannot be opened. -/
structure DirEntry where
  path : Bytes
  content : Option Bytes

/-- What becomes of the bytes of an upload: the exit code of `unzip`, and the files in the order of
the iterator.  The temporary directory, the file in it or the iterator can fail. -/
structure Zip where
  unzip : Bytes → Except Raised Int
  files : Bytes → Except Raised (List DirEntry)

namespace DirEntry

/-- `p.filename()`. -/
def filename (e : DirEntry) : Bytes := (e.path.reverse.takeWhile (· != 47)).reverse

/-- `p.stem()` and `p.extension()`: cut at the last dot, unless there is none or it comes first. -/
def split (e : DirEntry) : Bytes × Bytes :=
  let ext := e.filename.reverse.takeWhile (· != 46)
  let stem := (e.filename.reverse.drop (ext.length + 1)).reverse
  if 46 ∉ e.filename ∨ stem = [] then (e.filename, []) else (stem, 46 :: ext.reverse)

/-- The index of a file with this extension, which its stem starts with. -/
def index (ext : String) (e : DirEntry) : Option Int :=
  if e.split.2 ≠ ascii ext then none
  else
    match stoi e.split.1 with
    | .error _ => none
    | .ok idx => if idx ≤ 0 then none else some idx

/-- `ReadAll`: what is in the file.  It raises if the file cannot be opened. -/
def readAll (e : DirEntry) : Except Raised Bytes :=
  match e.content with
  | none => .error (.runtime (ascii "failed to read file: " ++ e.path))
  | some content => .ok content

end DirEntry

structure ZipParsedCase where
  sortOrder : Int
  input : Bytes
  output : Bytes
deriving DecidableEq

/-- `ins[idx]` or `outs[idx]`: the last file with this extension and this index. -/
def fileAt (entries : List DirEntry) (ext : String) (idx : Int) : Option DirEntry :=
  (entries.filter fun e => e.index ext == some idx).getLast?

/-- The loop over the indices: each that has an input makes a pair, if its output is there too. -/
def parsePairs (entries : List DirEntry) : List Int → Except Raised (List ZipParsedCase)
  | [] => .ok []
  | idx :: ids =>
    match fileAt entries ".in" idx, fileAt entries ".out" idx with
    | some infile, some outfile => do
      let input ← infile.readAll
      let output ← outfile.readAll
      let cases ← parsePairs entries ids
      return ⟨idx, input, output⟩ :: cases
    | _, _ => parsePairs entries ids

def parseTestcasesFromDir (entries : List DirEntry) : Except Raised (List ZipParsedCase) :=
  parsePairs entries
    ((entries.filterMap fun e => e.index ".in").dedup.insertionSort fun a b => a ≤ b)

/-- The file of an upload: its bytes and its name. -/
def uploadedFile (req : HttpRequest) : Bytes × Bytes :=
  match req.isMultipartFormData, req.files.find? (ascii "file") with
  | true, some file => (file.content, file.filename)
  | _, _ => (req.body, [])

/-- The test case that is added for a pair of files. -/
def ZipParsedCase.testCase (pid : Int64) (item : ZipParsedCase) : TestCase where
  id := 0
  problemId := pid
  isSample := false
  input := item.input
  output := item.output
  sortOrder := .ofInt item.sortOrder
  createdAt := []

/-- The loop over the pairs of an upload, with what is inserted. -/
def addAll (pid : Int64) : List ZipParsedCase → Nat → Program (World σ) Nat
  | [], inserted => return inserted
  | item :: items, inserted => do
    let _ ← dao.call (.testCaseAdd (item.testCase pid))
    addAll pid items (inserted + 1)

/-- The answer to an upload. -/
def uploadedDoc (deleted : Int32) (filename : Bytes) (inserted : Nat) : Json :=
  .obj [(ascii "deleted_non_sample", .int deleted.toInt), (ascii "filename", .str filename),
    (ascii "inserted", .int inserted), (ascii "ok", .bool true)]

/-- The part of an upload that replaces the test cases: they are deleted, and then the new ones are
added. -/
def replaceCases (pid : Int64) (filename : Bytes) (parsed : List ZipParsedCase) :
    Program (World σ) Unit := do
  let deleted ← dao.call (.testCaseDeleteByProblem pid true)
  let inserted ← addAll dao pid parsed 0
  sendJson env 200 (uploadedDoc deleted filename inserted)

variable (zip : Zip)

/-- The part of an upload that unpacks the archive. -/
def replaceFromZip (pid : Int64) (zipBytes filename : Bytes) : Program (World σ) Unit :=
  if zipBytes = [] then sendJson env 400 (errorDoc "zip file required")
  else do
    let code ← Program.ofExcept (zip.unzip zipBytes)
    if code ≠ 0 then
      sendJson env 400 (.obj [(ascii "code", .int code),
        (ascii "error", .str (ascii "unzip failed"))])
    else
      let entries ← Program.ofExcept (zip.files zipBytes)
      let parsed ← Program.ofExcept (parseTestcasesFromDir entries)
      if parsed.isEmpty then sendJson env 400 (errorDoc "no valid *.in/*.out pairs found")
      else replaceCases env dao pid filename parsed

/-- `POST /api/admin/problems/{id}/testcases/upload`. -/
def postUpload : RouteHandler σ := fun req captures => guardAdmin env do
  let some _ ← requireAdmin env req | return ()
  let some pid ← positiveId env captures "invalid problem id" | return ()
  match ← dao.call (.problemGetById pid) with
  | none => sendJson env 404 (errorDoc "problem not found")
  | some _ => replaceFromZip env dao zip pid (uploadedFile req).1 (uploadedFile req).2

/-! ## 4. Languages

The id of a language is an `int`, and is read in another way than the other ids: nothing asks
whether it is positive. -/

/-- The fields of a language, in the order in which they are read. -/
def readLanguage (body : Json) : Program (World σ) Language := do
  let name ← field (body.valueStr (ascii "name") [])
  let extension ← field (body.valueStr (ascii "extension") [])
  let compileCmd ← field (body.valueStr (ascii "compile_cmd") [])
  let runCmd ← field (body.valueStr (ascii "run_cmd") [])
  let enabled ← field (body.valueBool (ascii "enabled") true)
  return { id := 0, name := name, extension := extension, compileCmd := compileCmd,
           runCmd := runCmd, enabled := enabled, createdAt := [] }

/-- A field of the language is missing. -/
def languageIncomplete (lang : Language) : Bool :=
  lang.name.isEmpty || lang.extension.isEmpty || lang.compileCmd.isEmpty || lang.runCmd.isEmpty

/-- `GET /api/admin/languages`. -/
def getLanguages : RouteHandler σ := fun req _ => guardAdmin env do
  let some _ ← requireAdmin env req | return ()
  let languages ← dao.call (.languageListAll false)
  sendJson env 200 (.obj [(ascii "items", .arr (languages.map languageJson))])

/-- `POST /api/admin/languages`. -/
def postLanguages : RouteHandler σ := fun req _ => guardAdmin env do
  let some _ ← requireAdmin env req | return ()
  let some body ← parseBody env req | return ()
  let lang ← readLanguage body
  if languageIncomplete lang then
    sendJson env 400 (errorDoc "name/extension/compile_cmd/run_cmd required")
  else
    let id ← dao.call (.languageCreate lang)
    sendJson env 201 (idDoc id.toInt)

/-- The id of a language: a number that `std::stoi` reads, else 400. -/
def languageId (captures : List Bytes) : Program (World σ) (Option Int32) :=
  match captures[1]?.map stoi with
  | some (.ok id) => return some (.ofInt id)
  | _ => do
    sendJson env 400 (errorDoc "invalid language id")
    return none

/-- `PUT /api/admin/languages/{id}`. -/
def putLanguage : RouteHandler σ := fun req captures => guardAdmin env do
  let some _ ← requireAdmin env req | return ()
  let some id ← languageId env captures | return ()
  let some body ← parseBody env req | return ()
  let lang ← readLanguage body
  if languageIncomplete lang then
    sendJson env 400 (errorDoc "name/extension/compile_cmd/run_cmd required")
  else
    let updated ← dao.call (.languageUpdate id lang)
    if !updated then sendJson env 404 (errorDoc "language not found")
    else sendJson env 200 okDoc

/-! ## 5. Submissions and users

The list of all submissions, and the status of a user.  The status is the one thing that these
routes write about a user. -/

/-- `GET /api/admin/submissions`. -/
def getSubmissions : RouteHandler σ := fun req _ => guardAdmin env do
  let some _ ← requireAdmin env req | return ()
  let limit := clampInt (parseIntParam req "limit" 20) 1 100
  let offset := max 0 (parseIntParam req "offset" 0)
  let submissions ← dao.call (.submissionListAll limit offset)
  sendJson env 200 (.obj [(ascii "count", .int submissions.length),
    (ascii "items", .arr (submissions.map (submissionJson · none))), (ascii "limit", .int limit),
    (ascii "offset", .int offset)])

/-- The part of the status route that stores the status. -/
def storeStatus (uid : Int64) (status : Bytes) : Program (World σ) Unit := do
  let updated ← dao.call (.userUpdateStatus uid status)
  if !updated then sendJson env 404 (errorDoc "user not found")
  else sendJson env 200 okDoc

/-- `PUT /api/admin/users/{id}/status`. -/
def putUserStatus : RouteHandler σ := fun req captures => guardAdmin env do
  let some _ ← requireAdmin env req | return ()
  let some uid ← positiveId env captures "invalid user id" | return ()
  let some body ← parseBody env req | return ()
  let status ← field (body.valueStr (ascii "status") [])
  if status ≠ ascii "active" ∧ status ≠ ascii "banned" then
    sendJson env 400 (errorDoc "status must be active or banned")
  else storeStatus env dao uid status

/-! ## 6. The routes

In the order in which they are registered. -/

/-- A route of the router: the method, the regular expression and the handler. -/
structure AdminRoute (σ : Type) where
  method : String
  pattern : String
  handler : RouteHandler σ

/-- The place of the status route among them. -/
def statusRoute : Nat := 10

/-- `RegisterAdminRoutes`. -/
def adminRoutes : List (AdminRoute σ) :=
  [⟨"POST", "/api/admin/problems", postProblems env dao⟩,
    ⟨"GET", "/api/admin/problems/(\\d+)", getProblem env dao⟩,
    ⟨"PUT", "/api/admin/problems/(\\d+)", putProblem env dao⟩,
    ⟨"DELETE", "/api/admin/problems/(\\d+)", deleteProblem env dao⟩,
    ⟨"POST", "/api/admin/problems/(\\d+)/testcases", postTestCases env dao⟩,
    ⟨"POST", "/api/admin/problems/(\\d+)/testcases/upload", postUpload env dao zip⟩,
    ⟨"GET", "/api/admin/languages", getLanguages env dao⟩,
    ⟨"POST", "/api/admin/languages", postLanguages env dao⟩,
    ⟨"PUT", "/api/admin/languages/(\\d+)", putLanguage env dao⟩,
    ⟨"GET", "/api/admin/submissions", getSubmissions env dao⟩,
    ⟨"PUT", "/api/admin/users/(\\d+)/status", putUserStatus env dao⟩]

end

/-! ## 7. Who gets through

A request is turned away in one of two ways, and the answer depends on the request only.  So it is
fixed before any database is chosen. -/

/-- The request's Authorization header is `Bearer ` and a token of an administrator. -/
def BearsAdmin (env : Env) (req : HttpRequest) : Prop :=
  ∃ token info, req.headers.find? (ascii "Authorization") = some (ascii "Bearer " ++ token) ∧
    verifyJwt env.codec env.openSsl env.jwtSecret token env.now = some info ∧
    info.role = ascii "admin"

theorem requireAdmin_eq {env : Env} {σ : Type} {req : HttpRequest} {info : AuthInfo}
    (hinfo : authenticateRequest env.codec env.openSsl env.jwtSecret req env.now = some info)
    (hrole : info.role = ascii "admin") :
    (requireAdmin env req : Program (World σ) (Option AuthInfo)) = pure (some info) := by
  rw [requireAdmin, hinfo]
  dsimp only
  rw [if_neg (not_not.mpr hrole)]

/-- A handler goes on with the administrator. -/
theorem requireAdmin_bind {env : Env} {σ : Type} {req : HttpRequest} {info : AuthInfo}
    (hinfo : authenticateRequest env.codec env.openSsl env.jwtSecret req env.now = some info)
    (hrole : info.role = ascii "admin") (rest : Option AuthInfo → Program (World σ) Unit) :
    requireAdmin env req >>= rest = rest (some info) := by
  rw [requireAdmin_eq hinfo hrole]
  rfl

/-- Without a token that is accepted, `RequireAdmin` answers 401. -/
theorem run_requireAdmin_of_none {env : Env} (hdump : env.codec.DumpsUtf8) {req : HttpRequest}
    (h : authenticateRequest env.codec env.openSsl env.jwtSecret req env.now = none) :
    ∃ text, ∀ {σ : Type} (w : World σ),
      (requireAdmin env req).run w = (.ok none, w.answered 401 text) := by
  obtain ⟨text, htext⟩ := hdump.exists_dump (v := errorDoc "unauthorized") (by decide)
  refine ⟨text, fun w => ?_⟩
  rw [requireAdmin, h]
  dsimp only
  rw [Program.run_bind_ok (run_sendJson env htext _ w)]
  rfl

/-- With the token of somebody else it answers 403. -/
theorem run_requireAdmin_of_role {env : Env} (hdump : env.codec.DumpsUtf8) {req : HttpRequest}
    {info : AuthInfo}
    (h : authenticateRequest env.codec env.openSsl env.jwtSecret req env.now = some info)
    (hrole : info.role ≠ ascii "admin") :
    ∃ text, ∀ {σ : Type} (w : World σ),
      (requireAdmin env req).run w = (.ok none, w.answered 403 text) := by
  obtain ⟨text, htext⟩ := hdump.exists_dump (v := errorDoc "forbidden") (by decide)
  refine ⟨text, fun w => ?_⟩
  rw [requireAdmin, h]
  dsimp only
  rw [if_pos hrole, Program.run_bind_ok (run_sendJson env htext _ w)]
  rfl

/-- Without the token of an administrator `RequireAdmin` answers 401 or 403, whatever the database
is, and returns nothing. -/
theorem run_requireAdmin_of_not {env : Env} (hdump : env.codec.DumpsUtf8) {req : HttpRequest}
    (h : ¬ BearsAdmin env req) :
    ∃ status text, (status = 401 ∨ status = 403) ∧ ∀ {σ : Type} (w : World σ),
      (requireAdmin env req).run w = (.ok none, w.answered status text) := by
  cases hinfo : authenticateRequest env.codec env.openSsl env.jwtSecret req env.now with
  | none =>
    obtain ⟨text, hrun⟩ := run_requireAdmin_of_none hdump hinfo
    exact ⟨401, text, Or.inl rfl, hrun⟩
  | some info =>
    obtain ⟨token, hheader, hverify⟩ := authenticateRequest_eq_some_iff.mp hinfo
    have hrole : info.role ≠ ascii "admin" := fun hrole => h ⟨token, info, hheader, hverify, hrole⟩
    obtain ⟨text, hrun⟩ := run_requireAdmin_of_role hdump hinfo hrole
    exact ⟨403, text, Or.inr rfl, hrun⟩

/-- **A handler that starts with `RequireAdmin` and returns if it gets nothing** answers such a
request with what `RequireAdmin` has answered, and does nothing else. -/
theorem refused {env : Env} {σ : Type} {req : HttpRequest} {w w' : World σ}
    {rest : Option AuthInfo → Program (World σ) Unit} (hrest : rest none = pure ())
    (h : (requireAdmin env req).run w = (.ok none, w')) :
    (guardAdmin env (requireAdmin env req >>= rest)).run w = (.ok (), w') := by
  have hrun : (requireAdmin env req >>= rest).run w = (.ok (), w') := by
    rw [Program.run_bind_ok h, hrest]
    rfl
  exact Program.run_tryCatch_ok hrun _

theorem parseBody_bind {env : Env} {σ : Type} {req : HttpRequest} {body : Json}
    (h : env.codec.parse req.body = .ok body) (rest : Option Json → Program (World σ) Unit) :
    parseBody env req >>= rest = rest (some body) := by
  rw [parseBody, h]
  rfl

/-- **The gate.**  A request without the token of an administrator is answered 401 or 403 by every
admin route.  The answer is the same whatever the database and the DAO layer are, no DAO operation
is called and the database is left as it was. -/
theorem admin_gate (env : Env) (hdump : env.codec.DumpsUtf8) (req : HttpRequest)
    (h : ¬ BearsAdmin env req) (rsp₀ : HttpResponse) :
    ∃ rsp : HttpResponse, (rsp.statu = 401 ∨ rsp.statu = 403) ∧
      ∀ {σ : Type} (dao : Dao σ) (zip : Zip), ∀ route ∈ adminRoutes env dao zip,
        ∀ (captures : List Bytes) (calls : Nat) (db : σ),
          (route.handler req captures).run ⟨rsp₀, calls, db⟩ = (.ok (), ⟨rsp, calls, db⟩) := by
  obtain ⟨status, text, hstatus, hrun⟩ := run_requireAdmin_of_not hdump h
  refine ⟨{ rsp₀ with statu := status }.setContent text (ascii "application/json"), hstatus, ?_⟩
  intro σ dao zip route hroute captures calls db
  have hrefused := hrun (⟨rsp₀, calls, db⟩ : World σ)
  simp only [adminRoutes, List.mem_cons, List.not_mem_nil, or_false] at hroute
  -- each of the eleven is such a handler, by its definition
  rcases hroute with rfl | rfl | rfl | rfl | rfl | rfl | rfl | rfl | rfl | rfl | rfl
  all_goals exact refused rfl hrefused

/-- An environment with the key `secret`, where the payload of one token can be read. -/
def sampleEnv : Env where
  codec := Json.printing (.compact fun _ => []) sampleCodec.parse
  openSsl := sampleOpenSsl
  jwtSecret := ascii "secret"
  now := sampleInstant
  libraryText _ := ascii "exception"

/-- The token of an administrator. -/
def sampleToken : Bytes :=
  urlText sampleHeaderText ++ 46 :: (urlText samplePayloadText ++ 46 :: urlText (sampleMac []))

/-- A request with this token. -/
def bearerRequest (token body : Bytes) : HttpRequest :=
  { HttpRequest.reSet with
    headers := .insert .empty (ascii "Authorization") (ascii "Bearer " ++ token)
    body := body }

/-- A request of this administrator, with any body. -/
def sampleRequest (body : Bytes) : HttpRequest := bearerRequest sampleToken body

/-- The same site with a JSON library that reads whatever it has written. -/
def studentEnv : Env := { sampleEnv with codec := .standard (.compact fun _ => []) }

/-- The claims of a student. -/
def studentClaims : AuthInfo := ⟨8, ascii "eve", ascii "student"⟩

/-- A student has a token that is accepted. -/
theorem exists_studentToken : ∃ token,
    authenticateRequest studentEnv.codec studentEnv.openSsl studentEnv.jwtSecret
      (bearerRequest token []) studentEnv.now = some studentClaims := by
  have hdump : studentEnv.codec.DumpsUtf8 := Json.standard_dumpsUtf8 _
  have hback : studentEnv.codec.ReadsBack (jwtPayload studentClaims sampleInstant 3600) :=
    Json.standard_readsBack (Json.separates_compact _) rfl
  obtain ⟨token, htoken⟩ : ∃ token, generateJwt studentEnv.codec sampleOpenSsl
      studentEnv.jwtSecret studentClaims 3600 sampleInstant = .ok token :=
    exists_generateJwt hdump (fun _ => rfl) (by decide) (by decide) 3600 sampleInstant
  have hverify : verifyJwt studentEnv.codec sampleOpenSsl studentEnv.jwtSecret token
      sampleInstant = some studentClaims := by
    rw [verifyJwt_generateJwt sampleOpenSsl_writesBase64 sampleOpenSsl_readsBase64 hback
      (by decide) htoken, if_pos (by decide)]
  exact ⟨token, authenticateRequest_eq_some_iff.mpr ⟨token, rfl, hverify⟩⟩

/-- A request without a header is turned away, and so is a student, with 403. -/
theorem admin_gate_student :
    (∃ rsp : HttpResponse, (rsp.statu = 401 ∨ rsp.statu = 403) ∧
      ∀ {σ : Type} (dao : Dao σ) (zip : Zip), ∀ route ∈ adminRoutes sampleEnv dao zip,
        ∀ (captures : List Bytes) (calls : Nat) (db : σ),
          (route.handler .reSet captures).run ⟨.ofStatu 200, calls, db⟩ =
            (.ok (), ⟨rsp, calls, db⟩)) ∧
      ∃ (token : Bytes) (rsp : HttpResponse),
        authenticateRequest studentEnv.codec studentEnv.openSsl studentEnv.jwtSecret
          (bearerRequest token []) studentEnv.now = some studentClaims ∧ rsp.statu = 403 ∧
        ∀ {σ : Type} (dao : Dao σ) (zip : Zip), ∀ route ∈ adminRoutes studentEnv dao zip,
          ∀ (captures : List Bytes) (calls : Nat) (db : σ),
            (route.handler (bearerRequest token []) captures).run ⟨.ofStatu 200, calls, db⟩ =
              (.ok (), ⟨rsp, calls, db⟩) := by
  refine ⟨admin_gate sampleEnv (Json.printing_dumpsUtf8 _ _) .reSet
    (fun ⟨_, _, hheader, _⟩ => nomatch hheader) (.ofStatu 200), ?_⟩
  obtain ⟨token, hinfo⟩ := exists_studentToken
  have hdump : studentEnv.codec.DumpsUtf8 := Json.standard_dumpsUtf8 _
  have hrole : studentClaims.role ≠ ascii "admin" := by decide
  have hnot : ¬ BearsAdmin studentEnv (bearerRequest token []) := by
    rintro ⟨token', info, hheader, hverify, hadmin⟩
    obtain rfl := Option.some.inj
      (hinfo.symm.trans (authenticateRequest_eq_some_iff.mpr ⟨token', hheader, hverify⟩))
    exact hrole hadmin
  obtain ⟨rsp, -, hall⟩ := admin_gate studentEnv hdump _ hnot (.ofStatu 200)
  refine ⟨token, rsp, hinfo, ?_, hall⟩
  -- one route shows which of the two it is
  obtain ⟨text, hforbidden⟩ := run_requireAdmin_of_role hdump hinfo hrole
  have hanswer := hall (σ := Unit) ⟨fun _ _ => throw (.runtime [])⟩
    ⟨fun _ => .ok 0, fun _ => .ok []⟩ _ List.mem_cons_self [] 0 ()
  have hrefused := (refused rfl (hforbidden ⟨.ofStatu 200, 0, ()⟩)).symm.trans hanswer
  exact congrArg (fun r => r.2.response.statu) hrefused.symm

/-! ## 8. What the routes leave alone

Whatever property of a database all operations keep but those that write to the table of users, ten
of the eleven routes keep.  The proof goes through each handler from its first line to its last. -/

section

open Program

variable {σ : Type} (env : Env) {dao : Dao σ} {P : σ → Prop}

theorem keeps_requireAdmin (req : HttpRequest) :
    Keeps (fun w : World σ => P w.db) (requireAdmin env req) := by
  unfold requireAdmin
  split
  · exact keeps_sendJson_none env _ _
  · split
    · exact keeps_sendJson_none env _ _
    · exact keeps_pure _

theorem keeps_parseBody (req : HttpRequest) :
    Keeps (fun w : World σ => P w.db) (parseBody env req) := by
  unfold parseBody
  split
  · exact keeps_sendJson_none env _ _
  · exact keeps_pure _

theorem keeps_languageId (captures : List Bytes) :
    Keeps (fun w : World σ => P w.db) (languageId env captures) := by
  unfold languageId
  split
  · exact keeps_pure _
  · exact keeps_sendJson_none env _ _

theorem keeps_readProblem (admin : AuthInfo) (body : Json) :
    Keeps (fun w : World σ => P w.db) (readProblem admin body) := by
  unfold readProblem field
  repeat' refine Keeps.bind (keeps_ofExcept _) fun _ => ?_
  exact keeps_pure _

theorem keeps_readLanguage (body : Json) :
    Keeps (fun w : World σ => P w.db) (readLanguage body) := by
  unfold readLanguage field
  repeat' refine Keeps.bind (keeps_ofExcept _) fun _ => ?_
  exact keeps_pure _

/-- Every operation that does not write to the table of users keeps `P`.  Of the handlers of this
module only one writes to that table. -/
def KeptBut (dao : Dao σ) (P : σ → Prop) : Prop :=
  ∀ {α : Type} (op : DaoOp α), op.writesUsers = false → Kept dao P op

variable (hdao : KeptBut dao P)
include hdao

theorem keeps_addAll (pid : Int64) (items : List ZipParsedCase) (n : Nat) :
    Keeps (fun w : World σ => P w.db) (addAll dao pid items n) := by
  induction items generalizing n with
  | nil => exact keeps_pure n
  | cons item items ih => exact Keeps.bind (keeps_call (hdao _ rfl)) fun _ => ih (n + 1)

theorem keeps_replaceFromZip (zip : Zip) (pid : Int64) (zipBytes filename : Bytes) :
    Keeps (fun w : World σ => P w.db) (replaceFromZip env dao zip pid zipBytes filename) := by
  unfold replaceFromZip
  split
  · exact keeps_sendJson env _ _
  · refine Keeps.bind (keeps_ofExcept _) fun code => ?_
    split
    · exact keeps_sendJson env _ _
    · refine Keeps.bind (keeps_ofExcept _) fun entries => ?_
      refine Keeps.bind (keeps_ofExcept _) fun parsed => ?_
      split
      · exact keeps_sendJson env _ _
      · refine Keeps.bind (keeps_call (hdao _ rfl)) fun deleted => ?_
        exact Keeps.bind (keeps_addAll hdao pid parsed 0) fun _ => keeps_sendJson env _ _

/-- **Only the status route writes to the table of users.**  Every other route keeps what all
other operations keep. -/
theorem keeps_adminRoutes {zip : Zip} {i : Nat} {route : AdminRoute σ}
    (hroute : (adminRoutes env dao zip)[i]? = some route) (hi : i ≠ statusRoute)
    (req : HttpRequest) (captures : List Bytes) :
    Keeps (fun w : World σ => P w.db) (route.handler req captures) := by
  have hgate : Keeps (fun w : World σ => P w.db) (requireAdmin env req) :=
    keeps_requireAdmin env req
  have hbody : Keeps (fun w : World σ => P w.db) (parseBody env req) := keeps_parseBody env req
  have hsend : ∀ status body, Keeps (fun w : World σ => P w.db) (sendJson env status body) :=
    fun status body => keeps_sendJson env status body
  match i with
  | 0 =>
    obtain rfl := Option.some.inj hroute
    refine keeps_guardAdmin env (keeps_check hgate rfl fun admin => ?_)
    refine keeps_check hbody rfl fun body => Keeps.bind (keeps_readProblem admin body) fun p => ?_
    split
    · exact hsend _ _
    · exact Keeps.bind (keeps_call (hdao _ rfl)) fun id => hsend _ _
  | 1 =>
    obtain rfl := Option.some.inj hroute
    refine keeps_guardAdmin env (keeps_check hgate rfl fun _ => ?_)
    refine keeps_check (keeps_positiveId env _ _) rfl fun id => ?_
    refine Keeps.bind (keeps_call (hdao _ rfl)) fun found => ?_
    split
    · exact hsend _ _
    · exact Keeps.bind (keeps_call (hdao _ rfl)) fun testCases => hsend _ _
  | 2 =>
    obtain rfl := Option.some.inj hroute
    refine keeps_guardAdmin env (keeps_check hgate rfl fun admin => ?_)
    refine keeps_check (keeps_positiveId env _ _) rfl fun id => ?_
    refine keeps_check hbody rfl fun body => Keeps.bind (keeps_readProblem admin body) fun p => ?_
    split
    · exact hsend _ _
    · refine Keeps.bind (keeps_call (hdao _ rfl)) fun updated => ?_
      split <;> exact hsend _ _
  | 3 =>
    obtain rfl := Option.some.inj hroute
    refine keeps_guardAdmin env (keeps_check hgate rfl fun _ => ?_)
    refine keeps_check (keeps_positiveId env _ _) rfl fun id => ?_
    refine Keeps.bind (keeps_call (hdao _ rfl)) fun deleted => ?_
    split <;> exact hsend _ _
  | 4 =>
    obtain rfl := Option.some.inj hroute
    refine keeps_guardAdmin env (keeps_check hgate rfl fun _ => ?_)
    refine keeps_check (keeps_positiveId env _ _) rfl fun pid => ?_
    refine keeps_check hbody rfl fun body => ?_
    unfold field
    refine Keeps.bind (keeps_ofExcept _) fun isSample =>
      Keeps.bind (keeps_ofExcept _) fun input => ?_
    refine Keeps.bind (keeps_ofExcept _) fun output =>
      Keeps.bind (keeps_ofExcept _) fun sortOrder => ?_
    split
    · exact hsend _ _
    · refine Keeps.bind (keeps_call (hdao _ rfl)) fun found => ?_
      split
      · exact hsend _ _
      · exact Keeps.bind (keeps_call (hdao _ rfl)) fun id => hsend _ _
  | 5 =>
    obtain rfl := Option.some.inj hroute
    refine keeps_guardAdmin env (keeps_check hgate rfl fun _ => ?_)
    refine keeps_check (keeps_positiveId env _ _) rfl fun pid => ?_
    refine Keeps.bind (keeps_call (hdao _ rfl)) fun found => ?_
    split
    · exact hsend _ _
    · exact keeps_replaceFromZip env hdao zip pid _ _
  | 6 =>
    obtain rfl := Option.some.inj hroute
    refine keeps_guardAdmin env (keeps_check hgate rfl fun _ => ?_)
    exact Keeps.bind (keeps_call (hdao _ rfl)) fun languages => hsend _ _
  | 7 =>
    obtain rfl := Option.some.inj hroute
    refine keeps_guardAdmin env (keeps_check hgate rfl fun _ => ?_)
    refine keeps_check hbody rfl fun body => Keeps.bind (keeps_readLanguage body) fun lang => ?_
    split
    · exact hsend _ _
    · exact Keeps.bind (keeps_call (hdao _ rfl)) fun id => hsend _ _
  | 8 =>
    obtain rfl := Option.some.inj hroute
    refine keeps_guardAdmin env (keeps_check hgate rfl fun _ => ?_)
    refine keeps_check (keeps_languageId env _) rfl fun id => ?_
    refine keeps_check hbody rfl fun body => Keeps.bind (keeps_readLanguage body) fun lang => ?_
    split
    · exact hsend _ _
    · refine Keeps.bind (keeps_call (hdao _ rfl)) fun updated => ?_
      split <;> exact hsend _ _
  | 9 =>
    obtain rfl := Option.some.inj hroute
    refine keeps_guardAdmin env (keeps_check hgate rfl fun _ => ?_)
    exact Keeps.bind (keeps_call (hdao _ rfl)) fun submissions => hsend _ _
  | 10 => exact absurd rfl hi
  | i + 11 => cases hroute

end

end OnlineJudge.Handler
