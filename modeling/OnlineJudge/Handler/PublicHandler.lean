/-
# The routes that need no token

`problem_handler.cpp`, and the routes of `submission_handler.cpp` that only read: the list of the
problems and one of them with its samples, the languages, a submission, and the submissions of a
user.  Nobody asks who is reading.

So what these routes answer is public, and the question is what goes into it.  `public_confidential`
answers it with two databases: where they agree on the problems, the languages, the submissions and
the samples, no request tells them apart, whatever fails in between.  That is noninterference, and
it is proved as such: `Agrees SameView` says of a program that from two worlds with the same view it
returns the same and leaves two worlds with the same view, every operation that the handlers call is
shown to have this property, and the rules of `Lib/TwoRuns.lean` put them together.

What it does not say: that the expected output of a test case which is no sample is unknown to a
reader.  The submissions are among the tables that the databases have to agree on, and the result
that is stored with a submission has the expected output of each of its test cases in it
(`ExecuteJudgeRequest`).  `GET /api/submissions/{id}` shows it, as it is meant to.
-/
import OnlineJudge.Db.SubmissionReads
import OnlineJudge.Handler.AdminHandler
import OnlineJudge.Handler.SubmissionHandler
import OnlineJudge.Handler.Submit
import OnlineJudge.Lib.TwoRuns

namespace OnlineJudge.Handler

open ByteString Db Net

/-! ## 1. The handlers

None of them looks at a token.  What they take from a request is an id, a page and a filter. -/

/-- What these handlers call: the operations that others use too, and two lists. -/
structure PublicOps (σ : Type) where
  dao : Dao σ
  listProblems : Int → Int → Bytes → Program (World σ) (List Problem)
  listByUser : Int64 → Int → Int → Program (World σ) (List Db.Submission)

def normalizeStatusFilter (status : Bytes) : Bytes := status.map toLower

/-- The body of a list of problems. -/
def problemsDoc (limit offset : Int) (items : List Problem) : Json :=
  .obj [(ascii "count", .int items.length), (ascii "items", .arr (items.map problemJson)),
    (ascii "limit", .int limit), (ascii "offset", .int offset)]

/-- The body of a list of submissions. -/
def submissionsDoc (userId : Int64) (limit offset : Int) (items : List Db.Submission) : Json :=
  .obj [(ascii "count", .int items.length),
    (ascii "items", .arr (items.map (submissionJson · none))), (ascii "limit", .int limit),
    (ascii "offset", .int offset), (ascii "user_id", .int userId.toInt)]

namespace Public

variable {σ : Type} (env : Env) (ops : PublicOps σ)

/-- `GET /api/problems`. -/
def getProblems : RouteHandler σ := fun req _ => guardJsonHandler env do
  let limit := clampInt (parseIntParam req "limit" 20) 1 100
  let offset := max 0 (parseIntParam req "offset" 0)
  let status :=
    if req.hasParam (ascii "status") then normalizeStatusFilter (req.getParam (ascii "status"))
    else []
  let items ← ops.listProblems limit offset status
  sendJson env 200 (problemsDoc limit offset items)

/-- `GET /api/problems/{id}`. -/
def getProblem : RouteHandler σ := fun _ captures => guardJsonHandler env do
  match capturedId captures with
  | none => sendJsonError env 400 "invalid problem id" []
  | some id =>
    match ← ops.dao.call (.problemGetById id) with
    | none => sendJsonError env 404 "problem not found" []
    | some problem =>
      let samples ← ops.dao.call (.testCaseListByProblem id true)
      sendJson env 200 (setIn "samples" (.arr (samples.map testCaseJson)) (problemJson problem))

/-- `GET /api/languages`. -/
def getLanguages : RouteHandler σ := fun _ _ => guardJsonHandler env do
  let languages ← ops.dao.call (.languageListAll true)
  sendJson env 200 (.obj [(ascii "items", .arr (languages.map languageJson))])

/-- `GET /api/submissions`. -/
def getSubmissions : RouteHandler σ := fun req _ => guardJsonHandler env do
  if !req.hasParam (ascii "user_id") then sendJsonError env 400 "user_id is required" []
  else
    match parseInt64 (req.getParam (ascii "user_id")) with
    | none => sendJsonError env 400 "invalid user_id" []
    | some userId =>
      if userId ≤ 0 then sendJsonError env 400 "invalid user_id" []
      else
        let limit := clampInt (parseIntParam req "limit" 20) 1 100
        let offset := max 0 (parseIntParam req "offset" 0)
        let items ← ops.listByUser userId limit offset
        sendJson env 200 (submissionsDoc userId limit offset items)

/-- All of them, with the handler of a single submission. -/
def routes : List (RouteHandler σ) :=
  [getProblems env ops, getProblem env ops, getLanguages env ops, getSubmission env ops.dao,
    getSubmissions env ops]

end Public

/-! ## 2. The database behind them

The tables are lists of rows, read by the DAO classes as in `Db.Reads`, so that a row that cannot be
read makes an answer fail here as well. -/

/-- The tables that they read, and the rest of the database. -/
structure PublicDb (τ : Type) where
  problems : List ProblemRow
  languages : List LanguageRow
  testCases : List TestCaseRow
  submissions : List StoredSubmission
  rest : τ

/-- A database server during one request.  `fails k` is the exception of its `k`-th operation,
`same` equality of texts in the collation, `selectJson` what is selected of a stored result;
`others` are the operations on the rest. -/
structure PublicServer (τ : Type) where
  same : Bytes → Bytes → Bool
  selectJson : Bytes → Bytes
  fails : Nat → Option Raised
  others : Dao τ

namespace PublicServer

variable {τ : Type} (server : PublicServer τ)

/-- The DAO layer over these tables. -/
def dao : Dao (PublicDb τ) where
  perform k op db :=
    match server.fails k with
    | some e => (.error e, db)
    | none =>
      match op with
      | .problemGetById id => (ProblemDao.getById db.problems id, db)
      | .testCaseListByProblem id onlySample =>
        (TestCaseDao.listByProblem db.testCases id onlySample, db)
      | .languageListAll onlyEnabled => (LanguageDao.listAll db.languages onlyEnabled, db)
      | .submissionGetById id =>
        (SubmissionDao.getStored server.selectJson db.submissions id, db)
      | op =>
        let (result, rest) := (server.others.perform k op).run db.rest
        (result, { db with rest := rest })

/-- The result of the `k`-th operation, if `result` is what it reads. -/
def answer {α : Type} (k : Nat) (result : Except Raised α) : Except Raised α :=
  match server.fails k with
  | some e => .error e
  | none => result

/-- A list: an operation like the others, that changes nothing. -/
def list {α : Type} (read : PublicDb τ → Except Raised α) : Program (World (PublicDb τ)) α :=
  fun w => (server.answer w.calls (read w.db), { w with calls := w.calls + 1 })

theorem answer_eq_ok {server : PublicServer τ} {α : Type} {k : Nat} {result : Except Raised α}
    {a : α} (h : server.answer k result = .ok a) : result = .ok a := by
  unfold answer at h
  split at h
  · cases h
  · exact h

/-- What the handlers call. -/
def ops : PublicOps (PublicDb τ) where
  dao := server.dao
  listProblems limit offset status :=
    server.list fun db => ProblemDao.list server.same db.problems limit.toNat offset.toNat status
  listByUser userId limit offset :=
    server.list fun db =>
      SubmissionDao.listByUser db.submissions userId limit.toNat offset.toNat

end PublicServer

/-! ## 3. What they tell

Two worlds with the same view are run side by side.  A read depends on tables on which they agree,
or on the samples only, so it returns the same in both, and so does everything that follows from it.
-/

/-- A test case that is a sample. -/
def sample (row : TestCaseRow) : Bool := row.isSample == some 1

/-- The databases agree on the tables that are public, and on the samples.  A submission is taken
with the result that is stored in it. -/
structure SamePublic {τ : Type} (db db' : PublicDb τ) : Prop where
  problems : db.problems = db'.problems
  languages : db.languages = db'.languages
  samples : db.testCases.filter sample = db'.testCases.filter sample
  submissions : db.submissions = db'.submissions

/-- The requests have come equally far, with the same response so far, on two databases whose public
parts are the same. -/
structure SameView {τ : Type} (w w' : World (PublicDb τ)) : Prop where
  response : w.response = w'.response
  calls : w.calls = w'.calls
  db : SamePublic w.db w'.db

open Program

section

variable {τ : Type} {server : PublicServer τ} {w w' : World (PublicDb τ)}

/-- The samples of a problem are a matter of the samples. -/
theorem listByProblem_samples {rows rows' : List TestCaseRow}
    (h : rows.filter sample = rows'.filter sample) (problemId : Int64) :
    TestCaseDao.listByProblem rows problemId true =
      TestCaseDao.listByProblem rows' problemId true := by
  have hsplit : ∀ rows : List TestCaseRow,
      (rows.filter fun row => row.problemId == problemId && (!true || row.isSample == some 1)) =
        (rows.filter sample).filter fun row => row.problemId == problemId := by
    intro rows
    rw [List.filter_filter]
    rfl
  rw [TestCaseDao.listByProblem, TestCaseDao.listByProblem, TestCaseDao.select, TestCaseDao.select,
    hsplit, hsplit, h]

theorem agrees_list {α : Type} {read : PublicDb τ → Except Raised α}
    (hread : ∀ db db', SamePublic db db' → read db = read db') :
    Program.Agrees SameView (server.list read) := by
  intro w w' hw
  refine ⟨?_, ⟨hw.response, congrArg (· + 1) hw.calls, hw.db⟩⟩
  simp only [PublicServer.list, ExceptT.run, hw.calls, hread _ _ hw.db]

theorem agrees_call {α : Type} {op : DaoOp α}
    (hop : ∀ k (db db' : PublicDb τ), SamePublic db db' →
      ((server.dao.perform k op).run db).1 = ((server.dao.perform k op).run db').1 ∧
        SamePublic ((server.dao.perform k op).run db).2 ((server.dao.perform k op).run db').2) :
    Program.Agrees SameView (server.dao.call op) := by
  intro w w' hw
  obtain ⟨hresult, hdb⟩ := hop w.calls w.db w'.db hw.db
  rw [run_call, run_call, ← hw.calls]
  exact ⟨hresult, hw.response, rfl, hdb⟩

/-- The operations that these handlers call. -/
def reads {α : Type} : DaoOp α → Bool
  | .problemGetById _ | .testCaseListByProblem _ true | .languageListAll _
  | .submissionGetById _ => true
  | _ => false

/-- An operation that reads for the public gives the same on two databases that look the same to it.
-/
theorem agrees_reads {α : Type} {op : DaoOp α} (hop : reads op = true) :
    Program.Agrees SameView (server.dao.call op) := by
  refine agrees_call fun k db db' h => ?_
  simp only [PublicServer.dao, ExceptT.run]
  cases server.fails k with
  | some e => exact ⟨rfl, h⟩
  | none =>
    cases op with
    | problemGetById id => exact ⟨by rw [h.problems], h⟩
    | testCaseListByProblem id onlySample =>
      cases onlySample with
      | false => cases hop
      | true => exact ⟨listByProblem_samples h.samples id, h⟩
    | languageListAll onlyEnabled => exact ⟨by rw [h.languages], h⟩
    | submissionGetById id => exact ⟨by rw [h.submissions], h⟩
    | _ => cases hop

end

section

variable {τ : Type} (env : Env)

theorem agrees_sendJson (status : Int) (body : Json) :
    Program.Agrees (@SameView τ) (sendJson env status body) := by
  refine Program.Agrees.bind (agrees_modify fun w w' h => ?_) fun _ =>
    Program.Agrees.bind (agrees_ofExcept _) fun text => agrees_modify fun w w' h => ?_
  · exact ⟨by rw [World.marked, World.marked, h.response], h.calls, h.db⟩
  · exact ⟨by rw [h.response], h.calls, h.db⟩

theorem agrees_guardJsonHandler {fn : Program (World (PublicDb τ)) Unit}
    (h : Program.Agrees SameView fn) : Program.Agrees SameView (guardJsonHandler env fn) :=
  Program.Agrees.tryCatch h fun _ => agrees_sendJson env _ _

/-- **No handler tells two such databases apart**: each is put together from reads for the public
and from what is done to the response. -/
theorem agrees_routes (server : PublicServer τ) {handler : RouteHandler (PublicDb τ)}
    (hhandler : handler ∈ Public.routes env server.ops) (req : HttpRequest)
    (captures : List Bytes) : Program.Agrees SameView (handler req captures) := by
  have hsend : ∀ status body, Program.Agrees (@SameView τ) (sendJson env status body) :=
    agrees_sendJson env
  simp only [Public.routes, List.mem_cons, List.not_mem_nil, or_false] at hhandler
  rcases hhandler with rfl | rfl | rfl | rfl | rfl
  · refine agrees_guardJsonHandler env (Program.Agrees.bind ?_ fun items => hsend _ _)
    exact agrees_list fun db db' h => by rw [h.problems]
  · refine agrees_guardJsonHandler env ?_
    cases capturedId captures with
    | none => exact hsend _ _
    | some id =>
      refine Program.Agrees.bind (agrees_reads rfl) fun found => ?_
      cases found with
      | none => exact hsend _ _
      | some problem => exact Program.Agrees.bind (agrees_reads rfl) fun samples => hsend _ _
  · exact agrees_guardJsonHandler env
      (Program.Agrees.bind (agrees_reads rfl) fun languages => hsend _ _)
  · refine agrees_guardJsonHandler env ?_
    cases capturedId captures with
    | none => exact hsend _ _
    | some id =>
      refine Program.Agrees.bind (agrees_reads rfl) fun found => ?_
      cases found with
      | none => exact hsend _ _
      | some s => exact hsend _ _
  · refine agrees_guardJsonHandler env ?_
    split
    · exact hsend _ _
    · split
      · exact hsend _ _
      · split
        · exact hsend _ _
        · refine Program.Agrees.bind ?_ fun items => hsend _ _
          exact agrees_list fun db db' h => by rw [h.submissions]

end

/-- **Only what is public goes into an answer.**  Two databases that agree on the problems, the
languages, the submissions and the samples give the same answer to every request to a route that
needs no token, byte for byte, with the same failures of the server in between; and they still agree
then. -/
theorem public_confidential {τ : Type} (env : Env) (server : PublicServer τ)
    {handler : RouteHandler (PublicDb τ)} (hhandler : handler ∈ Public.routes env server.ops)
    (req : HttpRequest) (captures : List Bytes) (response : HttpResponse) {db db' : PublicDb τ}
    (h : SamePublic db db') :
    ((handler req captures).run ⟨response, 0, db⟩).2.response =
        ((handler req captures).run ⟨response, 0, db'⟩).2.response ∧
      SamePublic ((handler req captures).run ⟨response, 0, db⟩).2.db
        ((handler req captures).run ⟨response, 0, db'⟩).2.db := by
  obtain ⟨-, hview⟩ := agrees_routes env server hhandler req captures ⟨response, 0, db⟩
    ⟨response, 0, db'⟩ ⟨rfl, rfl, h⟩
  exact ⟨hview.response, hview.db⟩

theorem utf8_sumTitle : Utf8.wellFormed (ascii "sum") = true := by decide

theorem fits_sumTitle : Utf8.chars (ascii "sum") ≤ 256 := by decide

/-- A title. -/
def sumTitle : Varchar 256 := ⟨ascii "sum", utf8_sumTitle, fits_sumTitle⟩

/-- A problem with one sample. -/
def sampleDb (hidden : List TestCaseRow) : PublicDb Unit where
  problems := [titledProblem 1 sumTitle]
  languages := []
  testCases := ⟨1, 1, some 1, ⟨ascii "1 2", by decide, by decide⟩,
    ⟨ascii "3", by decide, by decide⟩, some 0, none⟩ :: hidden
  submissions := []
  rest := ()

/-- A test case that is none. -/
def hiddenCase : TestCaseRow :=
  ⟨2, 1, some 0, ⟨ascii "20 22", by decide, by decide⟩, ⟨ascii "42", by decide, by decide⟩,
    some 1, none⟩

/-- A server without failures. -/
def calmServer : PublicServer Unit where
  same a b := a == b
  selectJson text := text
  fails _ := none
  others := ⟨fun _ _ db => (.error (.std .outOfRange), db)⟩

theorem samePublic_hiddenCase : SamePublic (sampleDb []) (sampleDb [hiddenCase]) where
  problems := rfl
  languages := rfl
  samples := rfl
  submissions := rfl

/-- What a reader of the problem gets. -/
def sampleAnswer (hidden : List TestCaseRow) : HttpResponse :=
  ((Public.getProblem sampleEnv calmServer.ops .reSet [ascii "/api/problems/1", ascii "1"]).run
    ⟨.ofStatu 200, 0, sampleDb hidden⟩).2.response

/-- A reader of the problem, before and after somebody has put a test case behind the sample. -/
theorem public_confidential_hiddenCase :
    (sampleAnswer []).statu = 200 ∧ sampleAnswer [] = sampleAnswer [hiddenCase] := by
  refine ⟨by decide +kernel, ?_⟩
  exact (public_confidential sampleEnv calmServer (List.mem_cons_of_mem _ List.mem_cons_self) .reSet
    [ascii "/api/problems/1", ascii "1"] (.ofStatu 200) samePublic_hiddenCase).1

end OnlineJudge.Handler
