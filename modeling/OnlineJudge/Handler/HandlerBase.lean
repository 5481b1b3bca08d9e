/-
# What the handlers share

A handler gets a request and the match results of its route, fills a response and works on the
database through the DAO classes; it may raise.  `handler_base.h` has the functions that all of them
use, and `admin_handler.cpp` repeats some of these.

The handlers see the DAO layer as an interface.  `DaoOp` lists the operations they call, with what
each returns; a `Dao` says what the operation does to the database.  Nothing else reaches the
database, and `World.calls` counts the operations, so "this handler calls no DAO" is a statement
about a run.

An operation is told how many have come before it in the same request, so that a database can fail
at any one of them and answer the others.  What an exception of a handler becomes is part of its
answer: the `try` block around it is modelled with it.

* `run_sendJson`, `endsInError_of_sendJson`: what the answers come to.
* `keeps_sendJson`, `keeps_call`, `keeps_check`: what handlers leave alone, part by part.
-/
import OnlineJudge.Auth.Jwt
import OnlineJudge.Db.Schema
import OnlineJudge.Net.HttpServer

namespace OnlineJudge.Handler

open ByteString Db Net

/-! ## 1. The DAO layer

The operations carry what they are given and are typed by what they return, so one function
interprets them all. -/

/-- The operations of the DAO classes, with what they are given and what they return. -/
inductive DaoOp : Type → Type
  | userGetByUsername (username : Bytes) : DaoOp (Option User)
  | userCreateUser (username passwordHash email role status : Bytes) : DaoOp Int64
  | userUpdateStatus (id : Int64) (status : Bytes) : DaoOp Bool
  | problemCreate (p : Problem) : DaoOp Int64
  | problemUpdate (id : Int64) (p : Problem) : DaoOp Bool
  | problemDelete (id : Int64) : DaoOp Bool
  | problemGetById (id : Int64) : DaoOp (Option Problem)
  | testCaseAdd (tc : TestCase) : DaoOp Int64
  | testCaseListByProblem (problemId : Int64) (onlySample : Bool) : DaoOp (List TestCase)
  | testCaseDeleteByProblem (problemId : Int64) (onlyNonSample : Bool) : DaoOp Int32
  | languageListAll (onlyEnabled : Bool) : DaoOp (List Language)
  | languageCreate (lang : Language) : DaoOp Int32
  | languageUpdate (id : Int32) (lang : Language) : DaoOp Bool
  | submissionListAll (limit offset : Int) : DaoOp (List Submission)
  | submissionGetById (id : Int64) : DaoOp (Option Submission)

/-- The operations that write to the table of users. -/
def DaoOp.writesUsers {α : Type} : DaoOp α → Bool
  | .userCreateUser .. | .userUpdateStatus .. => true
  | _ => false

/-- What each operation does to a database of type `σ`, as the `k`-th operation of a request.  It
may raise, and what it has done by then stays done. -/
structure Dao (σ : Type) where
  perform : {α : Type} → Nat → DaoOp α → Program σ α

/-- What a handler works on: its response, the number of DAO operations so far, the database. -/
structure World (σ : Type) where
  response : HttpResponse
  calls : Nat
  db : σ

/-- A call of a DAO operation, which counts. -/
def Dao.call {σ α : Type} (dao : Dao σ) (op : DaoOp α) : Program (World σ) α := fun w =>
  let (result, db) := (dao.perform w.calls op).run w.db
  (result, { w with calls := w.calls + 1, db := db })

/-- A handler, given the match results of its route: the whole path first, then what the groups have
captured. -/
abbrev RouteHandler (σ : Type) := HttpRequest → List Bytes → Program (World σ) Unit

/-- What the handlers find around them.  `libraryText` is `what()` of an exception of the standard
library or of the JSON library. -/
structure Env where
  codec : Json.Codec
  openSsl : Auth.OpenSsl
  jwtSecret : Bytes
  now : Auth.Instant
  libraryText : StdException ⊕ Json.Error → Bytes

/-- `what()` of whatever has been raised. -/
def Env.what (env : Env) : Raised → Bytes
  | .std e => env.libraryText (.inl e)
  | .json e => env.libraryText (.inr e)
  | .parse what => what
  | .runtime what => what

/-! ## 2. Responses

A response is written in two steps, the status first.  If printing the body raises, the status stays
and the `try` block answers over it. -/

section

variable {σ : Type} (env : Env)

/-- The response with this status and this JSON text. -/
def World.answered (w : World σ) (status : Int) (text : Bytes) : World σ :=
  { w with response :=
      { w.response with statu := status }.setContent text (ascii "application/json") }

/-- The response with this status, and nothing else written. -/
def World.marked (w : World σ) (status : Int) : World σ :=
  { w with response := { w.response with statu := status } }

/-- `SendJson`.  The status is set before the body is printed. -/
def sendJson (status : Int) (body : Json) : Program (World σ) Unit := do
  modify fun w => w.marked status
  let text ← Program.ofExcept (env.codec.print body)
  modify fun w =>
    { w with response := w.response.setContent text (ascii "application/json") }

/-- The body that names an error. -/
def errorDoc (error : String) : Json := .obj [(ascii "error", .str (ascii error))]

/-- The body of the answer to an exception. -/
def internalDoc (message : Bytes) : Json :=
  .obj [(ascii "error", .str (ascii "internal")), (ascii "message", .str message)]

def sendJsonError (status : Int) (error : String) (message : Bytes) : Program (World σ) Unit :=
  sendJson env status
    (.obj ([(ascii "error", .str (ascii error))] ++
      if message = [] then [] else [(ascii "message", .str message)]))

/-- `GuardJsonHandler`: the `try` block of the handlers that are open to everybody. -/
def guardJsonHandler (fn : Program (World σ) Unit) : Program (World σ) Unit :=
  tryCatch fn fun e => sendJsonError env 500 "internal" (env.what e)

/-- The `try` block of an admin handler. -/
def guardAdmin (fn : Program (World σ) Unit) : Program (World σ) Unit :=
  tryCatch fn fun e => sendJson env 500 (internalDoc (env.what e))

theorem run_sendJson {body : Json} {text : Bytes} (h : env.codec.dump body = some text)
    (status : Int) (w : World σ) :
    (sendJson env status body).run w = (.ok (), w.answered status text) := by
  have hmark : (modify fun w => w.marked status : Program (World σ) Unit).run w =
      (.ok (), w.marked status) := rfl
  have hprint : (Program.ofExcept (env.codec.print body) : Program (World σ) Bytes).run
      (w.marked status) = (.ok text, w.marked status) := by
    rw [Program.run_ofExcept, Json.Codec.print_eq_ok.mpr h]
  rw [sendJson, Program.run_bind_ok hmark, Program.run_bind_ok hprint]
  rfl

/-- A body that cannot be printed leaves the status. -/
theorem run_sendJson_of_none {body : Json} (h : env.codec.dump body = none) (status : Int)
    (w : World σ) :
    (sendJson env status body).run w = (.error (.json .utf8Text), w.marked status) := by
  have hmark : (modify fun w => w.marked status : Program (World σ) Unit).run w =
      (.ok (), w.marked status) := rfl
  have hprint : (Program.ofExcept (env.codec.print body) : Program (World σ) Bytes).run
      (w.marked status) = (.error (.json .utf8Text), w.marked status) := by
    rw [Program.run_ofExcept, Json.Codec.print, h]
  rw [sendJson, Program.run_bind_ok hmark, Program.run_bind_error hprint]

/-- Whatever the body is, the status is sent and the database is left alone. -/
theorem sendJson_spec (status : Int) (body : Json) (w : World σ) :
    ((sendJson env status body).run w).2.response.statu = status ∧
      ((sendJson env status body).run w).2.calls = w.calls ∧
      ((sendJson env status body).run w).2.db = w.db := by
  cases hdump : env.codec.dump body with
  | none =>
    rw [run_sendJson_of_none env hdump]
    exact ⟨rfl, rfl, rfl⟩
  | some text =>
    rw [run_sendJson env hdump]
    exact ⟨rfl, rfl, rfl⟩

/-- A handler that raises is answered with the status 500. -/
theorem guardAdmin_of_error {fn : Program (World σ) Unit} {w w' : World σ} {e : Raised}
    (h : fn.run w = (.error e, w')) :
    ((guardAdmin env fn).run w).2.response.statu = 500 ∧
      ((guardAdmin env fn).run w).2.db = w'.db := by
  rw [guardAdmin, Program.run_tryCatch_error h]
  have hsend := sendJson_spec env 500 (internalDoc (env.what e)) w'
  exact ⟨hsend.1, hsend.2.2⟩

/-- A check that has sent an answer, and the handler that returns then. -/
theorem run_sendJson_none {α : Type} {rest : Option α → Program (World σ) Unit}
    (hrest : rest none = pure ()) (status : Int) (body : Json) (w : World σ) :
    ((do sendJson env status body; return none : Program (World σ) (Option α)) >>= rest).run w =
      (sendJson env status body).run w := by
  cases hdump : env.codec.dump body with
  | none =>
    have hsend := run_sendJson_of_none env hdump status w
    rw [hsend, Program.run_bind_error (Program.run_bind_error hsend _)]
  | some text =>
    have hsend := run_sendJson env hdump status w
    rw [hsend, Program.run_bind_ok (Program.run_bind_ok hsend _), hrest]
    rfl

/-- In the `try` block of a handler the code ends with an error as the answer, and with this
database. -/
def EndsInError (fn : Program (World σ) Unit) (w : World σ) (db : σ) : Prop :=
  400 ≤ ((guardAdmin env fn).run w).2.response.statu ∧ ((guardAdmin env fn).run w).2.db = db

theorem endsInError_of_error {fn : Program (World σ) Unit} {w : World σ} (e : Raised) (w' : World σ)
    (h : fn.run w = (.error e, w')) : EndsInError env fn w w'.db := by
  obtain ⟨hstatu, hdb⟩ := guardAdmin_of_error env h
  exact ⟨by omega, hdb⟩

/-- A handler that ends with an error answers with an error, also if that cannot be printed. -/
theorem endsInError_of_sendJson {fn : Program (World σ) Unit} {w : World σ} (status : Int)
    (body : Json) (w' : World σ) (h : fn.run w = (sendJson env status body).run w')
    (hstatus : 400 ≤ status) : EndsInError env fn w w'.db := by
  cases hdump : env.codec.dump body with
  | none =>
    rw [run_sendJson_of_none env hdump] at h
    exact endsInError_of_error env _ (w'.marked status) h
  | some text =>
    rw [run_sendJson env hdump] at h
    rw [EndsInError, guardAdmin, Program.run_tryCatch_ok h]
    exact ⟨hstatus, rfl⟩

theorem endsInError_congr {fn fn' : Program (World σ) Unit} {w w' : World σ} {db : σ}
    (h : fn.run w = fn'.run w') : EndsInError env fn w db ↔ EndsInError env fn' w' db := by
  rw [EndsInError, EndsInError, guardAdmin, guardAdmin, Program.run_tryCatch_congr h]

theorem run_call {α : Type} (dao : Dao σ) (op : DaoOp α) (w : World σ) :
    (dao.call op).run w = (((dao.perform w.calls op).run w.db).1,
      { w with calls := w.calls + 1, db := ((dao.perform w.calls op).run w.db).2 }) := rfl

end

/-! ## 3. Parameters and bodies

Each of these raises or sends an answer for itself.  A handler that gets nothing from one returns.
-/

def parseInt64 (text : Bytes) : Option Int64 :=
  match stol text with
  | .error _ => none
  | .ok value => if strtolRest text ≠ [] then none else some (.ofInt value)

def clampInt (value minValue maxValue : Int) : Int := max minValue (min value maxValue)

/-- `ParseIntParam`: the parameter of a request, a default where it is absent or no number. -/
def parseIntParam (req : HttpRequest) (key : String) (defaultValue : Int) : Int :=
  if !req.hasParam (ascii key) then defaultValue
  else
    match stoi (req.getParam (ascii key)) with
    | .error _ => defaultValue
    | .ok value => value

section

variable {σ : Type} (env : Env)

/-- `value`, with its exception. -/
def field {α : Type} (value : Except Json.Error α) : Program (World σ) α :=
  Program.ofExcept (value.mapError .json)

/-- The id in the path: there is a match result, it is a number, and the number is positive. -/
def capturedId (captures : List Bytes) : Option Int64 :=
  match captures[1]?.bind parseInt64 with
  | none => none
  | some id => if id ≤ 0 then none else some id

/-- The id in the path, else 400. -/
def positiveId (captures : List Bytes) (error : String) : Program (World σ) (Option Int64) :=
  match capturedId captures with
  | none => do
    sendJson env 400 (errorDoc error)
    return none
  | some id => return some id

/-- A handler goes on with the id in the path. -/
theorem positiveId_bind {captures : List Bytes} {id : Int64} (h : capturedId captures = some id)
    (error : String) (rest : Option Int64 → Program (World σ) Unit) :
    positiveId env captures error >>= rest = rest (some id) := by
  rw [positiveId, h]
  rfl

theorem run_positiveId_none {captures : List Bytes} (h : capturedId captures = none)
    (error : String) {rest : Option Int64 → Program (World σ) Unit} (hrest : rest none = pure ())
    (w : World σ) : (positiveId env captures error >>= rest).run w =
      (sendJson env 400 (errorDoc error)).run w := by
  rw [positiveId, h]
  exact run_sendJson_none env hrest _ _ _

end

/-! ## 4. What the handlers leave alone

`P` is a property of the database.  What the handlers share keeps it, and a DAO operation that keeps
it can be called. -/

section

open Program

variable {σ : Type} (env : Env) {P : σ → Prop}

theorem keeps_sendJson (status : Int) (body : Json) :
    Keeps (fun w : World σ => P w.db) (sendJson env status body) := by
  intro w hw
  rw [(sendJson_spec env status body w).2.2]
  exact hw

/-- The operation keeps `P`, whether it returns or raises, and whichever it is in the order of the
calls. -/
def Kept {α : Type} (dao : Dao σ) (P : σ → Prop) (op : DaoOp α) : Prop :=
  ∀ k db, P db → P ((dao.perform k op).run db).2

theorem keeps_call {α : Type} {dao : Dao σ} {op : DaoOp α} (h : Kept dao P op) :
    Keeps (fun w : World σ => P w.db) (dao.call op) := fun w hw => h w.calls w.db hw

theorem keeps_guardAdmin {fn : Program (World σ) Unit} (h : Keeps (fun w => P w.db) fn) :
    Keeps (fun w => P w.db) (guardAdmin env fn) :=
  Keeps.tryCatch h fun _ => keeps_sendJson env _ _

/-- A check that sends an answer where it fails. -/
theorem keeps_sendJson_none {α : Type} (status : Int) (body : Json) :
    Keeps (fun w : World σ => P w.db)
      (do sendJson env status body; return none : Program (World σ) (Option α)) :=
  Keeps.bind (keeps_sendJson env status body) fun _ => keeps_pure none

/-- A check, and the handler that returns if it gets nothing. -/
theorem keeps_check {α : Type} {x : Program (World σ) (Option α)}
    {rest : Option α → Program (World σ) Unit} (hx : Keeps (fun w => P w.db) x)
    (hnone : rest none = pure ()) (hsome : ∀ a, Keeps (fun w => P w.db) (rest (some a))) :
    Keeps (fun w => P w.db) (x >>= rest) := by
  refine Keeps.bind hx fun found => ?_
  cases found with
  | none =>
    rw [hnone]
    exact keeps_pure ()
  | some a => exact hsome a

theorem keeps_positiveId (captures : List Bytes) (error : String) :
    Keeps (fun w : World σ => P w.db) (positiveId env captures error) := by
  unfold positiveId
  split
  · exact keeps_sendJson_none env _ _
  · exact keeps_pure _

end

/-! ## 5. Records as JSON

The members of an object are printed in the order of their names, whatever order the code adds them
in. -/

/-- The members of a `Problem`; `nlohmann::json` keeps them sorted. -/
def problemMembers (p : Problem) : List (Bytes × Json) :=
  [(ascii "created_at", .str p.createdAt), (ascii "created_by", .int p.createdBy.toInt),
    (ascii "description", .str p.description), (ascii "difficulty", .str p.difficulty),
    (ascii "id", .int p.id.toInt), (ascii "memory_limit_kb", .int p.memoryLimitKb.toInt),
    (ascii "status", .str p.status)]

/-- The members of a `Problem` behind those, and behind its test cases where there are any. -/
def problemMembersEnd (p : Problem) : List (Bytes × Json) :=
  [(ascii "time_limit_ms", .int p.timeLimitMs.toInt), (ascii "title", .str p.title),
    (ascii "updated_at", .str p.updatedAt)]

/-- `to_json` of a `Problem`. -/
def problemJson (p : Problem) : Json := .obj (problemMembers p ++ problemMembersEnd p)

/-- `to_json` of a `TestCase`. -/
def testCaseJson (tc : TestCase) : Json :=
  .obj [(ascii "created_at", .str tc.createdAt), (ascii "id", .int tc.id.toInt),
    (ascii "input", .str tc.input), (ascii "is_sample", .bool tc.isSample),
    (ascii "output", .str tc.output), (ascii "problem_id", .int tc.problemId.toInt),
    (ascii "sort_order", .int tc.sortOrder.toInt)]

/-- `to_json` of a `Language`. -/
def languageJson (l : Language) : Json :=
  .obj [(ascii "compile_cmd", .str l.compileCmd), (ascii "created_at", .str l.createdAt),
    (ascii "enabled", .bool l.enabled), (ascii "extension", .str l.extension),
    (ascii "id", .int l.id.toInt), (ascii "name", .str l.name), (ascii "run_cmd", .str l.runCmd)]

/-- `to_json` of a `Submission`, with a `result` if there is one. -/
def submissionJson (s : Submission) (result : Option Json) : Json :=
  .obj ([(ascii "created_at", .str s.createdAt), (ascii "id", .int s.id.toInt),
    (ascii "language_id", .int s.languageId.toInt), (ascii "memory_kb", .int s.memoryKb),
    (ascii "mode", .str s.mode), (ascii "problem_id", .int s.problemId.toInt)] ++
    (result.map fun v => (ascii "result", v)).toList ++
    [(ascii "result_json", .str s.resultJson), (ascii "source_code", .str s.sourceCode),
      (ascii "status", .str s.status), (ascii "time_ms", .int s.timeMs),
      (ascii "user_id", .int s.userId.toInt)])

end OnlineJudge.Handler
