/-
# The three PUT routes of an administrator

`PUT /api/admin/problems/{id}`, `PUT /api/admin/languages/{id}` and `PUT
/api/admin/users/{id}/status` update one row and answer 404 if the DAO says that no row was
affected.  The database counts a row that already has the values as not affected, so that the answer
does not tell an unchanged row from one that is not there.

* `PutRoute.handler_eq`: for a valid request all three do the same thing, with their own operation
  and text (`answerPut`).
* `put_repeatable_iff`: 404 means absent, and a request can be repeated, exactly if no row has the
  id or the database refuses the values.

`handler_eq` is proved for the handlers as they are written in `Handler.AdminHandler`.  From there
on one argument serves the three routes, and what they do differently is a field of the request.
-/
import OnlineJudge.Db.Updates
import OnlineJudge.Handler.Ban

namespace OnlineJudge.Handler

open ByteString Db Net Auth

/-! ## 1. Requests

What a request asks for is read from it without the database.  A request that asks for nothing is
answered before any operation. -/

/-- The three routes. -/
inductive PutRoute
  | problem
  | language
  | userStatus
deriving DecidableEq, Repr

/-- What a valid request asks for: the values that the checks of its route have let through. -/
inductive PutRequest
  | problem (id : Int64) (p : Problem)
  | language (id : Int32) (lang : Language)
  | userStatus (id : Int64) (status : UserStatus)

namespace PutRequest

/-- The operation of the DAO. -/
def op : PutRequest → DaoOp Bool
  | problem id p => .problemUpdate id p
  | language id lang => .languageUpdate id lang
  | userStatus id status => .userUpdateStatus id status.text

/-- The error of the answer 404. -/
def notFound : PutRequest → String
  | problem .. => "problem not found"
  | language .. => "language not found"
  | userStatus .. => "user not found"

end PutRequest

/-- The fields of a problem. -/
def problemOf (admin : AuthInfo) (body : Json) : Except Json.Error Problem := do
  let title ← body.valueStr (ascii "title") []
  let description ← body.valueStr (ascii "description") []
  let difficulty ← body.valueStr (ascii "difficulty") (ascii "medium")
  let timeLimitMs ← body.valueInt (ascii "time_limit_ms") 1000
  let memoryLimitKb ← body.valueInt (ascii "memory_limit_kb") 262144
  let status ← body.valueStr (ascii "status") (ascii "draft")
  return { id := 0, title := title, description := description, difficulty := difficulty,
           timeLimitMs := .ofInt timeLimitMs, memoryLimitKb := .ofInt memoryLimitKb,
           status := status, createdBy := admin.userId, createdAt := [], updatedAt := [] }

/-- The fields of a language. -/
def languageOf (body : Json) : Except Json.Error Language := do
  let name ← body.valueStr (ascii "name") []
  let extension ← body.valueStr (ascii "extension") []
  let compileCmd ← body.valueStr (ascii "compile_cmd") []
  let runCmd ← body.valueStr (ascii "run_cmd") []
  let enabled ← body.valueBool (ascii "enabled") true
  return { id := 0, name := name, extension := extension, compileCmd := compileCmd,
           runCmd := runCmd, enabled := enabled, createdAt := [] }

/-- What an administrator's request asks for, if it is valid. -/
def PutRoute.requested (codec : Json.Codec) (admin : AuthInfo) (req : HttpRequest)
    (captures : List Bytes) : PutRoute → Option PutRequest
  | problem => do
    let id ← capturedId captures
    let body ← (codec.parse req.body).toOption
    let p ← (problemOf admin body).toOption
    if p.title = [] ∨ p.description = [] then none else return .problem id p
  | language => do
    let id ← captures[1]?.bind fun text => (stoi text).toOption
    let body ← (codec.parse req.body).toOption
    let lang ← (languageOf body).toOption
    if languageIncomplete lang then none else return .language (.ofInt id) lang
  | userStatus => (requestedStatus codec req captures).map fun p => .userStatus p.1 p.2

section

variable {σ : Type} (env : Env)

theorem field_bind {α β : Type} (x : Except Json.Error α) (f : α → Except Json.Error β) :
    (field x >>= fun a => field (f a) : Program (World σ) β) = field (x >>= f) := by
  cases x <;> rfl

theorem readProblem_eq (admin : AuthInfo) (body : Json) :
    (readProblem admin body : Program (World σ) Problem) = field (problemOf admin body) := by
  simp only [problemOf, ← field_bind]
  rfl

theorem readLanguage_eq (body : Json) :
    (readLanguage body : Program (World σ) Language) = field (languageOf body) := by
  simp only [languageOf, ← field_bind]
  rfl

variable (dao : Dao σ)

/-- The update of a valid request, and the answer to it. -/
def answerPut (r : PutRequest) : Program (World σ) Unit := do
  let updated ← dao.call r.op
  if !updated then sendJson env 404 (errorDoc r.notFound)
  else sendJson env 200 okDoc

/-- The handlers, as the table of the admin routes has them. -/
def PutRoute.handler : PutRoute → RouteHandler σ
  | problem => putProblem env dao
  | language => putLanguage env dao
  | userStatus => putUserStatus env dao

/-- **The handlers of the three routes** for a valid request of an administrator. -/
theorem PutRoute.handler_eq {env : Env} {req : HttpRequest} {info : AuthInfo}
    (hinfo : authenticateRequest env.codec env.openSsl env.jwtSecret req env.now = some info)
    (hrole : info.role = ascii "admin") {captures : List Bytes} {route : PutRoute}
    {r : PutRequest} (h : route.requested env.codec info req captures = some r) :
    route.handler env dao req captures = guardAdmin env (answerPut env dao r) := by
  cases route with
  | problem =>
    simp only [requested, Option.bind_eq_bind, Option.bind_eq_some_iff,
      Except.toOption_eq_some] at h
    obtain ⟨id, hid, body, hparse, p, hp, hr⟩ := h
    obtain ⟨hcomplete, hr⟩ := Option.ite_none_left_eq_some.mp hr
    obtain rfl : PutRequest.problem id p = r := Option.some.inj hr
    rw [handler, putProblem, requireAdmin_bind hinfo hrole]
    show guardAdmin env (positiveId env captures _ >>= _) = _
    rw [positiveId_bind env hid]
    show guardAdmin env (parseBody env req >>= _) = _
    rw [parseBody_bind hparse]
    show guardAdmin env (readProblem info body >>= _) = _
    rw [readProblem_eq, hp]
    show guardAdmin env (if _ then _ else _) = _
    rw [if_neg hcomplete]
    rfl
  | language =>
    simp only [requested, Option.bind_eq_bind, Option.bind_eq_some_iff,
      Except.toOption_eq_some] at h
    obtain ⟨id, ⟨text, htext, hid⟩, body, hparse, lang, hlang, hr⟩ := h
    obtain ⟨hcomplete, hr⟩ := Option.ite_none_left_eq_some.mp hr
    obtain rfl : PutRequest.language (.ofInt id) lang = r := Option.some.inj hr
    have hlanguageId : (languageId env captures : Program (World σ) _) =
        pure (some (.ofInt id)) := by
      rw [languageId, htext, Option.map_some, hid]
    rw [handler, putLanguage, requireAdmin_bind hinfo hrole, hlanguageId]
    show guardAdmin env (parseBody env req >>= _) = _
    rw [parseBody_bind hparse]
    show guardAdmin env (readLanguage body >>= _) = _
    rw [readLanguage_eq, hlang]
    show guardAdmin env (if _ then _ else _) = _
    rw [if_neg hcomplete]
    rfl
  | userStatus =>
    simp only [requested, Option.map_eq_some_iff] at h
    obtain ⟨⟨id, status⟩, hrequested, rfl⟩ := h
    obtain ⟨token, hheader, hverify⟩ := authenticateRequest_eq_some_iff.mp hinfo
    exact putUserStatus_of_requested ⟨token, info, hheader, hverify, hrole⟩ hrequested dao

/-- What comes after the update. -/
def replyPut (r : PutRequest) (updated : Bool) : Program (World σ) Unit :=
  if !updated then sendJson env 404 (errorDoc r.notFound) else sendJson env 200 okDoc

variable {dao}

theorem run_answerPut (r : PutRequest) {w : World σ} {result : Except Raised Bool} {db : σ}
    (h : (dao.perform w.calls r.op).run w.db = (result, db)) :
    (answerPut env dao r).run w =
      (Program.ofExcept result >>= replyPut env r).run
        { w with calls := w.calls + 1, db := db } := by
  have hcall := run_call dao r.op w
  rw [h] at hcall
  cases result with
  | error e => exact Program.run_bind_error hcall _
  | ok updated => exact Program.run_bind_ok hcall _

variable {env}

theorem PutRequest.dumps_notFound (hdump : env.codec.DumpsUtf8) (r : PutRequest) :
    ∃ text, env.codec.dump (errorDoc r.notFound) = some text := by
  have hutf8 : (errorDoc r.notFound).utf8 = true := by
    cases r <;> exact (by decide : ∀ text ∈ ["problem not found", "language not found",
      "user not found"], (errorDoc text).utf8 = true) _ (by simp [notFound])
  exact hdump.exists_dump hutf8

theorem answerPut_of_unchanged (hdump : env.codec.DumpsUtf8) {r : PutRequest} {w : World σ} {db : σ}
    (h : (dao.perform w.calls r.op).run w.db = (.ok false, db)) :
    ((guardAdmin env (answerPut env dao r)).run w).2.response.statu = 404 ∧
      ((guardAdmin env (answerPut env dao r)).run w).2.db = db := by
  obtain ⟨text, htext⟩ := r.dumps_notFound hdump
  have hrun := run_answerPut env r h
  rw [Program.ofExcept_ok_bind, replyPut, if_pos (by decide), run_sendJson env htext] at hrun
  rw [guardAdmin, Program.run_tryCatch_ok hrun]
  exact ⟨rfl, rfl⟩

theorem answerPut_of_changed (hdump : env.codec.DumpsUtf8) {r : PutRequest} {w : World σ} {db : σ}
    (h : (dao.perform w.calls r.op).run w.db = (.ok true, db)) :
    ((guardAdmin env (answerPut env dao r)).run w).2.response.statu = 200 ∧
      ((guardAdmin env (answerPut env dao r)).run w).2.db = db := by
  obtain ⟨text, htext⟩ := hdump.exists_dump (v := okDoc) (by decide)
  have hrun := run_answerPut env r h
  rw [Program.ofExcept_ok_bind, replyPut, if_neg (by decide), run_sendJson env htext] at hrun
  rw [guardAdmin, Program.run_tryCatch_ok hrun]
  exact ⟨rfl, rfl⟩

theorem answerPut_of_refused (env : Env) {r : PutRequest} {w : World σ} {e : Raised} {db : σ}
    (h : (dao.perform w.calls r.op).run w.db = (.error e, db)) :
    ((guardAdmin env (answerPut env dao r)).run w).2.response.statu = 500 ∧
      ((guardAdmin env (answerPut env dao r)).run w).2.db = db :=
  guardAdmin_of_error env (run_answerPut env r h)

end

/-! ## 2. The database

The three tables stand side by side, and an operation on one of them leaves the others alone.  Which
values a column refuses is left to the database. -/

/-- The three tables that the routes write to, and everything else, which is a parameter: the routes
do not look at it. -/
structure AdminDb (τ : Type) where
  users : List UserRow
  problems : List ProblemRow
  languages : List LanguageRow
  rest : τ

/-- What the database makes of the values of a problem and of a language, and its message for a
status that the column does not have. -/
structure Mysql (τ : Type) where
  problem : Conversion Problem ProblemValues
  language : Conversion Language LanguageValues
  message : Bytes
  others : Dao τ

/-- `problems`, as a table of the database. -/
def problemTable {τ : Type} : Table (AdminDb τ) ProblemRow where
  rows := AdminDb.problems
  store db rows := { db with problems := rows }
  rows_store _ _ := rfl
  store_rows _ := rfl
  store_store _ _ _ := rfl

/-- `languages`. -/
def languageTable {τ : Type} : Table (AdminDb τ) LanguageRow where
  rows := AdminDb.languages
  store db rows := { db with languages := rows }
  rows_store _ _ := rfl
  store_rows _ := rfl
  store_store _ _ _ := rfl

/-- `users`. -/
def userTable {τ : Type} : Table (AdminDb τ) UserRow where
  rows := AdminDb.users
  store db rows := { db with users := rows }
  rows_store _ _ := rfl
  store_rows _ := rfl
  store_store _ _ _ := rfl

/-- The result of an update, and the database with the table that it leaves. -/
def storing {σ ρ : Type} (table : Table σ ρ) (db : σ) :
    Except Raised (List ρ × Bool) → Except Raised Bool × σ
  | .error e => (.error e, db)
  | .ok (rows, changed) => (.ok changed, table.store db rows)

/-- The DAO layer at some time. -/
def Mysql.dao {τ : Type} (mysql : Mysql τ) (time : DateTime) : Dao (AdminDb τ) where
  perform k op db :=
    match op with
    | .problemUpdate id p =>
      storing problemTable db (runUpdate problemUpdate mysql.problem time db.problems id p)
    | .languageUpdate id lang =>
      storing languageTable db (runUpdate languageUpdate mysql.language time db.languages id lang)
    | .userUpdateStatus id status =>
      storing userTable db (UserDao.updateStatus time mysql.message db.users id status)
    | op =>
      let (result, rest) := (mysql.others.perform k op).run db.rest
      (result, { db with rest := rest })

section

variable {τ : Type}

/-- The row is there. -/
def PutRequest.Exists (db : AdminDb τ) : PutRequest → Prop
  | problem id _ => ∃ row ∈ db.problems, row.id = id
  | language id _ => ∃ row ∈ db.languages, row.id = id
  | userStatus id _ => ∃ row ∈ db.users, row.id = id

/-- The columns do not take the values. -/
def PutRequest.Refused (mysql : Mysql τ) : PutRequest → Prop
  | problem _ p => ∃ message, mysql.problem p = .error message
  | language _ lang => ∃ message, mysql.language lang = .error message
  | userStatus .. => False

/-- What a statement does, whenever it comes: there is no such row; the database refuses it; or it
is stored, and is not stored again.  The time of the statement decides nothing. -/
inductive Outcome {σ : Type} (run : DateTime → σ → Except Raised Bool × σ) (db : σ)
    (present refused : Prop) : Prop
  | absent (hpresent : ¬ present) (hrun : ∀ time, run time db = (.ok false, db))
  | refused (hrefused : refused) (e : Raised) (hrun : ∀ time, run time db = (.error e, db))
  | stored (hpresent : present) (hrefused : ¬ refused)
      (hrun : ∀ time, ∃ changed db', run time db = (.ok changed, db') ∧
        ∀ time', run time' db' = (.ok false, db'))

/-- **The outcome of an update** of a table: what becomes of a record that cannot be converted, of a
key that is not there, and of one that is. -/
theorem outcome_runUpdate {σ ρ κ υ α : Type} [DecidableEq κ] [DecidableEq υ] (table : Table σ ρ)
    (a : Assignment ρ κ υ DateTime) (convert : Conversion α υ) (db : σ) (id : κ) (record : α) :
    Outcome (fun time db => storing table db (runUpdate a convert time (table.rows db) id record))
      db (∃ row ∈ table.rows db, a.key row = id) (∃ message, convert record = .error message) := by
  by_cases hrow : ∃ row ∈ table.rows db, a.key row = id
  · cases hconvert : convert record with
    | error message =>
      refine .refused ⟨message, rfl⟩ (refusal message) fun time => ?_
      rw [runUpdate_of_refused hrow hconvert]
      rfl
    | ok v =>
      refine .stored hrow (fun ⟨_, h⟩ => nomatch h) fun time =>
        ⟨decide (0 < a.affected (table.rows db) id v),
          table.store db (a.update time (table.rows db) id v), ?_, ?_⟩
      · rw [runUpdate_of_stored hrow hconvert]
        rfl
      · intro time'
        rw [table.rows_store, runUpdate_again hrow hconvert, storing, table.store_store]
  · refine .absent hrow fun time => ?_
    rw [runUpdate_of_absent hrow, storing, table.store_rows]

/-- **The outcome of each of the three operations**, in the terms of the one table that it works on.
-/
theorem PutRequest.outcome (mysql : Mysql τ) (r : PutRequest) (k : Nat) (db : AdminDb τ) :
    Outcome (fun time db => ((mysql.dao time).perform k r.op).run db) db (r.Exists db)
      (r.Refused mysql) := by
  cases r with
  | problem id p => exact outcome_runUpdate problemTable problemUpdate mysql.problem db id p
  | language id lang =>
    exact outcome_runUpdate languageTable languageUpdate mysql.language db id lang
  | userStatus id status =>
    have hrun : ∀ time (db : AdminDb τ), ((mysql.dao time).perform k
        (PutRequest.userStatus id status).op).run db = storing userTable db
          (runUpdate userStatusUpdate (fun status => .ok (some status)) time db.users id status) :=
      fun time db => congrArg (storing userTable db) (UserDao.updateStatus_eq ..)
    simp only [hrun]
    cases outcome_runUpdate userTable userStatusUpdate (fun status => .ok (some status)) db id
      status with
    | absent hpresent hrun => exact .absent hpresent hrun
    | refused hrefused e hrun => exact absurd hrefused (fun ⟨_, h⟩ => nomatch h)
    | stored hpresent hrefused hrun => exact .stored hpresent not_false hrun

end

/-! ## 3. The request twice

The two requests are equal, and may come at different times.  Only an update that is stored makes
the second answer another one. -/

/-- A request that comes at some time: the response and the database after it. -/
def PutRoute.answer {τ : Type} (env : Env) (mysql : Mysql τ) (now : Instant) (time : DateTime)
    (req : HttpRequest) (captures : List Bytes) (route : PutRoute) (db : AdminDb τ) :
    World (AdminDb τ) :=
  ((route.handler { env with now := now } (mysql.dao time) req captures).run
    ⟨.ofStatu 200, 0, db⟩).2

section

variable {τ : Type} {env : Env} {mysql : Mysql τ}

/-- What the operation does alike on two occasions, is answered alike. -/
theorem answerPut_congr {σ : Type} {dao dao' : Dao σ} {r : PutRequest} {w : World σ}
    (h : (dao.perform w.calls r.op).run w.db = (dao'.perform w.calls r.op).run w.db) :
    (guardAdmin env (answerPut env dao r)).run w =
      (guardAdmin env (answerPut env dao' r)).run w := by
  have hrun : (answerPut env dao r).run w = (answerPut env dao' r).run w := by
    rw [run_answerPut env r (Prod.eta _).symm, run_answerPut env r (Prod.eta _).symm, h]
  exact Program.run_tryCatch_congr hrun _

theorem PutRoute.answer_eq {now : Instant} {req : HttpRequest} {info : AuthInfo}
    (hnow : authenticateRequest env.codec env.openSsl env.jwtSecret req now = some info)
    (hrole : info.role = ascii "admin") {route : PutRoute} {captures : List Bytes}
    {r : PutRequest} (hrequested : route.requested env.codec info req captures = some r)
    (time : DateTime) (db : AdminDb τ) :
    route.answer env mysql now time req captures db =
      ((guardAdmin env (answerPut env (mysql.dao time) r)).run ⟨.ofStatu 200, 0, db⟩).2 := by
  let env' : Env := { env with now := now }
  have hinfo : authenticateRequest env'.codec env'.openSsl env'.jwtSecret req env'.now =
      some info := hnow
  have hhandler := PutRoute.handler_eq (mysql.dao time) hinfo hrole hrequested
  rw [PutRoute.answer, hhandler]
  rfl

/-- A request is sent twice: 404 means absent, and the second time gives the same answer and leaves
the same rows. -/
structure Repeatable (present : Prop) (first second : World (AdminDb τ)) : Prop where
  absent : first.response.statu = 404 → ¬ present
  response : second.response = first.response
  db : second.db = first.db

/-- A request whose values are stored cannot be repeated. -/
theorem not_repeatable_of_stored (hdump : env.codec.DumpsUtf8) {now now' : Instant}
    {req : HttpRequest} {info : AuthInfo}
    (hnow : authenticateRequest env.codec env.openSsl env.jwtSecret req now = some info)
    (hnow' : authenticateRequest env.codec env.openSsl env.jwtSecret req now' = some info)
    (hrole : info.role = ascii "admin") {route : PutRoute} {captures : List Bytes}
    {r : PutRequest} (hrequested : route.requested env.codec info req captures = some r)
    {time time' : DateTime} {db db' : AdminDb τ} {changed : Bool} (hpresent : r.Exists db)
    (hop : ((mysql.dao time).perform 0 r.op).run db = (.ok changed, db'))
    (hagain : ((mysql.dao time').perform 0 r.op).run db' = (.ok false, db')) :
    ¬ Repeatable (r.Exists db) (route.answer env mysql now time req captures db)
      (route.answer env mysql now' time' req captures
        (route.answer env mysql now time req captures db).db) := by
  rw [PutRoute.answer_eq hnow hrole hrequested time db,
    PutRoute.answer_eq hnow' hrole hrequested time']
  rintro ⟨habsent, hresponse, -⟩
  cases changed with
  | false =>
    -- The row is there and has the values already.
    exact habsent (answerPut_of_unchanged hdump hop).1 hpresent
  | true =>
    obtain ⟨h200, hdb⟩ := answerPut_of_changed (w := ⟨.ofStatu 200, 0, db⟩) hdump hop
    rw [hdb] at hresponse
    have h404 := (answerPut_of_unchanged (w := ⟨.ofStatu 200, 0, db'⟩) hdump hagain).1
    rw [hresponse, h200] at h404
    exact absurd h404 (by decide)

/-- **When a PUT can be repeated.**  For every database and every valid request of an administrator:
404 means that no row has the id, and the same request again gives the same answer and leaves the
same rows, exactly if no row has the id or the database refuses the values. -/
theorem put_repeatable_iff (hdump : env.codec.DumpsUtf8) {now now' : Instant} {req : HttpRequest}
    {info : AuthInfo}
    (hnow : authenticateRequest env.codec env.openSsl env.jwtSecret req now = some info)
    (hnow' : authenticateRequest env.codec env.openSsl env.jwtSecret req now' = some info)
    (hrole : info.role = ascii "admin") {route : PutRoute} {captures : List Bytes}
    {r : PutRequest} (hrequested : route.requested env.codec info req captures = some r)
    (mysql : Mysql τ) (time time' : DateTime) (db : AdminDb τ) :
    let first := route.answer env mysql now time req captures db
    let second := route.answer env mysql now' time' req captures first.db
    Repeatable (r.Exists db) first second ↔ ¬ r.Exists db ∨ r.Refused mysql := by
  intro first second
  have hfirst : first = _ := PutRoute.answer_eq hnow hrole hrequested time db
  have hsecond : second = _ := PutRoute.answer_eq hnow' hrole hrequested time' first.db
  -- An operation that leaves the database as it is does the same thing again.
  have hsame : first.db = db → ((mysql.dao time').perform 0 r.op).run db =
      ((mysql.dao time).perform 0 r.op).run db → second = first := by
    intro hdb hop
    rw [hsecond, hdb, hfirst]
    exact congrArg Prod.snd (answerPut_congr hop)
  cases r.outcome mysql 0 db with
  | absent hpresent hop =>
    have hdb : first.db = db := hfirst ▸ (answerPut_of_unchanged hdump (hop time)).2
    have hagain := hsame hdb ((hop time').trans (hop time).symm)
    exact iff_of_true ⟨fun _ => hpresent, congrArg _ hagain, congrArg _ hagain⟩ (.inl hpresent)
  | refused hrefused e hop =>
    have hanswer := answerPut_of_refused env (w := ⟨.ofStatu 200, 0, db⟩) (hop time)
    rw [← hfirst] at hanswer
    have hagain := hsame hanswer.2 ((hop time').trans (hop time).symm)
    have hne : first.response.statu ≠ 404 := fun h404 =>
      absurd (hanswer.1.symm.trans h404) (by decide)
    exact iff_of_true ⟨fun h404 => absurd h404 hne, congrArg _ hagain, congrArg _ hagain⟩
      (.inr hrefused)
  | stored hpresent hrefused hop =>
    obtain ⟨changed, db', hop, hagain⟩ := hop time
    exact iff_of_false (not_repeatable_of_stored hdump hnow hnow' hrole hrequested hpresent hop
      (hagain time')) (not_or.mpr ⟨not_not.mpr hpresent, hrefused⟩)

end

/-! ## 4. Bob

The request that bans a user, sent twice to a database that has the user, and to one that has not.
-/

/-- A database with the columns' own lengths and words. -/
def sampleMysql : Mysql Unit where
  problem p := Option.elim (do
      let title ← Varchar.ofBytes 256 p.title
      let description ← Text.ofBytes p.description
      let difficulty ← [Difficulty.easy, .medium, .hard].find? (·.text == p.difficulty)
      let status ← [ProblemStatus.draft, .published, .archived].find? (·.text == p.status)
      return ⟨title, description, difficulty, p.timeLimitMs, p.memoryLimitKb, status⟩)
    (.error (ascii "Data too long for column")) .ok
  language lang := Option.elim (do
      let name ← Varchar.ofBytes 32 lang.name
      let extension ← Varchar.ofBytes 8 lang.extension
      let compileCmd ← Varchar.ofBytes 512 lang.compileCmd
      let runCmd ← Varchar.ofBytes 512 lang.runCmd
      return ⟨name, extension, compileCmd, runCmd, some (if lang.enabled then 1 else 0)⟩)
    (.error (ascii "Data too long for column")) .ok
  message := ascii "Data truncated for column"
  others := ⟨fun _ _ db => (.error (.runtime (ascii "prepare: ")), db)⟩

/-- The path of the status route, with Bob's id. -/
def bobCaptures : List Bytes := [ascii "/api/admin/users/7/status", ascii "7"]

/-- What the request to ban Bob asks for. -/
def banBob : PutRequest := .userStatus 7 .banned

def sampleTime : DateTime := (banMoment.server.stamp 0).time

/-- The answer to that request. -/
def banAnswer (db : AdminDb Unit) : World (AdminDb Unit) :=
  PutRoute.userStatus.answer (banMoment.env banSite) sampleMysql sampleInstant sampleTime
    (sampleRequest banText) bobCaptures db

theorem authenticate_sampleRequest : authenticateRequest (banMoment.env banSite).codec
    (banMoment.env banSite).openSsl (banMoment.env banSite).jwtSecret (sampleRequest banText)
      sampleInstant = some sampleClaims :=
  authenticateRequest_eq_some_iff.mpr ⟨sampleToken, rfl, verifyJwt_sampleToken⟩

theorem requested_sampleRequest : PutRoute.userStatus.requested (banMoment.env banSite).codec
    sampleClaims (sampleRequest banText) bobCaptures = some banBob := by
  have hrequested : requestedStatus (banMoment.env banSite).codec (sampleRequest banText)
      bobCaptures = some (7, .banned) := by
    decide +kernel
  rw [PutRoute.requested, hrequested]
  rfl

/-- Without Bob the request can be repeated. -/
theorem put_repeatable_iff_nobody :
    let db : AdminDb Unit := ⟨[], [], [], ()⟩
    Repeatable (banBob.Exists db) (banAnswer db) (banAnswer (banAnswer db).db) := by
  intro db
  have hnobody : ¬ banBob.Exists db := by
    rintro ⟨row, hrow, -⟩
    cases hrow
  exact (put_repeatable_iff (Json.printing_dumpsUtf8 _ _) authenticate_sampleRequest
    authenticate_sampleRequest rfl requested_sampleRequest sampleMysql sampleTime sampleTime
      db).mpr (.inl hnobody)

/-- **A user who is not found.**  Bob is in the table; the request that bans him is answered 200 and
then 404. -/
theorem put_not_repeatable :
    let db : AdminDb Unit := ⟨[bob], [], [], ()⟩
    ¬ Repeatable (banBob.Exists db) (banAnswer db) (banAnswer (banAnswer db).db) := by
  intro db
  have hfirst : ((sampleMysql.dao sampleTime).perform 0 banBob.op).run db =
      (.ok true, ⟨[bannedBob], [], [], ()⟩) := rfl
  have hsecond : ((sampleMysql.dao sampleTime).perform 0 banBob.op).run
      ⟨[bannedBob], [], [], ()⟩ = (.ok false, ⟨[bannedBob], [], [], ()⟩) := rfl
  exact not_repeatable_of_stored (Json.printing_dumpsUtf8 _ _) authenticate_sampleRequest
    authenticate_sampleRequest rfl requested_sampleRequest ⟨bob, .head _, rfl⟩ hfirst hsecond

end OnlineJudge.Handler
