/-
# The calls of one submission

`POST /api/submissions` (`submission_handler.cpp`) changes two things behind the request: it puts a
row into `submissions`, and it hands a job to the judge.  Both can fail, and between them lies no
transaction.  Which of the calls a request has made, in which order and with which arguments, is all
that the rest of the system sees of it.

* `postSubmissionsOver_ops`: the handler is written here over the operations it calls (`SubmitOps`),
  and is the one of `Submit` for the operations that are there.
* `calls_postSubmissions`: for operations that record each call, `Handled` says which records there
  are: none; a row and a job that was taken; a row, a job that was refused, and the update that
  gives the row up.  With each of them goes the status of the answer.

The argument goes through the handler by weakest preconditions: `Ends R` says that every end of a
program, in an exception too, is one of which `R` holds, and there is one lemma `ends_…` for each
part of the handler.  What is assumed of the JSON library is that it prints what is UTF-8; so the
fixed document that gives a row up is always printed.
-/
import OnlineJudge.Handler.Submit
import OnlineJudge.Lib.JsonReader

namespace OnlineJudge.Handler

open ByteString Db Net

/-! ## 1. The handler over its operations

The handler is written out once more, with its operations as arguments.  That it is the same handler
is a theorem for the operations of `Handler.Submit`, and the records of this module are another
instance. -/

/-- What the handler calls: three reads, and three operations that change something. -/
structure SubmitOps (σ : Type) where
  problem : Int64 → Program (World σ) (Option Problem)
  language : Int32 → Program (World σ) (Option Language)
  testCases : Int64 → Bool → Program (World σ) (List TestCase)
  create : Submission → Program (World σ) Int64
  submit : Int64 → Json → Program (World σ) Bool
  updateResult : Int64 → Bytes → Bytes → Int32 → Int32 → Program (World σ) Bool

section

variable {σ : Type} (env : Env) (ops : SubmitOps σ)

/-- The test cases and their scope. -/
def SubmitOps.casesOf (d : Draft) : Program (World σ) (List TestCase × String) := do
  let testCases ← ops.testCases d.problemId (d.mode == .run)
  if d.mode = .run ∧ testCases = [] then
    let all ← ops.testCases d.problemId false
    return (all, "all")
  else return (testCases, if d.mode = .run then "sample" else "all")

/-- The submission as it is stored. -/
def Draft.submission (d : Draft) (resultJson : Bytes) : Submission :=
  { id := 0, userId := d.userId, problemId := d.problemId, languageId := d.language,
    sourceCode := d.sourceCode, mode := d.mode.text, status := ascii "pending",
    resultJson := resultJson, timeMs := 0, memoryKb := 0, createdAt := [] }

/-- The submission is stored and goes to the judge. -/
def storeDraftOver (d : Draft) (problem : Problem) (language : Language)
    (testCases : List TestCase) (scope : String) : Program (World σ) Unit := do
  let resultJson ← Program.ofExcept
    (env.codec.print (pendingDoc d.mode scope testCases.length))
  let id ← ops.create (d.submission resultJson)
  let taken ← ops.submit id (payloadOf id d.sourceCode problem language testCases)
  if !taken then
    let text ← Program.ofExcept (env.codec.print unavailableDoc)
    let _ ← ops.updateResult id (ascii "system_error") text 0 0
    sendJsonError env 503 "judge queue unavailable" []
  else
    let response := submissionJson { d.submission resultJson with id := id }
      (if resultJson = [] then none else (env.codec.parse resultJson).toOption)
    sendJson env 201 (setIn "judge_scope" (.str (ascii scope))
      (setIn "sample_case_count" (.int testCases.length) (setIn "id" (.int id.toInt) response)))

def submitWithOver (d : Draft) (problem : Problem) (language : Language) :
    Program (World σ) Unit :=
  if !language.enabled then sendJsonError env 400 "language disabled" []
  else do
    let (testCases, scope) ← ops.casesOf d
    if testCases = [] then sendJsonError env 400 "no test cases available" []
    else storeDraftOver env ops d problem language testCases scope

def submitDraftOver (d : Draft) : Program (World σ) Unit := do
  match ← ops.problem d.problemId with
  | none => sendJsonError env 404 "problem not found" []
  | some problem =>
    match ← ops.language d.language with
    | none => sendJsonError env 404 "language not found" []
    | some language => submitWithOver env ops d problem language

/-- `POST /api/submissions`, over what it calls. -/
def postSubmissionsOver : RouteHandler σ := fun req _ => guardJsonHandler env do
  let some body ← parseJsonBody env req | return ()
  let sourceCode ← field (body.valueStr (ascii "source_code") [])
  let problemId := extractRequiredId body "problem_id"
  let languageId := extractRequiredId body "language_id"
  let userId := resolveUserId req body
  let mode ← field (body.valueStr (ascii "mode") (ascii "submit"))
  match problemId, languageId, userId with
  | some problemId, some languageId, some userId =>
    if sourceCode = [] ∨ userId ≤ 0 then
      sendJsonError env 400 "source_code, problem_id, language_id and user_id are required" []
    else
      match modeOf mode with
      | none => sendJsonError env 400 "mode must be run or submit" []
      | some mode => submitDraftOver env ops ⟨sourceCode, problemId, languageId, userId, mode⟩
  | _, _, _ =>
    sendJsonError env 400 "source_code, problem_id, language_id and user_id are required" []

end

/-- The operations with given answers, and the log of `Submit`. -/
def SubmitAnswers.ops (answers : SubmitAnswers) : SubmitOps SubmitLog where
  problem id := Program.ofExcept (answers.problem id)
  language := lookLanguage answers
  testCases id onlySample := Program.ofExcept (answers.testCases id onlySample)
  create := createSubmission answers
  submit id payload := return answers.submit id payload
  updateResult id status text timeMs memoryKb :=
    Program.ofExcept (answers.updateResult id status text timeMs memoryKb)

theorem casesOf_of_testCases {σ : Type} {ops : SubmitOps σ} {answers : SubmitAnswers}
    (h : ∀ id onlySample, ops.testCases id onlySample =
      Program.ofExcept (answers.testCases id onlySample)) (d : Draft) :
    ops.casesOf d = Program.ofExcept (answers.casesOf d) := by
  funext w
  simp only [SubmitOps.casesOf, SubmitAnswers.casesOf, h]
  cases answers.testCases d.problemId (d.mode == .run) with
  | error e => rfl
  | ok testCases =>
    rw [Program.ofExcept_ok_bind]
    by_cases hall : d.mode = .run ∧ testCases = []
    · simp only [bind, Except.bind, if_pos hall]
      cases answers.testCases d.problemId false with
      | error e => rfl
      | ok all => rfl
    · simp only [bind, Except.bind, if_neg hall]
      rfl

theorem casesOf_ops (answers : SubmitAnswers) (d : Draft) :
    answers.ops.casesOf d = Program.ofExcept (answers.casesOf d) :=
  casesOf_of_testCases (fun _ _ => rfl) d

theorem storeDraftOver_ops (env : Env) (answers : SubmitAnswers) :
    storeDraftOver env answers.ops = storeDraft env answers := rfl

theorem submitDraftOver_ops (env : Env) (answers : SubmitAnswers) :
    submitDraftOver env answers.ops = submitDraft env answers := by
  have hwith : submitWithOver env answers.ops = submitWith env answers := by
    funext d problem language
    simp only [submitWithOver, submitWith, casesOf_ops, storeDraftOver_ops]
  funext d
  simp only [submitDraftOver, submitDraft, hwith]
  rfl

/-- **It is the handler of `Submit`**, when the operations give these answers.  What is shown of the
calls is therefore shown of the handler whose results are known. -/
theorem postSubmissionsOver_ops (env : Env) (answers : SubmitAnswers) :
    postSubmissionsOver env answers.ops = postSubmissions env answers := by
  funext req captures
  unfold postSubmissions
  rw [← submitDraftOver_ops]
  rfl

/-! ## 2. The calls

Three operations change something: the insert, the hand-over and the update.  A record has what the
operation was given and what it returned, so a caller can see that the id of the job is the one the
insert has returned. -/

/-- A call that the handler has made, and its result. -/
inductive SubmitCall
  | create (s : Submission) (id : Int64)
  | submit (id : Int64) (payload : Json) (taken : Bool)
  | updateResult (id : Int64) (status resultJson : Bytes) (timeMs memoryKb : Int32)
      (result : Except Raised Bool)

def record (call : SubmitCall) : Program (World (List SubmitCall)) Unit :=
  modify fun w => { w with db := w.db ++ [call] }

/-- The operations with given answers, and a record of the calls that change something. -/
def SubmitAnswers.traced (answers : SubmitAnswers) : SubmitOps (List SubmitCall) where
  problem id := Program.ofExcept (answers.problem id)
  language id := Program.ofExcept (answers.language id)
  testCases id onlySample := Program.ofExcept (answers.testCases id onlySample)
  create s := do
    let id ← Program.ofExcept (answers.create s)
    record (.create s id)
    return id
  submit id payload := do
    let taken := answers.submit id payload
    record (.submit id payload taken)
    return taken
  updateResult id status text timeMs memoryKb := do
    let result := answers.updateResult id status text timeMs memoryKb
    record (.updateResult id status text timeMs memoryKb result)
    Program.ofExcept result

/-- What a request has stored and offered to the judge: a submission that is pending, as it is asked
for, and under its id a job that is made of its source code and of what the database has answered
for its problem, its language and its mode. -/
structure Offered (answers : SubmitAnswers) (d : Draft) (s : Submission) (id : Int64)
    (payload : Json) : Prop where
  asked : ∃ resultJson, s = d.submission resultJson
  created : answers.create s = .ok id
  payload : ∃ problem language testCases scope,
    answers.problem d.problemId = .ok (some problem) ∧
      answers.language d.language = .ok (some language) ∧ language.enabled = true ∧
      answers.casesOf d = .ok (testCases, scope) ∧ testCases ≠ [] ∧
      payload = payloadOf id d.sourceCode problem language testCases

/-- The status of the answer, and the calls.  A status of 201 means that the queue has the job, and
503 that it has not and the row is given up; in each case the answer itself may fail to be printed,
which makes it a 500 and changes nothing behind it. -/
inductive Handled (answers : SubmitAnswers) (draft : Option Draft) : Int → List SubmitCall → Prop
  /-- Nothing has been stored. -/
  | away (statu : Int) (h : statu ≠ 201 ∧ statu ≠ 503) : Handled answers draft statu []
  /-- The job is in the queue. -/
  | taken (d s id payload) (hd : draft = some d) (h : Offered answers d s id payload) :
      Handled answers draft 201 [.create s id, .submit id payload true]
  /-- It is, and the answer cannot be printed. -/
  | takenUnprinted (d s id payload) (hd : draft = some d) (h : Offered answers d s id payload) :
      Handled answers draft 500 [.create s id, .submit id payload true]
  /-- The queue has not taken it, and the row is given up. -/
  | refused (d s id payload text statu result) (hd : draft = some d)
      (h : Offered answers d s id payload)
      (hstatu : statu = 503 ∧ (∃ found, result = .ok found) ∨ statu = 500) :
      Handled answers draft statu [.create s id, .submit id payload false,
        .updateResult id (ascii "system_error") text 0 0 result]

section

variable {env : Env} {answers : SubmitAnswers} {draft : Option Draft} {d : Draft}
  {w : World (List SubmitCall)}

theorem handled_away {statu : Int} (hw : w.db = []) (h : statu ≠ 201 ∧ statu ≠ 503) :
    Handled answers draft statu w.db := hw ▸ .away statu h

theorem ends_error (hw : w.db = []) (statu : Int) (h : statu ≠ 201 ∧ statu ≠ 503)
    (error : String) (message : Bytes) :
    Ends (Handled answers draft) (sendJsonError env statu error message) w :=
  ends_sendJson statu _ (handled_away hw h) (handled_away hw (by decide))

/-- **From the row on.**  Everything that can raise before `create` leaves no call behind; behind it
the document of the row that is given up is printed, being constant. -/
theorem ends_storeDraftOver (hdump : env.codec.DumpsUtf8) {problem : Problem}
    {language : Language} {testCases : List TestCase} {scope : String} (hd : draft = some d)
    (hproblem : answers.problem d.problemId = .ok (some problem))
    (hlanguage : answers.language d.language = .ok (some language))
    (henabled : language.enabled = true) (hcases : answers.casesOf d = .ok (testCases, scope))
    (hne : testCases ≠ []) (hw : w.db = []) :
    Ends (Handled answers draft)
      (storeDraftOver env answers.traced d problem language testCases scope) w := by
  have haway : Handled answers draft 500 w.db := handled_away hw (by decide)
  rw [Ends, storeDraftOver]
  simp only [SubmitAnswers.traced, record, Program.wp_bind, Program.wp_ofExcept,
    Program.wp_modify, Program.wp_pure]
  refine ⟨fun resultJson _ => ⟨fun id hcreate => ?_, fun _ _ => haway⟩, fun _ _ => haway⟩
  have hoffered : Offered answers d (d.submission resultJson) id
      (payloadOf id d.sourceCode problem language testCases) :=
    ⟨⟨resultJson, rfl⟩, hcreate, problem, language, testCases, scope, hproblem, hlanguage, henabled,
      hcases, hne, rfl⟩
  rw [hw]
  cases answers.submit id (payloadOf id d.sourceCode problem language testCases) with
  | true =>
    rw [if_neg (by decide)]
    exact ends_sendJson 201 _ (.taken _ _ _ _ hd hoffered) (.takenUnprinted _ _ _ _ hd hoffered)
  | false =>
    rw [if_pos (by decide)]
    have hutf8 : unavailableDoc.utf8 = true := by decide
    obtain ⟨text, htext⟩ := hdump.exists_dump hutf8
    rw [Json.Codec.print_eq_ok.mpr htext]
    simp only [Program.wp_bind, Program.wp_ofExcept, Program.wp_modify, Except.ok.injEq, forall_eq',
      reduceCtorEq, false_implies, implies_true, and_true]
    refine ⟨fun found hfound => ?_, fun e _ => ?_⟩
    · exact ends_sendJson 503 _
        (.refused _ _ _ _ text 503 _ hd hoffered (.inl ⟨rfl, found, hfound⟩))
        (.refused _ _ _ _ text 500 _ hd hoffered (.inr rfl))
    · exact .refused _ _ _ _ text 500 _ hd hoffered (.inr rfl)

theorem ends_submitWithOver (hdump : env.codec.DumpsUtf8) {problem : Problem} {language : Language}
    (hd : draft = some d)
    (hproblem : answers.problem d.problemId = .ok (some problem))
    (hlanguage : answers.language d.language = .ok (some language)) (hw : w.db = []) :
    Ends (Handled answers draft) (submitWithOver env answers.traced d problem language) w := by
  rw [Ends, submitWithOver]
  cases henabled : language.enabled with
  | false => exact ends_error hw 400 (by decide) _ _
  | true =>
    have hofCases : answers.traced.casesOf d = Program.ofExcept (answers.casesOf d) :=
      casesOf_of_testCases (fun _ _ => rfl) d
    rw [Bool.not_true, if_neg Bool.false_ne_true, Program.wp_bind, hofCases]
    refine (Program.wp_ofExcept _).mpr ⟨fun cases hcases => ?_, fun _ _ =>
      handled_away hw (by decide)⟩
    obtain ⟨testCases, scope⟩ := cases
    dsimp only
    split
    · exact ends_error hw 400 (by decide) _ _
    · rename_i hne
      exact ends_storeDraftOver hdump hd hproblem hlanguage henabled hcases hne hw

theorem ends_submitDraftOver (hdump : env.codec.DumpsUtf8) (hd : draft = some d) (hw : w.db = []) :
    Ends (Handled answers draft) (submitDraftOver env answers.traced d) w := by
  have h500 : Handled answers draft 500 w.db := handled_away hw (by decide)
  rw [Ends, submitDraftOver, Program.wp_bind]
  refine (Program.wp_ofExcept _).mpr ⟨fun found hproblem => ?_, fun _ _ => h500⟩
  cases found with
  | none => exact ends_error hw 404 (by decide) _ _
  | some problem =>
    rw [Program.wp_bind]
    refine (Program.wp_ofExcept _).mpr ⟨fun found hlanguage => ?_, fun _ _ => h500⟩
    cases found with
    | none => exact ends_error hw 404 (by decide) _ _
    | some language => exact ends_submitWithOver hdump hd hproblem hlanguage hw

/-- What a request asks for, if its body passes the checks. -/
def asked (env : Env) (req : HttpRequest) : Option Draft :=
  match env.codec.parse req.body with
  | .error _ => none
  | .ok body => draftOf req body

/-- **A request, from the parser on.** -/
theorem handled_postSubmissions (hdump : env.codec.DumpsUtf8) (answers : SubmitAnswers)
    (req : HttpRequest) (captures : List Bytes) (hw : w.db = []) :
    Handled answers (asked env req)
      ((postSubmissionsOver env answers.traced req captures).run w).2.response.statu
      ((postSubmissionsOver env answers.traced req captures).run w).2.db := by
  refine final_of_ends env ?_
  rw [Ends, Program.wp_bind, parseJsonBody, asked]
  cases env.codec.parse req.body with
  | error what =>
    rw [Program.wp_bind]
    refine wp_sendJson env 400 _ fun w' hstatu hdb => ⟨?_, fun _ => ?_⟩
    · exact handled_away (hdb.trans hw) (by rw [hstatu]; decide)
    · exact handled_away (hdb.trans hw) (by decide)
  | ok body =>
    simp only [Program.wp_bind, Program.wp_pure, field, Program.wp_ofExcept,
      Except.mapError_eq_ok]
    have h500 : Handled answers (draftOf req body) 500 w.db := handled_away hw (by decide)
    refine ⟨fun sourceCode hsource => ⟨fun text htext => ?_, fun _ _ => h500⟩, fun _ _ => h500⟩
    have hdraft : draftOf req body = _ := draftOf_eq hsource htext
    cases hproblem : extractRequiredId body "problem_id" with
    | none => exact ends_error hw 400 (by decide) _ _
    | some problemId =>
      cases hlanguage : extractRequiredId body "language_id" with
      | none => exact ends_error hw 400 (by decide) _ _
      | some languageId =>
        cases huser : resolveUserId req body with
        | none => exact ends_error hw 400 (by decide) _ _
        | some userId =>
          simp only [hproblem, hlanguage, huser, Option.bind_some] at hdraft
          by_cases hbad : sourceCode = [] ∨ userId ≤ 0
          · simp only [if_pos hbad]
            exact ends_error hw 400 (by decide) _ _
          · simp only [if_neg hbad] at hdraft ⊢
            cases hmode : modeOf text with
            | none => exact ends_error hw 400 (by decide) _ _
            | some mode =>
              rw [hmode, Option.bind_some] at hdraft
              exact ends_submitDraftOver hdump hdraft hw

/-- **The calls of a request.**  Whatever the database and the judge answer, a request to
`POST /api/submissions` ends in one of these ways.  It has stored nothing, and its answer is neither
201 nor 503.  Or it has stored one submission, pending, as it was asked for, and offered the judge
one job, under the id of the submission, with its source code and what the database has answered for
the problem, the language and the test cases of the mode; then, if the queue has taken the job, that
is all and the answer is 201, and if not, it has tried to give the row up as `system_error`, once,
and the answer is 503 only if that has worked.  In the two last cases an answer that cannot be
printed makes it a 500. -/
theorem calls_postSubmissions (env : Env) (hdump : env.codec.DumpsUtf8) (answers : SubmitAnswers)
    (req : HttpRequest) (captures : List Bytes) (response : HttpResponse) (calls : Nat) :
    Handled answers (asked env req)
      ((postSubmissionsOver env answers.traced req captures).run
        ⟨response, calls, []⟩).2.response.statu
      ((postSubmissionsOver env answers.traced req captures).run ⟨response, calls, []⟩).2.db :=
  handled_postSubmissions hdump answers req captures rfl

end

/-- A request for the problem 1 and the language 1. -/
def handedIn : Json :=
  .obj [(ascii "language_id", .int 1), (ascii "problem_id", .int 1),
    (ascii "source_code", .str (ascii "int main(){}")), (ascii "user_id", .int 1)]

/-- It as an HTTP request. -/
def handedRequest : HttpRequest :=
  { HttpRequest.reSet with body := handedIn.print (.compact fun _ => []) }

/-- A database with this problem, this language and one test case; the next submission is 7. -/
def handedAnswers : SubmitAnswers where
  problem _ := .ok (some ⟨1, ascii "A", ascii "Say ok.", ascii "easy", 1000, 262144,
    ascii "published", 1, [], []⟩)
  language _ := .ok (some
    ⟨1, ascii "C++", ascii "cpp", ascii "g++ {source} -o {output}", ascii "{binary}", true, []⟩)
  testCases _ _ := .ok [⟨1, 1, false, [], ascii "ok", 1, []⟩]
  create _ := .ok 7
  submit _ _ := true
  updateResult _ _ _ _ _ := .ok true

/-- A site whose JSON library reads what it prints. -/
def submitEnv : Env where
  codec := .standard (.compact fun _ => [])
  openSsl := Auth.sampleOpenSsl
  jwtSecret := ascii "secret"
  now := Auth.sampleInstant
  libraryText _ := ascii "exception"

/-- The queue is shut down. -/
def shutAnswers : SubmitAnswers := { handedAnswers with submit := fun _ _ => false }

/-- The request is stored, refused and given up. -/
theorem calls_postSubmissions_shut :
    ∃ w, ((postSubmissionsOver submitEnv shutAnswers.traced handedRequest []).run
        ⟨.ofStatu 200, 0, []⟩).2 = w ∧
      Handled shutAnswers (asked submitEnv handedRequest) w.response.statu w.db ∧
      w.response.statu = 503 ∧ w.db.length = 3 :=
  ⟨_, rfl, calls_postSubmissions submitEnv (Json.standard_dumpsUtf8 _) shutAnswers handedRequest []
    (.ofStatu 200) 0, by decide +kernel, by decide +kernel⟩

end OnlineJudge.Handler
