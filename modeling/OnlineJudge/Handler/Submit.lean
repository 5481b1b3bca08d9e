/-
# Handing in a submission

`POST /api/submissions` (`submission_handler.cpp`).  The language is named by a number in the body.
`ParseJsonInt64` reads it with `get<std::int64_t>()`, which takes an unsigned number from 2^63 on
modulo 2^64, and the handler casts the result to `int` before it looks the language up and when it
stores the submission.

What the database and the judge answer during one request is given (`SubmitAnswers`); a ghost log
records the languages that are looked up and the submissions that are stored.

* `ends_submitDraft_of_turnedAway`, `ends_submitDraft`: a request is turned away, or the language
  that is looked up and stored is the number cut to 32 bits.
* `languageKept_iff`: when that is the number of the request.

The claim about the language is the reason for the ghost log.  The rest of what the handler does,
the row and the job, is followed in `Handler.SubmitCalls`, over the same handler.
-/
import OnlineJudge.Db.SubmissionReads
import OnlineJudge.Handler.HandlerBase
import OnlineJudge.Judge.Executor
import OnlineJudge.Lib.Wp

namespace OnlineJudge.Handler

open ByteString Db Net

/-! ## 1. The body

Each of the three ids may be given as a number or as a text.  A text goes through `ParseInt64`,
which refuses what does not fit; a number goes through a conversion, which does not. -/

def parseJsonInt64 : Json → Option Int64
  | .int n => some (.ofInt n)
  | .str text => parseInt64 text
  | _ => none

def resolveUserId (req : HttpRequest) (body : Json) : Option Int64 :=
  match (body.find? (ascii "user_id")).bind parseJsonInt64 with
  | some id => some id
  | none =>
    if req.hasParam (ascii "user_id") then parseInt64 (req.getParam (ascii "user_id"))
    -- `HasHeader` and `GetHeader`
    else (req.headers.find? (ascii "X-User-Id")).bind parseInt64

def extractRequiredId (body : Json) (key : String) : Option Int64 :=
  (body.find? (ascii key)).bind parseJsonInt64

/-- The mode that a text names, in any case of its letters. -/
def modeOf (text : Bytes) : Option SubmissionMode :=
  [SubmissionMode.run, .submit].find? fun mode => mode.text == text.map toLower

/-- A body that has passed the checks. -/
structure Draft where
  sourceCode : Bytes
  problemId : Int64
  languageId : Int64
  userId : Int64
  mode : SubmissionMode

/-- `static_cast<int>(*language_id)`. -/
def Draft.language (d : Draft) : Int32 := d.languageId.toInt32

/-- The request passes the checks with this draft. -/
def draftOf (req : HttpRequest) (body : Json) : Option Draft := do
  let sourceCode ← (body.valueStr (ascii "source_code") []).toOption
  let problemId ← extractRequiredId body "problem_id"
  let languageId ← extractRequiredId body "language_id"
  let userId ← resolveUserId req body
  let text ← (body.valueStr (ascii "mode") (ascii "submit")).toOption
  let mode ← modeOf text
  if sourceCode = [] ∨ userId ≤ 0 then none
  else return ⟨sourceCode, problemId, languageId, userId, mode⟩

/-! ## 2. The handler

The handler is cut where the source has its checks: the body, the problem and the language, the test
cases, and then the row and the job. -/

/-- What is answered during a request: by the DAOs, and by `submit` for the id of a submission and
its payload. -/
structure SubmitAnswers where
  problem : Int64 → Except Raised (Option Problem)
  language : Int32 → Except Raised (Option Language)
  testCases : Int64 → Bool → Except Raised (List TestCase)
  create : Submission → Except Raised Int64
  submit : Int64 → Json → Bool
  updateResult : Int64 → Bytes → Bytes → Int32 → Int32 → Except Raised Bool

/-- The ids that `LanguageDao::GetById` was called with, and what `SubmissionDao::Create` has
stored. -/
structure SubmitLog where
  looked : List Int32
  stored : List Submission

/-- `operator[]` of an object and an assignment; `nlohmann::json` keeps the members sorted. -/
def setMember (name : Bytes) (v : Json) : List (Bytes × Json) → List (Bytes × Json)
  | [] => [(name, v)]
  | m :: ms =>
    if m.1 = name then (name, v) :: ms
    else if m.1 < name then m :: setMember name v ms
    else (name, v) :: m :: ms

/-- The same of a document. -/
def setIn (name : String) (v : Json) : Json → Json
  | .obj members => .obj (setMember (ascii name) v members)
  | doc => doc

/-- The result of a submission that waits. -/
def pendingDoc (mode : SubmissionMode) (scope : String) (count : Nat) : Json :=
  .obj [(ascii "judge_scope", .str (ascii scope)), (ascii "mode", .str mode.text),
    (ascii "sample_case_count", .int count), (ascii "status", .str (ascii "PENDING"))]

/-- The result if the queue does not take the job. -/
def unavailableDoc : Json :=
  .obj [(ascii "error", .str (ascii "judge queue unavailable")),
    (ascii "status", .str (ascii "SYSTEM_ERROR"))]

/-- `BuildJudgePayload` of the records. -/
def payloadOf (id : Int64) (sourceCode : Bytes) (problem : Problem) (language : Language)
    (testCases : List TestCase) : Json :=
  Judge.buildJudgePayload ⟨id.toInt, sourceCode⟩
    ⟨problem.timeLimitMs.toInt, problem.memoryLimitKb.toInt⟩
    ⟨language.extension, language.compileCmd, language.runCmd⟩
    (testCases.map fun tc => ⟨tc.id.toInt, tc.input, tc.output⟩)

/-- The test cases and their scope: in a run the samples, or all if there are none. -/
def SubmitAnswers.casesOf (answers : SubmitAnswers) (d : Draft) :
    Except Raised (List TestCase × String) := do
  let testCases ← answers.testCases d.problemId (d.mode == .run)
  if d.mode = .run ∧ testCases = [] then
    let all ← answers.testCases d.problemId false
    return (all, "all")
  else return (testCases, if d.mode = .run then "sample" else "all")

section

variable (env : Env) (answers : SubmitAnswers)

def parseJsonBody {σ : Type} (req : HttpRequest) : Program (World σ) (Option Json) :=
  match env.codec.parse req.body with
  | .error what => do
    sendJsonError env 400 "invalid json" what
    return none
  | .ok body => return some body

/-- `LanguageDao::GetById`, noted in the log. -/
def lookLanguage (id : Int32) : Program (World SubmitLog) (Option Language) := do
  modify fun w => { w with db := { w.db with looked := w.db.looked ++ [id] } }
  Program.ofExcept (answers.language id)

/-- `SubmissionDao::Create`, noted in the log if it has stored something. -/
def createSubmission (s : Submission) : Program (World SubmitLog) Int64 := do
  let id ← Program.ofExcept (answers.create s)
  modify fun w => { w with db := { w.db with stored := w.db.stored ++ [s] } }
  return id

/-- The submission is stored and goes to the judge; if the queue does not take it, the row is
marked. -/
def storeDraft (d : Draft) (problem : Problem) (language : Language) (testCases : List TestCase)
    (scope : String) : Program (World SubmitLog) Unit := do
  let resultJson ← Program.ofExcept
    (env.codec.print (pendingDoc d.mode scope testCases.length))
  let submission : Submission :=
    { id := 0, userId := d.userId, problemId := d.problemId, languageId := d.language,
      sourceCode := d.sourceCode, mode := d.mode.text, status := ascii "pending",
      resultJson := resultJson, timeMs := 0, memoryKb := 0, createdAt := [] }
  let id ← createSubmission answers submission
  if !answers.submit id (payloadOf id d.sourceCode problem language testCases) then
    let text ← Program.ofExcept (env.codec.print unavailableDoc)
    let _ ← Program.ofExcept (answers.updateResult id (ascii "system_error") text 0 0)
    sendJsonError env 503 "judge queue unavailable" []
  else
    let response := submissionJson { submission with id := id }
      (if resultJson = [] then none else (env.codec.parse resultJson).toOption)
    sendJson env 201 (setIn "judge_scope" (.str (ascii scope))
      (setIn "sample_case_count" (.int testCases.length) (setIn "id" (.int id.toInt) response)))

/-- What comes once the problem and the language are found. -/
def submitWith (d : Draft) (problem : Problem) (language : Language) :
    Program (World SubmitLog) Unit :=
  if !language.enabled then sendJsonError env 400 "language disabled" []
  else do
    let (testCases, scope) ← Program.ofExcept (answers.casesOf d)
    if testCases = [] then sendJsonError env 400 "no test cases available" []
    else storeDraft env answers d problem language testCases scope

/-- What comes behind the checks of the body. -/
def submitDraft (d : Draft) : Program (World SubmitLog) Unit := do
  match ← Program.ofExcept (answers.problem d.problemId) with
  | none => sendJsonError env 404 "problem not found" []
  | some problem =>
    match ← lookLanguage answers d.language with
    | none => sendJsonError env 404 "language not found" []
    | some language => submitWith env answers d problem language

/-- `POST /api/submissions`, under the `try` block of the public handlers. -/
def postSubmissions : RouteHandler SubmitLog := fun req _ => guardJsonHandler env do
  let some body ← parseJsonBody env req | return ()
  let sourceCode ← field (body.valueStr (ascii "source_code") [])
  let problemId := extractRequiredId body "problem_id"
  let languageId := extractRequiredId body "language_id"
  let userId := resolveUserId req body
  let mode ← field (body.valueStr (ascii "mode") (ascii "submit"))
  match problemId, languageId, userId with
  | some problemId, some languageId, some userId =>
    if sourceCode = [] ∨ userId ≤ 0 then
      sendJsonError env 400 "source_code, problem_id, language_id and user_id are required" []
    else
      match modeOf mode with
      | none => sendJsonError env 400 "mode must be run or submit" []
      | some mode => submitDraft env answers ⟨sourceCode, problemId, languageId, userId, mode⟩
  | _, _, _ =>
    sendJsonError env 400 "source_code, problem_id, language_id and user_id are required" []

end

/-! ## 3. Where a handler ends

Every end of the handler is under its `try` block, so a postcondition is about a status and a log,
and says nothing of how they were reached. -/

section

variable {σ : Type} {env : Env} {R : Int → σ → Prop} {w : World σ}

/-- Under `GuardJsonHandler` the code ends with a status and a database in `R`; an exception is
answered with 500. -/
def Ends (R : Int → σ → Prop) (fn : Program (World σ) Unit) (w : World σ) : Prop :=
  Program.wp fn (fun _ (w : World σ) => R w.response.statu w.db)
    (fun _ (w : World σ) => R 500 w.db) w

theorem wp_sendJson (env : Env) {Q : Unit → World σ → Prop} {E : Raised → World σ → Prop}
    (status : Int) (body : Json)
    (h : ∀ w', w'.response.statu = status → w'.db = w.db → Q () w' ∧ ∀ e, E e w') :
    Program.wp (sendJson env status body) Q E w := by
  cases hdump : env.codec.dump body with
  | none =>
    rw [Program.wp_of_run_error (run_sendJson_of_none env hdump status w)]
    exact (h (w.marked status) rfl rfl).2 _
  | some text =>
    rw [Program.wp_of_run_ok (run_sendJson env hdump status w)]
    exact (h (w.answered status text) rfl rfl).1

/-- **The guard** turns an exception of the handler into an answer, so that what holds at every end
of the handler holds of the response. -/
theorem final_of_ends (env : Env) {fn : Program (World σ) Unit} (h : Ends R fn w) :
    R ((guardJsonHandler env fn).run w).2.response.statu
      ((guardJsonHandler env fn).run w).2.db := by
  refine Program.final_of_wp (P := fun w : World σ => R w.response.statu w.db) ?_
  rw [guardJsonHandler, Program.wp_tryCatch]
  refine Program.wp_mono (fun _ _ h => h) (fun e w' h500 => ?_) h
  refine wp_sendJson env 500 _ fun w'' hstatu hdb => ?_
  rw [hstatu, hdb]
  exact ⟨h500, fun _ => h500⟩

/-- An answer that may not be printed. -/
theorem ends_sendJson (status : Int) (body : Json) (h : R status w.db) (h500 : R 500 w.db) :
    Ends R (sendJson env status body) w := by
  refine wp_sendJson env status body fun w' hstatu hdb => ?_
  rw [hstatu, hdb]
  exact ⟨h, fun _ => h500⟩

theorem ends_sendJsonError (hdump : env.codec.DumpsUtf8) (status : Int) {error : String}
    (herror : Utf8.wellFormed (ascii error) = true) (h : R status w.db) :
    Ends R (sendJsonError env status error []) w := by
  have hutf8 : (errorDoc error).utf8 = true := by
    have hname : Utf8.wellFormed (ascii "error") = true := by decide
    simp [errorDoc, Json.utf8, Json.utf8Members, hname, herror]
  obtain ⟨text, htext⟩ := hdump.exists_dump hutf8
  have hdoc : (sendJsonError env status error [] : Program (World σ) Unit) =
      sendJson env status (errorDoc error) := rfl
  rw [Ends, hdoc, Program.wp_of_run_ok (run_sendJson env htext status w)]
  exact h

end

/-! ## 4. The language

The number is cut to 32 bits in two places, which do the same.  What is looked up and what is stored
is therefore one number, and the only question is whether it is that of the request. -/

/-- A status that rejects the request, which blames the client and not the server. -/
def Rejects (status : Int) : Prop := 400 ≤ status ∧ status < 500

instance : DecidablePred Rejects := fun _ => inferInstanceAs (Decidable (_ ∧ _))

section

variable {env : Env} {answers : SubmitAnswers} {d : Draft} {w : World SubmitLog}

/-- The language `id` was looked up, and it is what was stored, by a request that was not rejected.
-/
def Names (id : Int32) (status : Int) (log : SubmitLog) : Prop :=
  ¬ Rejects status ∧ log.looked = [id] ∧ ∀ s ∈ log.stored, s.languageId = id

theorem not_rejects {status : Int} (h : status < 400 ∨ 500 ≤ status) : ¬ Rejects status := by
  rintro ⟨hlow, hhigh⟩
  omega

theorem names_looked (id : Int32) : Names id 500 ⟨[id], []⟩ := by
  refine ⟨not_rejects (by decide), rfl, ?_⟩
  intro s hs
  cases hs

theorem names_stored {s : Submission} (hw : w.db = ⟨[d.language], []⟩)
    (hs : s.languageId = d.language) {status : Int} (hstatus : status < 400 ∨ 500 ≤ status) :
    Names d.language status ⟨w.db.looked, w.db.stored ++ [s]⟩ := by
  rw [hw]
  refine ⟨not_rejects hstatus, rfl, fun t ht => ?_⟩
  obtain rfl := List.mem_singleton.mp ht
  exact hs

/-- Storing does not reject, and what it stores has the language of the draft. -/
theorem ends_storeDraft (problem : Problem) (language : Language) (testCases : List TestCase)
    (scope : String) (hw : w.db = ⟨[d.language], []⟩) :
    Ends (Names d.language) (storeDraft env answers d problem language testCases scope) w := by
  have hempty : Names d.language 500 w.db := hw ▸ names_looked d.language
  rw [Ends, storeDraft]
  simp only [Program.wp_bind, Program.wp_ofExcept, createSubmission, Program.wp_modify,
    Program.wp_pure]
  refine ⟨fun resultJson _ => ⟨fun id _ => ?_, fun _ _ => hempty⟩, fun _ _ => hempty⟩
  split
  · -- The queue does not take the job.
    simp only [Program.wp_bind, Program.wp_ofExcept]
    exact ⟨fun text _ => ⟨fun _ _ => ends_sendJson 503 _ (names_stored hw rfl (by decide))
      (names_stored hw rfl (by decide)), fun _ _ => names_stored hw rfl (by decide)⟩,
      fun _ _ => names_stored hw rfl (by decide)⟩
  · exact ends_sendJson 201 _ (names_stored hw rfl (by decide)) (names_stored hw rfl (by decide))

/-- The request is turned away behind the checks of its body, by what the database has answered:
there is no such problem or language, the language is switched off, or there are no test cases. -/
inductive TurnedAway (answers : SubmitAnswers) (d : Draft) : Prop
  | noProblem (h : ∀ problem, answers.problem d.problemId ≠ .ok (some problem))
  | noLanguage (h : answers.language d.language = .ok none)
  | disabled (language : Language) (h : answers.language d.language = .ok (some language))
      (hdisabled : language.enabled = false)
  | noCases (language : Language) (h : answers.language d.language = .ok (some language))
      (scope : String) (hcases : answers.casesOf d = .ok ([], scope))

/-- It is rejected, or nothing was looked up.  In either case no other language than the one that
was asked for has come into play. -/
def Away (status : Int) (log : SubmitLog) : Prop := Rejects status ∨ log = ⟨[], []⟩

/-- A request that is turned away is rejected, or nothing was looked up; another one names its
language. -/
structure Settled (answers : SubmitAnswers) (d : Draft) (status : Int) (log : SubmitLog) :
    Prop where
  away : TurnedAway answers d → Away status log
  names : ¬ TurnedAway answers d → Names d.language status log

theorem settled_of_away {status : Int} {log : SubmitLog} (h : TurnedAway answers d)
    (haway : Away status log) : Settled answers d status log :=
  ⟨fun _ => haway, fun hnot => absurd h hnot⟩

theorem settled_of_names {status : Int} {log : SubmitLog} (h : ¬ TurnedAway answers d)
    (hnames : Names d.language status log) : Settled answers d status log :=
  ⟨fun hturned => absurd hturned h, fun _ => hnames⟩

theorem not_turnedAway {problem : Problem} (hproblem : answers.problem d.problemId =
      .ok (some problem)) (hlanguage : answers.language d.language ≠ .ok none)
    (hcases : ∀ language, answers.language d.language = .ok (some language) →
      language.enabled = true ∧ ∀ scope, answers.casesOf d ≠ .ok ([], scope)) :
    ¬ TurnedAway answers d := by
  rintro (h | h | ⟨language, h, hdisabled⟩ | ⟨language, h, scope, hnone⟩)
  · exact h problem hproblem
  · exact hlanguage h
  · rw [(hcases language h).1] at hdisabled
    cases hdisabled
  · exact (hcases language h).2 scope hnone

/-- The part of the handler behind the two lookups, with the problem and the language that were
found. -/
theorem ends_submitWith (hdump : env.codec.DumpsUtf8) {problem : Problem}
    (hproblem : answers.problem d.problemId = .ok (some problem)) {language : Language}
    (hlanguage : answers.language d.language = .ok (some language))
    (hw : w.db = ⟨[d.language], []⟩) :
    Ends (Settled answers d) (submitWith env answers d problem language) w := by
  have hnames : Names d.language 500 w.db := hw ▸ names_looked d.language
  have hnot : language.enabled = true → (∀ scope, answers.casesOf d ≠ .ok ([], scope)) →
      ¬ TurnedAway answers d := by
    intro henabled hcases
    refine not_turnedAway hproblem (by rw [hlanguage]; exact fun h => nomatch h) ?_
    intro language' h
    obtain rfl : language = language' := Option.some.inj (Except.ok.inj (hlanguage.symm.trans h))
    exact ⟨henabled, hcases⟩
  rw [Ends, submitWith]
  cases henabled : language.enabled with
  | false =>
    rw [if_pos (by decide)]
    exact ends_sendJsonError hdump 400 (by decide)
      (settled_of_away (.disabled language hlanguage henabled) (.inl (by decide)))
  | true =>
    rw [if_neg (by decide), Program.wp_bind, Program.wp_ofExcept]
    refine ⟨fun found hfound => ?_, fun e hraised => ?_⟩
    · obtain ⟨testCases, scope⟩ := found
      cases testCases with
      | nil =>
        exact ends_sendJsonError hdump 400 (by decide)
          (settled_of_away (.noCases language hlanguage scope hfound) (.inl (by decide)))
      | cons tc testCases =>
        have hsome : ∀ scope, answers.casesOf d ≠ .ok ([], scope) := fun scope h => by
          rw [hfound] at h
          cases h
        exact Program.wp_mono (fun _ _ h => settled_of_names (hnot henabled hsome) h)
          (fun _ _ h => settled_of_names (hnot henabled hsome) h)
          (ends_storeDraft problem language (tc :: testCases) scope hw)
    · have hraises : ∀ scope, answers.casesOf d ≠ .ok ([], scope) := fun scope h => by
        rw [hraised] at h
        cases h
      exact settled_of_names (hnot henabled hraises) hnames

/-- **Behind the checks of the body**: the draft is there, and what can still go wrong is in the
answers of the database. -/
theorem ends_submitDraft (hdump : env.codec.DumpsUtf8) (hw : w.db = ⟨[], []⟩) :
    Ends (Settled answers d) (submitDraft env answers d) w := by
  rw [Ends, submitDraft, Program.wp_bind, Program.wp_ofExcept]
  refine ⟨fun found hfound => ?_, fun e hraised => ?_⟩
  · cases found with
    | none =>
      have hnone : TurnedAway answers d := .noProblem fun p hp => by
        rw [hfound] at hp
        cases hp
      exact ends_sendJsonError hdump 404 (by decide) (settled_of_away hnone (.inl (by decide)))
    | some problem =>
      have hlooked : (⟨w.db.looked ++ [d.language], w.db.stored⟩ : SubmitLog) =
          ⟨[d.language], []⟩ := by
        rw [hw]
        rfl
      simp only [lookLanguage, Program.wp_bind, Program.wp_modify, Program.wp_ofExcept, hlooked]
      refine ⟨fun found hlanguage => ?_, fun e hraised => ?_⟩
      · cases found with
        | none =>
          exact ends_sendJsonError hdump 404 (by decide)
            (settled_of_away (.noLanguage hlanguage) (.inl (by decide)))
        | some language => exact ends_submitWith hdump hfound hlanguage rfl
      · refine settled_of_names (not_turnedAway hfound (fun h => ?_) fun language h => ?_)
          (names_looked d.language)
        · rw [hraised] at h
          cases h
        · rw [hraised] at h
          cases h
  · have hnone : TurnedAway answers d := .noProblem fun p hp => by
      rw [hraised] at hp
      cases hp
    exact settled_of_away hnone (.inr hw)

/-- The same for the whole handler: without a draft nothing is looked up. -/
def SettledBody (answers : SubmitAnswers) (draft : Option Draft) (status : Int) (log : SubmitLog) :
    Prop :=
  match draft with
  | none => Away status log
  | some d => Settled answers d status log

/-- The draft of a body whose texts can be read. -/
theorem draftOf_eq {req : HttpRequest} {body : Json} {sourceCode text : Bytes}
    (hsource : body.valueStr (ascii "source_code") [] = .ok sourceCode)
    (htext : body.valueStr (ascii "mode") (ascii "submit") = .ok text) :
    draftOf req body = (extractRequiredId body "problem_id").bind fun problemId =>
      (extractRequiredId body "language_id").bind fun languageId =>
        (resolveUserId req body).bind fun userId => (modeOf text).bind fun mode =>
          if sourceCode = [] ∨ userId ≤ 0 then none
          else some ⟨sourceCode, problemId, languageId, userId, mode⟩ := by
  rw [draftOf, hsource, htext]
  rfl

/-- **The handler**, for a body that can be read: under the guard it ends in one of the ways that
`SettledBody` lists. -/
theorem ends_postSubmissions (answers : SubmitAnswers) (hdump : env.codec.DumpsUtf8)
    {req : HttpRequest} {body : Json} (hparse : env.codec.parse req.body = .ok body)
    (hw : w.db = ⟨[], []⟩) (captures : List Bytes) :
    ∃ fn, postSubmissions env answers req captures = guardJsonHandler env fn ∧
      Ends (SettledBody answers (draftOf req body)) fn w := by
  refine ⟨_, rfl, ?_⟩
  have hmissing : Utf8.wellFormed
      (ascii "source_code, problem_id, language_id and user_id are required") = true := by decide
  have h400 : SettledBody answers none 400 w.db := Or.inl (by decide)
  have h500 : SettledBody answers none 500 w.db := Or.inr hw
  rw [Ends, Program.wp_bind, parseJsonBody, hparse]
  simp only [Program.wp_bind, Program.wp_pure, field, Program.wp_ofExcept,
    Except.mapError_eq_ok]
  refine ⟨fun sourceCode hsource => ⟨fun text htext => ?_, fun e hraised => ?_⟩,
    fun e hraised => ?_⟩
  · rw [draftOf_eq hsource htext]
    cases extractRequiredId body "problem_id" with
    | none => exact ends_sendJsonError hdump 400 hmissing h400
    | some problemId =>
      cases extractRequiredId body "language_id" with
      | none => exact ends_sendJsonError hdump 400 hmissing h400
      | some languageId =>
        cases resolveUserId req body with
        | none => exact ends_sendJsonError hdump 400 hmissing h400
        | some userId =>
          by_cases hbad : sourceCode = [] ∨ userId ≤ 0
          · simp only [Option.bind_some, if_pos hbad, Option.bind_fun_none]
            exact ends_sendJsonError hdump 400 hmissing h400
          · simp only [Option.bind_some, if_neg hbad]
            cases modeOf text with
            | none => exact ends_sendJsonError hdump 400 (by decide) h400
            | some mode => exact ends_submitDraft hdump hw
  · cases htext : body.valueStr (ascii "mode") (ascii "submit") with
    | ok text =>
      rw [htext] at hraised
      cases hraised
    | error _ =>
      have hnone : draftOf req body = none := by
        simp [draftOf, htext, Except.toOption]
      rw [hnone]
      exact h500
  · cases hsource : body.valueStr (ascii "source_code") [] with
    | ok sourceCode =>
      rw [hsource] at hraised
      cases hraised
    | error _ =>
      have hnone : draftOf req body = none := by
        rw [draftOf, hsource]
        rfl
      rw [hnone]
      exact h500

/-- The answer to a request, and the log. -/
def submitted (env : Env) (answers : SubmitAnswers) (req : HttpRequest) (captures : List Bytes) :
    World SubmitLog :=
  ((postSubmissions env answers req captures).run ⟨.ofStatu 200, 0, ⟨[], []⟩⟩).2

/-- The request is rejected, or the languages that are looked up and stored are `n`: the number as
it stood in the request, of any size. -/
def LanguageKept (n : Int) (w : World SubmitLog) : Prop :=
  Rejects w.response.statu ∨
    (∀ id ∈ w.db.looked, id.toInt = n) ∧ ∀ s ∈ w.db.stored, s.languageId.toInt = n

/-- The two conversions cut a number to 32 bits. -/
theorem toInt_language {req : HttpRequest} {body : Json} {n : Int}
    (hn : body.find? (ascii "language_id") = some (.int n)) {d : Draft}
    (hd : draftOf req body = some d) : d.language.toInt = Json.toInt32 n := by
  simp only [draftOf, Option.bind_eq_bind, Option.bind_eq_some_iff] at hd
  obtain ⟨_, -, _, -, languageId, hlanguage, _, -, _, -, _, -, hd⟩ := hd
  obtain ⟨-, hd⟩ := Option.ite_none_left_eq_some.mp hd
  obtain rfl := Option.some.inj hd
  rw [extractRequiredId, hn] at hlanguage
  obtain rfl : Int64.ofInt n = languageId := Option.some.inj hlanguage
  rw [Draft.language, Int64.toInt_toInt32, Int64.toInt_ofInt, Json.toInt32, Int.bmod_bmod_of_dvd]
  decide

theorem toInt32_eq_self_iff {n : Int} : Json.toInt32 n = n ↔ -2 ^ 31 ≤ n ∧ n < 2 ^ 31 := by
  rw [Json.toInt32, Int.bmod_def]
  omega

/-- **The language of a request.**  Whatever the database answers, a request with the language `n`
is rejected, or looks up and stores the language `n`, exactly if `n` is an `int` or the request does
not pass the checks or is turned away behind them. -/
theorem languageKept_iff (hdump : env.codec.DumpsUtf8) {req : HttpRequest} {body : Json}
    (hparse : env.codec.parse req.body = .ok body) {n : Int}
    (hn : body.find? (ascii "language_id") = some (.int n)) (captures : List Bytes) :
    LanguageKept n (submitted env answers req captures) ↔
      (-2 ^ 31 ≤ n ∧ n < 2 ^ 31) ∨ ∀ d ∈ draftOf req body, TurnedAway answers d := by
  have hends : SettledBody answers (draftOf req body)
      (submitted env answers req captures).response.statu
        (submitted env answers req captures).db := by
    obtain ⟨fn, hfn, hends⟩ := ends_postSubmissions answers (w := ⟨.ofStatu 200, 0, ⟨[], []⟩⟩) hdump
      hparse rfl captures
    rw [submitted, hfn]
    exact final_of_ends env hends
  have haway : Away (submitted env answers req captures).response.statu
      (submitted env answers req captures).db →
        LanguageKept n (submitted env answers req captures) := by
    rintro (hrejects | hlog)
    · exact .inl hrejects
    · rw [LanguageKept, hlog]
      exact .inr ⟨fun id hid => (nomatch hid), fun s hs => nomatch hs⟩
  cases hdraft : draftOf req body with
  | none =>
    rw [hdraft] at hends
    exact iff_of_true (haway hends) (.inr fun d hd => nomatch hd)
  | some d =>
    rw [hdraft] at hends
    by_cases hturned : TurnedAway answers d
    · refine iff_of_true (haway (hends.away hturned)) (.inr fun d' hd' => ?_)
      obtain rfl : d = d' := Option.some.inj hd'
      exact hturned
    · obtain ⟨hrejects, hlooked, hstored⟩ := hends.names hturned
      have hcut := toInt_language hn hdraft
      rw [← toInt32_eq_self_iff, ← hcut, LanguageKept, hlooked]
      constructor
      · rintro (h | ⟨h, -⟩)
        · exact absurd h hrejects
        · exact .inl (h d.language (.head _))
      · rintro (h | h)
        · refine .inr ⟨fun id hid => ?_, fun s hs => ?_⟩
          · rw [List.mem_singleton.mp hid, h]
          · rw [hstored s hs, h]
        · exact absurd (h d rfl) hturned

end

end OnlineJudge.Handler
