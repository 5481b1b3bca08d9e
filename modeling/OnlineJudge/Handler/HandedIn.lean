/-
# From the request to the verdict

A user hands in a source code for a problem; some time later the row of the submission has a status.
Between the two are the handler, the database, the queue, the JSON text of the payload, the network,
the worker's parser, its compiler and its runs, the JSON text of the report, and the update.

What all of this is for can be said without any of it: `JudgedBy` is about a machine, a source code,
the limits of a problem, the command of a language and a list of test cases.

* `judgedBy_verdictRow`: the row with the verdict on the runs is judged so.
* `request_of_payload`: what a worker reads of a job is a matter of its payload, so two tasks are
  never mixed up on the way.
* `exists_leaves`: what `worker_thread` leaves of the row of a job for a task.
* `judged_as_handed_in`: **a request that is answered with 201 is judged by what it has asked for**:
  by its own source code, on the test cases of its mode, under the limits of its problem and with
  the command of its language, as the database has answered them.

What is left open is which status a submission gets that fails several test cases in several ways:
`JudgedBy` says that it is the status of one of them.
-/
import OnlineJudge.Handler.AdminHandler
import OnlineJudge.Handler.SubmitCalls
import OnlineJudge.Judge.Wire

namespace OnlineJudge.Handler

open ByteString Db Net Judge

/-! ## 1. What a verdict means

The meaning names the machine and the texts, and none of the stages between them.  A verdict that
has been corrupted, cut off or mixed up with another on its way would not have it. -/

/-- The program passes test case `k`: it is run within the limits, and what it has written, up to
the cut, is the expected output but for blanks at the end. -/
def Passes (machine : Machine) (r : JudgeRequest) (k : Nat) (tc : Judge.TestCase) : Prop :=
  (machine.runProgram k (caseArgs r tc)).status = .accepted ∧
    normalizeOutput (actualOutput (machine.outFile k (caseArgs r tc))) = normalizeOutput tc.output

/-- The compiler has not accepted the source code: `RunShellCommand` has not returned 0 for its
command. -/
def Rejected (machine : Machine) (r : JudgeRequest) : Prop :=
  runShellCommand (machine.system r.compileCommand r.sourceCode) ≠ 0

/-- **The row says what the machine has done** with this request on these test cases.

It is judged for good.  It has `compile_error` exactly if the compiler has not accepted the source
code, and `accepted` exactly if the program was compiled and has passed all test cases.  Else it has
the status of a test case that was not passed: what the sandbox says of that run, or `wrong_answer`
if the run was within the limits and only the output differs. -/
structure JudgedBy (machine : Machine) (r : JudgeRequest) (testCases : List Judge.TestCase)
    (row : SubmissionRow) : Prop where
  ended : row.status.terminal = true
  compileError : row.status = .compileError ↔ Rejected machine r
  accepted : row.status = .accepted ↔ ¬ Rejected machine r ∧
    ∀ k tc, testCases[k]? = some tc → Passes machine r k tc
  failed : ¬ Rejected machine r → row.status ≠ .accepted → ∃ k tc, testCases[k]? = some tc ∧
    ¬ Passes machine r k tc ∧
      row.status = columnStatus (caseStatus tc.output (machine.runProgram k (caseArgs r tc))
        (actualOutput (machine.outFile k (caseArgs r tc)))) ∧
      (row.status = .wrongAnswer ↔ (machine.runProgram k (caseArgs r tc)).status = .accepted)
  timeMs : ¬ Rejected machine r →
    row.timeMs = Json.toInt32 (totalTimeMs (caseRuns machine r testCases))

section

variable {machine : Machine} {r : JudgeRequest} {testCases : List Judge.TestCase}

theorem columnStatus_eq_accepted {status : CaseStatus} :
    columnStatus status = .accepted ↔ status = .run .accepted := by
  cases status with
  | wrongAnswer => decide
  | run status => cases status <;> decide

theorem columnStatus_eq_wrongAnswer {status : CaseStatus} :
    columnStatus status = .wrongAnswer ↔ status = .wrongAnswer := by
  cases status with
  | wrongAnswer => decide
  | run status => cases status <;> decide

/-- It is never `compile_error`, and never that of a submission that waits. -/
theorem columnStatus_spec (status : CaseStatus) :
    columnStatus status ≠ .compileError ∧ (columnStatus status).terminal = true := by
  cases status with
  | wrongAnswer => decide
  | run status => cases status <;> decide

theorem caseStatus_eq_accepted {expected : Bytes} {rr : RunResult} {actual : Bytes} :
    caseStatus expected rr actual = .run .accepted ↔
      rr.status = .accepted ∧ normalizeOutput actual = normalizeOutput expected := by
  unfold caseStatus
  by_cases hrun : rr.status = .accepted
  · by_cases hsame : normalizeOutput actual = normalizeOutput expected <;> simp [hrun, hsame]
  · simp [hrun]

theorem caseStatus_eq_wrongAnswer {expected : Bytes} {rr : RunResult} {actual : Bytes}
    (h : caseStatus expected rr actual ≠ .run .accepted) :
    caseStatus expected rr actual = .wrongAnswer ↔ rr.status = .accepted := by
  rw [Ne, caseStatus_eq_accepted] at h
  unfold caseStatus
  by_cases hrun : rr.status = .accepted
  · have hdiff : normalizeOutput actual ≠ normalizeOutput expected := fun hsame => h ⟨hrun, hsame⟩
    simp [hrun, hdiff]
  · simp [hrun]

/-- A run of the list is that of a test case. -/
theorem exists_case_of_mem {run : CaseRun} (h : run ∈ caseRuns machine r testCases) :
    ∃ k tc, testCases[k]? = some tc ∧
      run.status = caseStatus tc.output (machine.runProgram k (caseArgs r tc))
        (actualOutput (machine.outFile k (caseArgs r tc))) ∧
      (run.status = .run .accepted ↔ Passes machine r k tc) := by
  obtain ⟨k, hk, rfl⟩ := List.mem_mapIdx.mp h
  exact ⟨k, testCases[k], List.getElem?_eq_getElem hk, rfl, caseStatus_eq_accepted⟩

/-- All runs are accepted exactly if all test cases are passed. -/
theorem accepted_iff_passes : (∀ run ∈ caseRuns machine r testCases,
      run.status = .run .accepted) ↔
    ∀ k tc, testCases[k]? = some tc → Passes machine r k tc := by
  constructor
  · intro h k tc htc
    obtain ⟨hk, rfl⟩ := List.getElem?_eq_some_iff.mp htc
    exact caseStatus_eq_accepted.mp (h _ (List.mem_mapIdx.mpr ⟨k, hk, rfl⟩))
  · intro h run hrun
    obtain ⟨k, tc, htc, -, hpasses⟩ := exists_case_of_mem hrun
    exact hpasses.mpr (h k tc htc)

/-- **The row with the verdict** says of the program what the machine has made of it: it is what
`JudgedBy` asks for, case by case. -/
theorem judgedBy_verdictRow (machine : Machine) (r : JudgeRequest)
    (testCases : List Judge.TestCase) (out : Bytes) :
    JudgedBy machine r testCases (verdictRow machine r testCases out) := by
  by_cases hrejected : Rejected machine r
  · have hrow : verdictRow machine r testCases out = ⟨.compileError, out, 0, 0⟩ := if_pos hrejected
    have hstatus : SubmissionStatus.compileError ≠ .accepted := by decide
    rw [hrow]
    exact ⟨rfl, iff_of_true rfl hrejected, iff_of_false hstatus fun h => h.1 hrejected,
      fun h => absurd hrejected h, fun h => absurd hrejected h⟩
  · have hrow : verdictRow machine r testCases out =
        ⟨columnStatus (verdict (caseRuns machine r testCases)), out,
          Json.toInt32 (totalTimeMs (caseRuns machine r testCases)),
          Json.toInt32 (peakMemoryKb (caseRuns machine r testCases))⟩ := if_neg hrejected
    rw [hrow]
    have hcolumn := columnStatus_spec (verdict (caseRuns machine r testCases))
    refine ⟨hcolumn.2, iff_of_false hcolumn.1 hrejected, ?_, fun _ hne => ?_, fun _ => rfl⟩
    · rw [columnStatus_eq_accepted, ← accepted_iff_passes, and_iff_right hrejected]
      rcases verdict_cases (caseRuns machine r testCases) with
        ⟨hall, hruns⟩ | ⟨hsome, run, hrun, hstatus⟩
      · exact iff_of_true hall hruns
      · exact iff_of_false hsome fun hruns => hsome (hstatus ▸ hruns run hrun)
    · rw [Ne, columnStatus_eq_accepted] at hne
      rcases verdict_cases (caseRuns machine r testCases) with ⟨hall, -⟩ | ⟨-, run, hrun, hstatus⟩
      · exact absurd hall hne
      · rw [← hstatus] at hne ⊢
        obtain ⟨k, tc, htc, hcase, hpasses⟩ := exists_case_of_mem hrun
        refine ⟨k, tc, htc, fun hpassed => hne (hpasses.mpr hpassed),
          congrArg columnStatus hcase, ?_⟩
        rw [columnStatus_eq_wrongAnswer, hcase]
        exact caseStatus_eq_wrongAnswer (hcase ▸ hne)

end

/-! ## 2. What a request asks for

A task is what the database has answered, and the job for it is a document.  A worker reads the
document, and gets back what was put into it. -/

/-- What a submission is to be judged on, all of it from the request and the answers of the
database. -/
structure JudgeTask where
  id : Int64
  sourceCode : Bytes
  problem : Db.Problem
  language : Db.Language
  testCases : List Db.TestCase

namespace JudgeTask

/-- The job for it. -/
def payload (t : JudgeTask) : Json := payloadOf t.id t.sourceCode t.problem t.language t.testCases

/-- What a worker reads of that. -/
def request (t : JudgeTask) (machine : Machine) : JudgeRequest :=
  payloadRequest machine ⟨t.id.toInt, t.sourceCode⟩
    ⟨t.problem.timeLimitMs.toInt, t.problem.memoryLimitKb.toInt⟩
    ⟨t.language.extension, t.language.compileCmd, t.language.runCmd⟩

/-- The test cases that it reads. -/
def cases (t : JudgeTask) : List Judge.TestCase :=
  t.testCases.map fun tc => ⟨tc.id.toInt, tc.input, tc.output⟩

/-- This is what the draft asks for, by what the database has answered: its own source, the problem
and the language that were found under its ids, and the test cases of its mode, of which there are
some. -/
structure Of (t : JudgeTask) (answers : SubmitAnswers) (d : Draft) : Prop where
  sourceCode : t.sourceCode = d.sourceCode
  problem : answers.problem d.problemId = .ok (some t.problem)
  language : answers.language d.language = .ok (some t.language)
  enabled : t.language.enabled = true
  testCases : ∃ scope, answers.casesOf d = .ok (t.testCases, scope)
  ne : t.testCases ≠ []

end JudgeTask

theorem toJson_injective : Function.Injective Judge.TestCase.toJson := by
  rintro ⟨id, input, output⟩ ⟨id', input', output'⟩ h
  simp only [Judge.TestCase.toJson, Json.obj.injEq, List.cons.injEq, Prod.mk.injEq, Json.str.injEq,
    Json.int.injEq, true_and, and_true] at h
  obtain ⟨rfl, rfl, rfl⟩ := h
  rfl

/-- **A dispatch of the job is one of the task**: what a worker reads is a matter of the payload. -/
theorem request_of_payload {codec : Json.Codec} {t : JudgeTask} (d : Dispatch codec)
    (h : d.job.payload = t.payload) (machine : Machine) :
    d.request machine = t.request machine ∧ d.testCases = t.cases := by
  have hpayload : buildJudgePayload d.submission d.problem d.language d.testCases = t.payload :=
    d.payload_eq.symm.trans h
  constructor
  · have hread : Except.ok (d.request machine) = Except.ok (t.request machine) :=
      congrArg (readRequest machine) hpayload
    exact Except.ok.inj hread
  · have hcases : some (d.testCases.map Judge.TestCase.toJson) =
        some (t.cases.map Judge.TestCase.toJson) :=
      congrArg (fun v : Json => (v.find? (ascii "test_cases")).bind Json.items?) hpayload
    exact List.map_injective_iff.mpr toJson_injective (Option.some.inj hcases)

/-! ## 3. Its way

The job may be sent to several workers, one after another, and any of the attempts may fail
anywhere.  The first that hands something on decides, and by then nothing of the job has changed. -/

/-- The way of a job: its attempts, each with its worker and what happens on the wire. -/
structure Delivery (codec : Json.Codec) (job : JudgeJob) where
  attempts : Nat → Option (WireAttempt codec job)
  text : Bytes
  text_eq : codec.dump job.payload = some text
  length_lt : text.length < 2 ^ 63
  onWire : ∀ k a, attempts k = some a → a.OnWire text
  readsBack : ∀ k a, attempts k = some a → codec.ReadsBack a.report

/-- What `worker_thread` leaves of the row: it is as it was, or no attempt has handed anything on,
or it is judged by the machine of the first attempt that has; and this is so if all of that
attempt's response has arrived. -/
structure Leaves {codec : Json.Codec} {job : JudgeJob} (way : Delivery codec job) (t : JudgeTask)
    (validJson : Bytes → Bool) (retryCount : Nat) (replies : Nat → Option Bytes)
    (row row' : SubmissionRow) : Prop where
  left : row' = row ∨ (row'.status = .systemError ∧ ∀ k < retryCount, replies k = none) ∨
    ∃ k < retryCount, (∀ j < k, replies j = none) ∧ replies k ≠ none ∧
      ∃ a, way.attempts k = some a ∧ JudgedBy a.machine (t.request a.machine) t.cases row'
  judged : ∀ k < retryCount, ∀ a, way.attempts k = some a → (∀ j < k, replies j = none) →
    Printable a.machine (t.request a.machine) t.cases → a.received = some (a.response way.text) →
      (∀ out, codec.dump a.report = some out → validJson out = true) →
        JudgedBy a.machine (t.request a.machine) t.cases row'

/-- **A job for a task is judged as the task says.** -/
theorem exists_leaves {codec : Json.Codec} {st : Json.Style} (hdump : codec.DumpsUtf8)
    (hst : st.Separates) (hprints : codec.Prints st) {t : JudgeTask} {job : JudgeJob}
    (hpayload : job.payload = t.payload) (way : Delivery codec job) {validJson : Bytes → Bool}
    (hcomplete : ∀ out, validJson out = true → Json.Complete out) (retryCount : Int)
    {rows : Submissions} {row : SubmissionRow} (hrow : rows job.submissionId = some row) :
    ∃ replies : Nat → Option Bytes,
      (∀ k, ∃ calls, runAttempt (way.attempts k) = .ok (calls, replies k)) ∧
      ∃ row', settle codec validJson job (executeJob true retryCount replies) rows
          job.submissionId = some row' ∧
        Leaves way t validJson retryCount.toNat replies row row' := by
  obtain ⟨replies, hreplies⟩ := exists_replies way.attempts way.text_eq
  have htask : ∀ a : WireAttempt codec job, a.dispatch.request a.machine = t.request a.machine ∧
      a.dispatch.testCases = t.cases := by
    intro a
    refine request_of_payload a.dispatch ?_ a.machine
    rw [a.job_eq, hpayload]
  have hjudged : ∀ (a : WireAttempt codec job) out,
      JudgedBy a.machine (t.request a.machine) t.cases (a.verdictRow out) := by
    intro a out
    rw [← (htask a).1, ← (htask a).2]
    exact judgedBy_verdictRow _ _ _ out
  obtain ⟨row', hrow', hsettled⟩ := exists_settled hdump hst hprints way.text_eq way.length_lt
    way.onWire way.readsBack hcomplete (fun k => (hreplies k).2) retryCount hrow
  refine ⟨replies, fun k => (hreplies k).1, row', hrow', ?_, ?_⟩
  · cases hsettled with
    | kept => exact .inl rfl
    | gaveUp hall out hout => exact .inr (.inl ⟨rfl, hall⟩)
    | judged k hk hfirst a ha out hreply hout =>
      exact .inr (.inr ⟨k, hk, hfirst, hreply ▸ Option.some_ne_none out, a, ha, hjudged a out⟩)
  · intro k hk a ha hfirst hprintable hreceived hvalid
    rw [← (htask a).1, ← (htask a).2] at hprintable
    obtain ⟨out, -, hout⟩ := exists_verdict hdump way.text_eq (fun k => (hreplies k).2) hrow hk ha
      hfirst hprintable hreceived (way.readsBack k a ha) hvalid
    obtain rfl : a.verdictRow out = row' := Option.some.inj (hout.symm.trans hrow')
    exact hjudged a out

/-- The answer is 201 only if the queue has taken the job. -/
theorem taken_of_created {answers : SubmitAnswers} {draft : Option Draft} {statu : Int}
    {calls : List SubmitCall} (h : Handled answers draft statu calls) (h201 : statu = 201) :
    ∃ d s id payload, draft = some d ∧ Offered answers d s id payload ∧
      calls = [.create s id, .submit id payload true] := by
  cases h with
  | away statu h => exact absurd h201 h.1
  | taken d s id payload hd hoffered => exact ⟨d, s, id, payload, hd, hoffered, rfl⟩
  | takenUnprinted => cases h201
  | refused d s id payload text statu result hd hoffered hstatu => omega

/-- **A request that is answered with 201 is judged by what it has asked for.**  It has stored one
submission and handed one job to the judge; and however that job fares, through any attempts on any
network, the row of the submission is left alone, or given up because no attempt has handed anything
on, or judged by the source code of the request, on the test cases of its mode, under the limits of
its problem and with the command of its language. -/
theorem judged_as_handed_in {env : Env} {st : Json.Style} (hdump : env.codec.DumpsUtf8)
    (hst : st.Separates) (hprints : env.codec.Prints st) {answers : SubmitAnswers}
    {req : HttpRequest} {captures : List Bytes} {w : World (List SubmitCall)} (hw : w.db = [])
    (h201 : ((postSubmissionsOver env answers.traced req captures).run w).2.response.statu = 201) :
    ∃ d s t, asked env req = some d ∧ (∃ resultJson, s = d.submission resultJson) ∧
      answers.create s = .ok t.id ∧ JudgeTask.Of t answers d ∧
      ((postSubmissionsOver env answers.traced req captures).run w).2.db =
        [.create s t.id, .submit t.id t.payload true] ∧
      ∀ job : JudgeJob, job.submissionId = t.id.toInt → job.payload = t.payload →
        ∀ (way : Delivery env.codec job) (validJson : Bytes → Bool),
          (∀ out, validJson out = true → Json.Complete out) →
          ∀ (retryCount : Int) (rows : Submissions) (row : SubmissionRow),
            rows t.id.toInt = some row →
            ∃ replies : Nat → Option Bytes,
              (∀ k, ∃ calls, runAttempt (way.attempts k) = .ok (calls, replies k)) ∧
              ∃ row', settle env.codec validJson job (executeJob true retryCount replies) rows
                  t.id.toInt = some row' ∧
                Leaves way t validJson retryCount.toNat replies row row' := by
  obtain ⟨d, s, id, payload, hd, hoffered, hcalls⟩ :=
    taken_of_created (handled_postSubmissions hdump answers req captures hw) h201
  obtain ⟨problem, language, testCases, scope, hproblem, hlanguage, henabled, hcases, hne, rfl⟩ :=
    hoffered.payload
  let t : JudgeTask := ⟨id, d.sourceCode, problem, language, testCases⟩
  refine ⟨d, s, t, hd, hoffered.asked, hoffered.created,
    ⟨rfl, hproblem, hlanguage, henabled, ⟨scope, hcases⟩, hne⟩, hcalls, ?_⟩
  intro job hid hpayload way validJson hcomplete retryCount rows row hrow
  rw [← hid] at hrow ⊢
  exact exists_leaves hdump hst hprints hpayload way hcomplete retryCount hrow

/-- A site whose JSON library reads what it prints. -/
def plainEnv : Env := { sampleEnv with codec := plainCodec }

/-- The job arrives at a worker where the program writes `ok`, and the report comes back. -/
def handedWay : Delivery plainCodec sampleDispatch.job where
  attempts _ := some plainAttempt
  text := plainText
  text_eq := rfl
  length_lt := length_plainText.2
  onWire _ _ ha := Option.some.inj ha ▸ plainAttempt_onWire
  readsBack _ _ ha := Option.some.inj ha ▸
    Json.standard_readsBack (Json.separates_compact _) plainAttempt_report.1

theorem parse_handedRequest : plainEnv.codec.parse handedRequest.body = .ok handedIn := by
  have hreads : plainEnv.codec.ReadsBack handedIn :=
    Json.standard_readsBack (Json.separates_compact _) rfl
  exact (hreads handedRequest.body rfl).2

theorem judged_as_handed_in_accepted : ∃ (replies : Nat → Option Bytes) (row : SubmissionRow),
    settle plainCodec (fun text => decide (Json.Complete text)) sampleDispatch.job
      (executeJob true 3 replies) (fun _ => some ⟨.pending, [], 0, 0⟩) 7 = some row ∧
    row.status = .accepted := by
  have h201 : ((postSubmissionsOver plainEnv handedAnswers.traced handedRequest []).run
      ⟨.ofStatu 200, 0, []⟩).2.response.statu = 201 := by decide +kernel
  obtain ⟨d, s, t, hd, -, hid, hof, -, hjudged⟩ := @judged_as_handed_in plainEnv
    (.compact fun _ => []) (Json.standard_dumpsUtf8 _) (Json.separates_compact _)
    (Json.printing_prints _ _) handedAnswers handedRequest [] ⟨.ofStatu 200, 0, []⟩ rfl h201
  rw [asked, parse_handedRequest] at hd
  obtain rfl : ⟨ascii "int main(){}", 1, 1, 1, .submit⟩ = d := Option.some.inj hd
  obtain ⟨id, sourceCode, problem, language, testCases⟩ := t
  obtain rfl : 7 = id := Except.ok.inj hid
  obtain rfl : sourceCode = _ := hof.sourceCode
  obtain rfl := Option.some.inj (Except.ok.inj hof.problem)
  obtain rfl := Option.some.inj (Except.ok.inj hof.language)
  obtain ⟨scope, hcases⟩ := hof.testCases
  obtain ⟨rfl, -⟩ := Prod.mk.inj (Except.ok.inj hcases)
  obtain ⟨replies, -, row, hsettle, hleaves⟩ := hjudged sampleDispatch.job rfl rfl handedWay
    (fun text => decide (Json.Complete text)) (fun out => of_decide_eq_true) 3
    (fun _ => some ⟨.pending, [], 0, 0⟩) ⟨.pending, [], 0, 0⟩ rfl
  have hrow := hleaves.judged 0 (by decide) plainAttempt rfl
    (fun j hj => absurd hj (Nat.not_lt_zero j)) plainAttempt_printable rfl
    fun out hout => decide_eq_true (plainAttempt_report.2 out hout)
  refine ⟨replies, row, hsettle, hrow.accepted.mpr ⟨fun hrejected => hrejected rfl, ?_⟩⟩
  intro k tc htc
  obtain rfl := List.mem_singleton.mp (List.mem_of_getElem? htc)
  exact ⟨rfl, rfl⟩

end OnlineJudge.Handler
