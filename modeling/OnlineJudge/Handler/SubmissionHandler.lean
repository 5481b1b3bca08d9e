/-
# Reading a submission back

`GET /api/submissions/{id}` (`submission_handler.cpp`) answers with what `GetById` returns; the
stored result goes into the answer as text and, parsed, as the member `result`.

A result takes this way: `ExecuteJudgeRequest` prints it, `worker_thread` stores it with
`UpdateResult`, MySQL keeps the document, `GetById` selects it, and the handler parses it.  MySQL is
a `JsonColumn`.

* `stored_result`: a result is always stored.
* `result_readable_iff`: it can be read back exactly if MySQL prints it in 262144 bytes or fewer,
  which is a matter of `resultSize`.

The size is computed before anything is printed, from the lengths of the texts in the result.  A
result holds the expected output and a part of the actual output of every test case, so a correct
program on a few large test cases is enough to make it too long.
-/
import OnlineJudge.Db.SubmissionReads
import OnlineJudge.Handler.HandlerBase
import OnlineJudge.Judge.ResultSize
import OnlineJudge.Judge.WorkerServer

namespace OnlineJudge.Handler

open ByteString Db Net Judge

/-! ## 1. The handler

The submission is read, and the result that is stored with it is parsed on the way out.  A text that
cannot be parsed is left as text. -/

section

variable {σ : Type} (env : Env) (dao : Dao σ)

/-- `SubmissionToResponse`.  A result that cannot be parsed is left out as a member, and stays as
text. -/
def submissionToResponse (s : Db.Submission) : Json :=
  submissionJson s (if s.resultJson = [] then none else (env.codec.parse s.resultJson).toOption)

/-- `GET /api/submissions/{id}`. -/
def getSubmission : RouteHandler σ := fun _ captures => guardJsonHandler env do
  match capturedId captures with
  | none => sendJsonError env 400 "invalid submission id" []
  | some id =>
    match ← dao.call (.submissionGetById id) with
    | none => sendJsonError env 404 "submission not found" []
    | some s => sendJson env 200 (submissionToResponse env s)

end

/-- A DAO layer that reads a submission with `GetById`. -/
def submissionDao (selectJson : Bytes → Bytes) (others : Dao SubmissionTable) :
    Dao SubmissionTable where
  perform k op table :=
    match op with
    | .submissionGetById id => (SubmissionDao.getById selectJson table id, table)
    | op => others.perform k op table

section

variable {σ : Type} {env : Env} {dao : Dao σ} {captures : List Bytes} {id : Int64} {w : World σ}

/-- A submission that is found is sent. -/
theorem getSubmission_of_found (hid : capturedId captures = some id) {s : Db.Submission}
    (hfound : ((dao.perform w.calls (.submissionGetById id)).run w.db).1 = .ok (some s))
    {text : Bytes} (htext : env.codec.dump (submissionToResponse env s) = some text)
    (req : HttpRequest) :
    ((getSubmission env dao req captures).run w).2.response =
      { w.response with statu := 200 }.setContent text (ascii "application/json") := by
  have hcall := run_call dao (.submissionGetById id) w
  rw [hfound] at hcall
  rw [getSubmission, hid, guardJsonHandler,
    Program.run_tryCatch_ok ((Program.run_bind_ok hcall _).trans (run_sendJson env htext 200 _))]
  rfl

theorem getSubmission_of_error (hid : capturedId captures = some id) {e : Raised}
    (hfound : ((dao.perform w.calls (.submissionGetById id)).run w.db).1 = .error e)
    (req : HttpRequest) : ((getSubmission env dao req captures).run w).2.response.statu = 500 := by
  have hcall := run_call dao (.submissionGetById id) w
  rw [hfound] at hcall
  rw [getSubmission, hid, guardJsonHandler,
    Program.run_tryCatch_error (Program.run_bind_error hcall _)]
  exact (sendJson_spec env 500 _ _).1

end

/-! ## 2. A result is stored

What is stored is not looked at again by the program before it is read, so that it is too long is
noticed by the reader. -/

/-- The `JSON` column: which texts it accepts, what is selected of them, and how MySQL prints a
fraction. -/
structure JsonColumn where
  valid : Bytes → Bool
  select : Bytes → Bytes
  float : Rat → Bytes

/-- MySQL keeps this document.  Its text is accepted; what is selected is a text of the same
document, with a blank behind each comma and each colon. -/
structure JsonColumn.Keeps (column : JsonColumn) (codec : Json.Codec) (doc : Json) : Prop where
  valid : ∀ text, codec.dump doc = some text → column.valid text = true
  parse : ∀ text, codec.dump doc = some text → codec.parse (column.select text) = .ok doc
  utf8 : ∀ text, codec.dump doc = some text → Utf8.wellFormed (column.select text) = true
  length : ∀ text, codec.dump doc = some text →
    (column.select text).length = (doc.print (.spaced column.float)).length

/-- The value of the status column for a verdict. -/
def columnStatus : CaseStatus → SubmissionStatus
  | .wrongAnswer => .wrongAnswer
  | .run .accepted => .accepted
  | .run .timeLimitExceeded => .timeLimitExceeded
  | .run .memoryLimitExceeded => .memoryLimitExceeded
  | .run .runtimeError => .runtimeError
  | .run .systemError => .systemError

theorem text_columnStatus (status : CaseStatus) : (columnStatus status).text = status.text := by
  cases status with
  | wrongAnswer => rfl
  | run status => cases status <;> rfl

/-- The status in a result is a value of the column. -/
theorem exists_status_judgeDoc (machine : Machine) (r : JudgeRequest)
    (testCases : List Judge.TestCase) (fallback : Bytes) :
    ∃ status : SubmissionStatus,
      (judgeDoc machine r testCases).valueStr (ascii "status") fallback = .ok status.text := by
  unfold judgeDoc
  split
  · exact ⟨.compileError, rfl⟩
  · exact ⟨columnStatus (tally machine r testCases).status, by rw [text_columnStatus]; rfl⟩

/-- The table once `worker_thread` is done with the result. -/
def judgedTable (codec : Json.Codec) (column : JsonColumn) (job : JudgeJob) (out : Bytes)
    (table : SubmissionTable) : SubmissionTable :=
  { table with judged := settle codec column.valid job (some out) table.judged }

/-- **A result is stored.**  The row of the submission gets the text that `ExecuteJudgeRequest` has
printed. -/
theorem stored_result {codec : Json.Codec} {machine : Machine} {r : JudgeRequest}
    {testCases : List Judge.TestCase} {out : Bytes}
    (hout : codec.dump (judgeDoc machine r testCases) = some out)
    (hread : codec.ReadsBack (judgeDoc machine r testCases)) {column : JsonColumn}
    (hvalid : column.valid out = true) {job : JudgeJob} {table : SubmissionTable} {id : Int64}
    (hjob : job.submissionId = id.toInt) {row : SubmissionRow}
    (hrow : table.judged id.toInt = some row) :
    ∃ row', (judgedTable codec column job out table).judged id.toInt = some row' ∧
      row'.resultJson = out := by
  obtain ⟨status, hstatus⟩ := exists_status_judgeDoc machine r testCases (ascii "system_error")
  have hverdict : (readVerdict codec out).1 = status.text :=
    readVerdict_of_status (hread out hout).2 hstatus
  obtain ⟨timeMs, memoryKb, hcall⟩ : ∃ timeMs memoryKb, processJob codec job (some out) =
      some [⟨job.submissionId, status.text, out, timeMs, memoryKb⟩] :=
    ⟨_, _, by rw [← hverdict]; rfl⟩
  rw [← hjob] at hrow ⊢
  have hself : afterUpdate column.valid table.judged
      ⟨job.submissionId, status.text, out, timeMs, memoryKb⟩ job.submissionId = _ :=
    afterUpdate_self hrow
  rw [SubmissionStatus.ofText_text] at hself
  dsimp only at hself
  rw [if_pos hvalid] at hself
  rw [judgedTable, settle_eq hcall]
  exact ⟨_, hself, rfl⟩

/-! ## 3. And read back

Storing and reading are followed through the column, in both directions: a result that fits is
returned, and one that does not makes the read fail, whoever asks for it. -/

/-- `GetById` returns the submission with this result, equal as JSON.  Equal as text it need not be:
MySQL prints what it has parsed. -/
def ReadBack (codec : Json.Codec) (column : JsonColumn) (table : SubmissionTable) (id : Int64)
    (out : Bytes) : Prop :=
  ∃ doc s, codec.parse out = .ok doc ∧
    SubmissionDao.getById column.select table id = .ok (some s) ∧
    codec.parse s.resultJson = .ok doc

/-- The handler answers 200 with a document whose member `result` is this result. -/
def Served (env : Env) (dao : Dao SubmissionTable) (req : HttpRequest) (captures : List Bytes)
    (table : SubmissionTable) (out : Bytes) : Prop :=
  ∃ doc body text, env.codec.parse out = .ok doc ∧ body.find? (ascii "result") = some doc ∧
    env.codec.dump body = some text ∧
    ((getSubmission env dao req captures).run ⟨.ofStatu 200, 0, table⟩).2.response =
      (HttpResponse.ofStatu 200).setContent text (ascii "application/json")

theorem submissionJson_utf8 {s : Db.Submission} {doc : Json}
    (hsource : Utf8.wellFormed s.sourceCode = true) (hmode : Utf8.wellFormed s.mode = true)
    (hstatus : Utf8.wellFormed s.status = true) (hresult : Utf8.wellFormed s.resultJson = true)
    (hcreated : Utf8.wellFormed s.createdAt = true) (hdoc : doc.utf8 = true) :
    (submissionJson s (some doc)).utf8 = true := by
  have hnames : ∀ name ∈ [ascii "created_at", ascii "id", ascii "language_id", ascii "memory_kb",
      ascii "mode", ascii "problem_id", ascii "result", ascii "result_json", ascii "source_code",
      ascii "status", ascii "time_ms", ascii "user_id"], Utf8.wellFormed name = true := by decide
  simp only [List.forall_mem_cons] at hnames
  simp [submissionJson, Json.utf8, Json.utf8Members, hnames, hsource, hmode, hstatus, hresult,
    hcreated, hdoc]

theorem wellFormed_nullable {α : Type} {text : α → Bytes} {v : Option α}
    (h : ∀ a ∈ v, Utf8.wellFormed (text a) = true) : Utf8.wellFormed (nullable text v) = true := by
  cases v with
  | none => rfl
  | some a => exact h a rfl

theorem wellFormed_mode (mode : SubmissionMode) : Utf8.wellFormed mode.text = true := by
  cases mode <;> decide

theorem wellFormed_status (status : SubmissionStatus) : Utf8.wellFormed status.text = true := by
  cases status <;> decide

/-- Where `GetById` raises, the answer is 500. -/
theorem getSubmission_of_getById (env : Env) {selectJson : Bytes → Bytes}
    {table : SubmissionTable} {id : Int64} {captures : List Bytes} {e : Raised}
    (hid : capturedId captures = some id)
    (hget : SubmissionDao.getById selectJson table id = .error e) (others : Dao SubmissionTable)
    (req : HttpRequest) :
    ((getSubmission env (submissionDao selectJson others) req captures).run
      ⟨.ofStatu 200, 0, table⟩).2.response.statu = 500 := by
  have hfound :
      (((submissionDao selectJson others).perform 0 (.submissionGetById id)).run table).1 =
        .error e := hget
  exact getSubmission_of_error hid hfound req

section

variable {env : Env} {column : JsonColumn} {table : SubmissionTable} {id : Int64}
  {row : SubmissionRow} {doc : Json}

/-- `GetById` returns a stored result if what is selected fits. -/
theorem readBack_iff {codec : Json.Codec} (hkeeps : column.Keeps codec doc)
    (hout : codec.dump doc = some row.resultJson) (hread : codec.ReadsBack doc)
    (hrow : table.judged id.toInt = some row) :
    ReadBack codec column table id row.resultJson ↔
      (doc.print (.spaced column.float)).length ≤ SubmissionDao.resultJsonBuffer := by
  rw [← hkeeps.length _ hout]
  constructor
  · rintro ⟨_, s, -, hget, -⟩
    exact ((SubmissionDao.getById_eq_ok_iff hrow s).mp hget).2
  · intro hfits
    exact ⟨doc, _, (hread _ hout).2,
      (SubmissionDao.getById_eq_ok_iff hrow _).mpr ⟨rfl, hfits⟩, hkeeps.parse _ hout⟩

/-- The handler serves a stored result if `GetById` returns it. -/
theorem served_iff (hdump : env.codec.DumpsUtf8) (hkeeps : column.Keeps env.codec doc)
    (hout : env.codec.dump doc = some row.resultJson) (hread : env.codec.ReadsBack doc)
    (hdoc : 0 < (doc.print (.spaced column.float)).length)
    (hrow : table.judged id.toInt = some row) (others : Dao SubmissionTable) (req : HttpRequest)
    {captures : List Bytes} (hid : capturedId captures = some id) :
    Served env (submissionDao column.select others) req captures table row.resultJson ↔
      (doc.print (.spaced column.float)).length ≤ SubmissionDao.resultJsonBuffer := by
  rw [← hkeeps.length _ hout] at hdoc ⊢
  constructor
  · rintro ⟨_, _, _, -, -, -, hrsp⟩
    by_contra hlong
    have h500 := getSubmission_of_getById env hid
      (SubmissionDao.getById_of_long hrow (Nat.lt_of_not_le hlong)) others req
    rw [hrsp] at h500
    cases h500
  · intro hfits
    have hfound : (((submissionDao column.select others).perform 0 (.submissionGetById id)).run
        table).1 = .ok (some (row.record column.select id (table.columns id.toInt))) :=
      (SubmissionDao.getById_eq_ok_iff hrow _).mpr ⟨rfl, hfits⟩
    have hbody : submissionToResponse env (row.record column.select id (table.columns id.toInt)) =
        submissionJson (row.record column.select id (table.columns id.toInt)) (some doc) := by
      have hparse := hkeeps.parse _ hout
      rw [submissionToResponse, SubmissionRow.record, if_neg (List.ne_nil_of_length_pos hdoc),
        hparse]
      rfl
    have hutf8 := submissionJson_utf8 (s := row.record column.select id (table.columns id.toInt))
      (table.columns id.toInt).sourceCode.utf8
      (wellFormed_nullable fun mode _ => wellFormed_mode mode) (wellFormed_status row.status)
      (hkeeps.utf8 _ hout) (wellFormed_nullable (table.columns id.toInt).createdAt_utf8)
      ((hdump doc).symm.trans (by rw [hout]; rfl))
    obtain ⟨text, htext⟩ := hdump.exists_dump hutf8
    refine ⟨doc, _, text, (hread _ hout).2, rfl, htext, ?_⟩
    rw [← hbody] at htext
    exact getSubmission_of_found hid hfound htext req

end

/-- **When a result can be read back.**  Take a submission whose row is there, and the result that
`ExecuteJudgeRequest` has produced for its payload.  Once it is stored, `GetById` returns it and
`GET /api/submissions/{id}` serves it, equal as JSON, exactly if its size is at most 262144. -/
theorem result_readable_iff (env : Env) (hdump : env.codec.DumpsUtf8) (d : Dispatch env.codec)
    (machine : Machine) {text out : Bytes} (htext : env.codec.dump d.job.payload = some text)
    (hexecute : executeJudgeRequest env.codec machine text = .ok out)
    (hread : env.codec.ReadsBack (judgeDoc machine (d.request machine) d.testCases))
    (column : JsonColumn)
    (hkeeps : column.Keeps env.codec (judgeDoc machine (d.request machine) d.testCases))
    (table : SubmissionTable) {id : Int64} (hjob : d.job.submissionId = id.toInt)
    {row : SubmissionRow} (hrow : table.judged id.toInt = some row) (others : Dao SubmissionTable)
    (req : HttpRequest) {captures : List Bytes} (hid : capturedId captures = some id) :
    let after := judgedTable env.codec column d.job out table
    ReadBack env.codec column after id out ∧
        Served env (submissionDao column.select others) req captures after out ↔
      resultSize machine (d.request machine) d.testCases ≤ 262144 := by
  intro after
  obtain ⟨text', htext', hprint⟩ := d.exists_text machine hdump
  obtain rfl : text' = text := Option.some.inj (htext'.symm.trans htext)
  have hout : env.codec.dump (judgeDoc machine (d.request machine) d.testCases) = some out :=
    dumpDoc_eq_ok.mp (hprint.symm.trans hexecute)
  obtain ⟨row', hafter, hresult⟩ := stored_result hout hread (hkeeps.valid _ hout) hjob hrow
  obtain rfl := hresult
  have hsize := length_print_judgeDoc column.float machine (d.request machine) d.testCases
  have hpos := resultSize_pos machine (d.request machine) d.testCases
  rw [readBack_iff hkeeps hout hread hafter,
    served_iff hdump hkeeps hout hread (by rw [hsize]; exact hpos) hafter others req hid,
    and_self, hsize]
  rfl

/-! ## 4. Three test cases

One payload, with an output that is a parameter: short, the result is read back, and long, it is
not. -/

section

variable (output : Bytes)

/-- Three test cases that expect `output`. -/
def echoCases : List Judge.TestCase := [⟨1, [], output⟩, ⟨2, [], output⟩, ⟨3, [], output⟩]

/-- The payload of submission 7 with these test cases. -/
def echoPayload : Json :=
  buildJudgePayload ⟨7, ascii "int main(){}"⟩ ⟨1000, 262144⟩
    ⟨ascii "cpp", ascii "g++ {source} -o {output}", ascii "{binary}"⟩ (echoCases output)

/-- What a worker makes of it. -/
def echoRequest : JudgeRequest :=
  payloadRequest (sampleMachine output) ⟨7, ascii "int main(){}"⟩ ⟨1000, 262144⟩
    ⟨ascii "cpp", ascii "g++ {source} -o {output}", ascii "{binary}"⟩

/-- The result if the program writes `output`. -/
def echoDoc : Json := judgeDoc (sampleMachine output) (echoRequest output) (echoCases output)

/-- The result, as `dump()` prints it and as MySQL does. -/
def echoTexts : Bytes × Bytes :=
  ((echoDoc output).print (.compact fun _ => []), (echoDoc output).print (.spaced fun _ => []))

/-- A codec that knows the payload and the result. -/
def echoCodec : Json.Codec :=
  Json.printing (.compact fun _ => []) fun text =>
    if text = (echoPayload output).print (.compact fun _ => []) then .ok (echoPayload output)
    else if text = (echoTexts output).1 ∨ text = (echoTexts output).2 then .ok (echoDoc output)
    else .error (ascii "parse error")

/-- A column that prints the result with blanks. -/
def echoColumn : JsonColumn where
  valid text := decide (text = (echoTexts output).1)
  select text := if text = (echoTexts output).1 then (echoTexts output).2 else text
  float _ := []

/-- An environment with this codec. -/
def echoEnv : Env where
  codec := echoCodec output
  openSsl := Auth.sampleOpenSsl
  jwtSecret := ascii "secret"
  now := Auth.sampleInstant
  libraryText _ := ascii "exception"

theorem echoPayload_ne (st st' : Json.Style) :
    (echoDoc output).print st ≠ (echoPayload output).print st' := by
  have hdoc : Json.quote (ascii "compile_error") = ascii "\"compile_error\"" := by decide
  have hpayload : Json.quote (ascii "compile_cmd") = ascii "\"compile_cmd\"" := by decide
  obtain ⟨rest, hrest⟩ : ∃ rest, (echoDoc output).print st =
      123 :: (Json.quote (ascii "compile_error") ++ rest) := Json.exists_print_obj ..
  obtain ⟨rest', hrest'⟩ : ∃ rest', (echoPayload output).print st' =
      123 :: (Json.quote (ascii "compile_cmd") ++ rest') := Json.exists_print_obj ..
  rw [hrest, hrest', hdoc, hpayload]
  intro heq
  have hchar : (some 101 : Option UInt8) = some 99 := congrArg (fun s : Bytes => s[10]?) heq
  exact absurd hchar (by decide)

theorem echoCodec_parse_payload : (echoCodec output).parse
    ((echoPayload output).print (.compact fun _ => [])) = .ok (echoPayload output) := by
  simp only [echoCodec, Json.printing, if_true]

theorem echoCodec_parse_doc {text : Bytes}
    (h : text = (echoTexts output).1 ∨ text = (echoTexts output).2) :
    (echoCodec output).parse text = .ok (echoDoc output) := by
  have hne : text ≠ (echoPayload output).print (.compact fun _ => []) := by
    rcases h with rfl | rfl
    · exact echoPayload_ne output _ _
    · exact echoPayload_ne output _ _
  simp only [echoCodec, Json.printing, if_neg hne, if_pos h]

variable {output}

/-- An output that is short and plain: it is not cut, and none of its bytes is escaped, so that the
report has it byte by byte. -/
structure Plain (output : Bytes) : Prop where
  utf8 : Utf8.wellFormed output = true
  short : output.length ≤ maxActualOutput
  escaped : Json.escapedLength output = output.length

theorem Plain.actualOutput (h : Plain output) : actualOutput output = output :=
  List.take_of_length_le h.short

theorem Plain.payload_utf8 (h : Plain output) : (echoPayload output).utf8 = true := by
  have hnames : ∀ name ∈ [ascii "compile_cmd", ascii "language", ascii "memory_limit_kb",
      ascii "run_cmd", ascii "source_code", ascii "test_cases", ascii "time_limit_ms",
      ascii "work_dir", ascii "expected_output", ascii "id", ascii "input",
      ascii "g++ {source} -o {output}", ascii "cpp", ascii "{binary}", ascii "int main(){}",
      ascii "./run/judge_" ++ decimalInt 7, []], Utf8.wellFormed name = true := by decide
  simp only [List.forall_mem_cons] at hnames
  have hext : ascii "cpp" ≠ [] := by decide
  simp [echoPayload, echoCases, buildJudgePayload, TestCase.toJson, Json.utf8, Json.utf8Members,
    Json.utf8Items, hnames, h.utf8, hext]

theorem Plain.doc_utf8 (h : Plain output) : (echoDoc output).utf8 = true := by
  have hexpected : ∀ tc ∈ echoCases output, Utf8.wellFormed tc.output = true := by
    intro tc htc
    simp only [echoCases, List.mem_cons, List.not_mem_nil, or_false] at htc
    rcases htc with rfl | rfl | rfl <;> exact h.utf8
  refine (judgeDoc_utf8_iff _ _ _ hexpected).mpr fun k tc _ => ⟨?_, fun hne => absurd rfl hne⟩
  rw [sampleMachine, h.actualOutput]
  exact h.utf8

/-- The run of one of them. -/
def echoRun (output : Bytes) (id : Int) : CaseRun := ⟨id, output, ⟨.accepted, 5, 3000, []⟩, output⟩

theorem Plain.status_echoRun (h : Plain output) (id : Int) :
    (echoRun output id).status = .run .accepted := by
  rw [CaseRun.status, caseStatus, echoRun, h.actualOutput, if_pos rfl, if_pos rfl]

theorem Plain.size_echoRun (h : Plain output) (id : Int) :
    (echoRun output id).size = 117 + digits id + 2 * output.length := by
  have hmemory : digits 3000 = 4 := by decide
  have htime : digits 5 = 1 := by decide
  have haccepted : (CaseStatus.run .accepted).text.length = 8 := rfl
  rw [CaseRun.size, h.status_echoRun, echoRun]
  dsimp only
  rw [h.actualOutput, h.escaped, if_neg (Nat.not_lt.mpr h.short), if_pos rfl, hmemory, htime,
    haccepted]
  omega

theorem Plain.resultSize (h : Plain output) :
    resultSize (sampleMachine output) (echoRequest output) (echoCases output) =
      501 + 6 * output.length := by
  have hcompile : ¬ runShellCommand ((sampleMachine output).system
      (echoRequest output).compileCommand (echoRequest output).sourceCode) ≠ 0 := not_not.mpr rfl
  have hruns : caseRuns (sampleMachine output) (echoRequest output) (echoCases output) =
      [1, 2, 3].map (echoRun output) := rfl
  have hverdict : verdict ([1, 2, 3].map (echoRun output)) = .run .accepted := by
    simp [verdict, h.status_echoRun]
  have hpassed : passedRuns ([1, 2, 3].map (echoRun output)) = 3 := by
    simp [passedRuns, h.status_echoRun]
  have hlength : ([1, 2, 3].map (echoRun output)).length = 3 := rfl
  have hpeak : peakMemoryKb ([1, 2, 3].map (echoRun output)) = 3000 := rfl
  have htotal : totalTimeMs ([1, 2, 3].map (echoRun output)) = 15 := rfl
  have hdigits : digits 1 = 1 ∧ digits 2 = 1 ∧ digits 3 = 1 ∧ digits 15 = 2 ∧ digits 3000 = 4 ∧
      digits (3 : Nat) = 1 := by
    decide
  have haccepted : (CaseStatus.run .accepted).text.length = 8 := rfl
  rw [Judge.resultSize, if_neg hcompile, hruns, reportSize, hverdict, hpassed, hlength, hpeak,
    htotal, haccepted]
  simp only [List.map_cons, List.map_nil, List.sum_cons, List.sum_nil, h.size_echoRun]
  omega

theorem Plain.parse_dump_payload (h : Plain output) (text : Bytes)
    (htext : (echoEnv output).codec.dump (echoPayload output) = some text) :
    (echoEnv output).codec.parse text = .ok (echoPayload output) := by
  have hdump : (echoEnv output).codec.dump (echoPayload output) =
      some ((echoPayload output).print (.compact fun _ => [])) := if_pos h.payload_utf8
  rw [← Option.some.inj (hdump.symm.trans htext)]
  exact echoCodec_parse_payload output

/-- The dispatch of the payload. -/
def Plain.dispatch (h : Plain output) : Dispatch (echoEnv output).codec where
  submission := ⟨7, ascii "int main(){}"⟩
  problem := ⟨1000, 262144⟩
  language := ⟨ascii "cpp", ascii "g++ {source} -o {output}", ascii "{binary}"⟩
  testCases := echoCases output
  job := ⟨7, echoPayload output, h.payload_utf8⟩
  worker := 0
  cfg := sampleDispatch.cfg
  payload_eq := rfl
  judgePath_eq := sampleDispatch.judgePath_eq
  parse_dump := h.parse_dump_payload

theorem Plain.dump_payload (h : Plain output) : (echoEnv output).codec.dump h.dispatch.job.payload =
    some ((echoPayload output).print (.compact fun _ => [])) := if_pos h.payload_utf8

theorem Plain.dump_doc (h : Plain output) :
    (echoEnv output).codec.dump (echoDoc output) = some (echoTexts output).1 := if_pos h.doc_utf8

theorem Plain.executed (h : Plain output) :
    executeJudgeRequest (echoEnv output).codec (sampleMachine output)
      ((echoPayload output).print (.compact fun _ => [])) = .ok (echoTexts output).1 :=
  (executeJudgeRequest_payload (sampleMachine output) (echoCodec_parse_payload output)).trans
    (dumpDoc_eq_ok.mpr h.dump_doc)

theorem Plain.readsBack (h : Plain output) : (echoEnv output).codec.ReadsBack (echoDoc output) := by
  intro text htext
  obtain rfl : (echoTexts output).1 = text := Option.some.inj (h.dump_doc.symm.trans htext)
  obtain ⟨rest, hrest⟩ : ∃ rest, (echoTexts output).1 =
      123 :: (Json.quote (ascii "compile_error") ++ rest) := Json.exists_print_obj ..
  exact ⟨by rw [hrest]; exact List.cons_ne_nil _ _, echoCodec_parse_doc output (Or.inl rfl)⟩

theorem Plain.keeps (h : Plain output) :
    (echoColumn output).Keeps (echoEnv output).codec (echoDoc output) := by
  have hselect : (echoColumn output).select (echoTexts output).1 = (echoTexts output).2 := by
    simp only [echoColumn, if_true]
  refine ⟨?_, ?_, ?_, ?_⟩
  all_goals
    intro text htext
    obtain rfl : (echoTexts output).1 = text := Option.some.inj (h.dump_doc.symm.trans htext)
  · simp only [echoColumn, decide_true]
  · rw [hselect]
    exact echoCodec_parse_doc output (Or.inr rfl)
  · rw [hselect]
    exact Json.wellFormed_print ⟨by decide, by decide, fun _ => rfl⟩ _ h.doc_utf8
  · rw [hselect]
    rfl

/-- Submission 7, before it is judged. -/
def echoTable : SubmissionTable where
  judged := sampleRows
  columns _ :=
    { userId := 1, problemId := 1, languageId := 1
      sourceCode := ⟨ascii "int main(){}", by decide, by decide⟩
      mode := some .submit
      createdAt := none
      createdAt_utf8 := fun _ h => nomatch h }

theorem Plain.stored (h : Plain output) :
    ∃ row, (judgedTable (echoEnv output).codec (echoColumn output) h.dispatch.job
        (echoTexts output).1 echoTable).judged (7 : Int64).toInt = some row ∧
      row.resultJson = (echoTexts output).1 := by
  have hdump : (echoEnv output).codec.dump (judgeDoc (sampleMachine output) (echoRequest output)
      (echoCases output)) = some (echoTexts output).1 := h.dump_doc
  have hjob : h.dispatch.job.submissionId = (7 : Int64).toInt := rfl
  have hpending : echoTable.judged (7 : Int64).toInt = some ⟨.pending, [], 0, 0⟩ := rfl
  exact stored_result hdump h.readsBack (h.keeps.valid _ h.dump_doc) hjob hpending

end

/-- The path `/api/submissions/7` with what its pattern captures. -/
def submissionCaptures : List Bytes := [ascii "/api/submissions/7", ascii "7"]

/-- A DAO layer of which only the read goes through. -/
def noOthers : Dao SubmissionTable :=
  ⟨fun _ _ table => (.error (.runtime (ascii "prepare: ")), table)⟩

theorem plain_ok : Plain (ascii "ok") := ⟨by decide, by decide, by decide⟩

/-- The result of a program that writes `ok` can be read back. -/
theorem result_readable_ok :
    let after := judgedTable (echoEnv (ascii "ok")).codec (echoColumn (ascii "ok"))
      plain_ok.dispatch.job (echoTexts (ascii "ok")).1 echoTable
    ReadBack (echoEnv (ascii "ok")).codec (echoColumn (ascii "ok")) after 7
        (echoTexts (ascii "ok")).1 ∧
      Served (echoEnv (ascii "ok")) (submissionDao (echoColumn (ascii "ok")).select noOthers) .reSet
        submissionCaptures after (echoTexts (ascii "ok")).1 := by
  refine (result_readable_iff (echoEnv (ascii "ok")) (Json.printing_dumpsUtf8 _ _)
    plain_ok.dispatch (sampleMachine (ascii "ok")) plain_ok.dump_payload plain_ok.executed
    plain_ok.readsBack (echoColumn (ascii "ok")) plain_ok.keeps echoTable rfl rfl noOthers .reSet
    (by decide)).mpr ?_
  exact plain_ok.resultSize.le.trans (by decide)

/-- An output of 60000 bytes. -/
def longOutput : Bytes := List.replicate 60000 97

theorem plain_longOutput : Plain longOutput where
  utf8 := Utf8.wellFormed_of_ascii fun b hb => by
    rw [List.eq_of_mem_replicate hb]
    decide
  short := by
    rw [longOutput, List.length_replicate]
    decide
  escaped := by
    have hone : (Json.escape 97).length = 1 := by decide
    rw [longOutput, Json.escapedLength_replicate, hone, Nat.mul_one, List.length_replicate]

/-- **A result that cannot be read back.**  A program is right on three test cases whose outputs
have 60000 bytes each.  The result is stored as accepted; `GetById` raises and the handler
answers 500. -/
theorem long_result_unreadable :
    let after := judgedTable (echoEnv longOutput).codec (echoColumn longOutput)
      plain_longOutput.dispatch.job (echoTexts longOutput).1 echoTable
    (echoColumn longOutput).Keeps (echoEnv longOutput).codec (echoDoc longOutput) ∧
      executeJudgeRequest (echoEnv longOutput).codec (sampleMachine longOutput)
        ((echoPayload longOutput).print (.compact fun _ => [])) = .ok (echoTexts longOutput).1 ∧
      (∃ row, after.judged (7 : Int64).toInt = some row ∧
        row.resultJson = (echoTexts longOutput).1) ∧
      SubmissionDao.getById (echoColumn longOutput).select after 7 =
        .error (.runtime (ascii "fetch: ")) ∧
      ¬ ReadBack (echoEnv longOutput).codec (echoColumn longOutput) after 7
        (echoTexts longOutput).1 ∧
      ((getSubmission (echoEnv longOutput) (submissionDao (echoColumn longOutput).select noOthers)
        .reSet submissionCaptures).run ⟨.ofStatu 200, 0, after⟩).2.response.statu = 500 := by
  intro after
  have h := plain_longOutput
  obtain ⟨row, hrow, hresult⟩ := h.stored
  have hlong : SubmissionDao.resultJsonBuffer <
      ((echoColumn longOutput).select row.resultJson).length := by
    rw [hresult, h.keeps.length _ h.dump_doc, echoDoc, length_print_judgeDoc, h.resultSize,
      longOutput, List.length_replicate]
    decide
  have hget : SubmissionDao.getById (echoColumn longOutput).select after 7 =
      .error (.runtime (ascii "fetch: ")) := SubmissionDao.getById_of_long hrow hlong
  have hid : capturedId submissionCaptures = some 7 := by decide
  refine ⟨h.keeps, h.executed, ⟨row, hrow, hresult⟩, hget, ?_, ?_⟩
  · rintro ⟨_, s, -, hsome, -⟩
    rw [hget] at hsome
    cases hsome
  · exact getSubmission_of_getById _ hid hget noOthers .reSet

end OnlineJudge.Handler
