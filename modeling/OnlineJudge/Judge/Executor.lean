/-
# What a judge worker does with a request

`ExecuteJudgeRequest` (`judge_executor.h`) compiles a submission, runs it once for each test case
and reports what came out, as one JSON document.  Its input is the payload that `BuildJudgePayload`
(`submission_handler.cpp`) makes of a submission.

The compiler, the program and the files they leave are a `Machine`: any results, for every command
and every run.  What the program wrote goes into the document as it is, cut after 64 KB, so printing
the document can raise.

* `executeJudgeRequest_payload`: on a payload the function prints one document, `judgeDoc`.
* `judgeDoc_utf8_iff`: that document can be printed exactly when the texts that the compiler or the
  program left are well-formed UTF-8 (`Printable`).

The time limit of a request is clamped by an environment variable of the worker; everything else is
taken as the request has it.  What a run does within its limits, and how the sandbox finds out, is
in `Judge.SandboxRunner`; here a run is its result.
-/
import OnlineJudge.Lib.Program

namespace OnlineJudge.Judge

open ByteString

/-! ## 1. The payload

The document in which a job travels, with the fields of three records and a list of test cases. -/

/-- The fields of a submission that go into the payload. -/
structure Submission where
  id : Int
  sourceCode : Bytes

/-- The fields of a problem that go into the payload. -/
structure Problem where
  timeLimitMs : Int
  memoryLimitKb : Int

/-- The fields of a language that go into the payload. -/
structure Language where
  extension : Bytes
  compileCmd : Bytes
  runCmd : Bytes

/-- The fields of a test case that go into the payload. -/
structure TestCase where
  id : Int
  input : Bytes
  output : Bytes

/-- A test case in the payload. -/
def TestCase.toJson (tc : TestCase) : Json :=
  .obj [(ascii "expected_output", .str tc.output), (ascii "id", .int tc.id),
    (ascii "input", .str tc.input)]

def buildJudgePayload (submission : Submission) (problem : Problem) (language : Language)
    (testCases : List TestCase) : Json :=
  .obj [(ascii "compile_cmd", .str language.compileCmd),
    (ascii "language", .str (if language.extension = [] then ascii "cpp" else language.extension)),
    (ascii "memory_limit_kb", .int problem.memoryLimitKb),
    (ascii "run_cmd", .str language.runCmd),
    (ascii "source_code", .str submission.sourceCode),
    (ascii "test_cases", .arr (testCases.map TestCase.toJson)),
    (ascii "time_limit_ms", .int problem.timeLimitMs),
    (ascii "work_dir", .str (ascii "./run/judge_" ++ decimalInt submission.id))]

/-! ## 2. The machine

The results are given for every command and every run, and may depend on anything.  So what is shown
holds for each compiler and each program. -/

/-- The values of `RunResult::status`. -/
inductive RunStatus
  | accepted
  | timeLimitExceeded
  | memoryLimitExceeded
  | runtimeError
  | systemError
deriving DecidableEq, Repr

def RunStatus.text : RunStatus → Bytes
  | accepted => ascii "accepted"
  | timeLimitExceeded => ascii "time_limit_exceeded"
  | memoryLimitExceeded => ascii "memory_limit_exceeded"
  | runtimeError => ascii "runtime_error"
  | systemError => ascii "system_error"

structure RunResult where
  status : RunStatus
  timeMs : Int
  memoryKb : Int
  stderrTxt : Bytes

/-- The arguments of `RunProgramWithLimits`, and what is in the input file. -/
structure RunArgs where
  binary : Bytes
  inPath : Bytes
  input : Bytes
  outPath : Bytes
  errPath : Bytes
  timeLimitMs : Int
  memoryLimitKb : Int

/-- What a worker finds around it.  `system` is the wait status of a command that is run with this
source file in place, and `compileErr` what the command leaves in its error file;
`runProgram` and `outFile` are the result of the `k`-th run and what it leaves in its output
file. -/
structure Machine where
  judgerMaxTimeMs : Option Bytes
  system : Bytes → Bytes → Int
  compileErr : Bytes → Bytes → Bytes
  runProgram : Nat → RunArgs → RunResult
  outFile : Nat → RunArgs → Bytes

/-- `RunShellCommand`, from the wait status; the exit code is its second byte. -/
def runShellCommand (ret : Int) : Int := if ret = -1 then -1 else ret / 2 ^ 8 % 2 ^ 8

/-! ## 3. Reading the request

Each member has a default, and one of another type makes the whole function raise.  The commands are
made by substitution, of the first text and then the next. -/

/-- What the function reads of the request before it compiles. -/
structure JudgeRequest where
  sourceCode : Bytes
  timeLimitMs : Int
  memoryLimitKb : Int
  workDir : Bytes
  compileCmd : Bytes

def maxTimeLimitMs (judgerMaxTimeMs : Option Bytes) : Int :=
  match judgerMaxTimeMs.map stoi with
  | some (.ok v) => if v > 0 then v else 10000
  | _ => 10000

/-- The `value` calls, in their order. -/
def readRequest (machine : Machine) (req : Json) : Except Json.Error JudgeRequest := do
  let sourceCode ← req.valueStr (ascii "source_code") []
  let timeLimitMs ← req.valueInt (ascii "time_limit_ms") 1000
  let memoryLimitKb ← req.valueInt (ascii "memory_limit_kb") 262144
  let workDir ← req.valueStr (ascii "work_dir") (ascii "./run/judge")
  let compileCmd ← req.valueStr (ascii "compile_cmd")
    (ascii "g++ -O2 -std=c++17 \x7bsource\x7d -o \x7boutput\x7d")
  -- read, and not used
  let _ ← req.valueStr (ascii "run_cmd") (ascii "\x7bbinary\x7d")
  let limit := maxTimeLimitMs machine.judgerMaxTimeMs
  return ⟨sourceCode, if timeLimitMs > limit then limit else timeLimitMs, memoryLimitKb, workDir,
    compileCmd⟩

namespace JudgeRequest

def sourcePath (r : JudgeRequest) : Bytes := r.workDir ++ ascii "/user_code.cpp"

def binaryPath (r : JudgeRequest) : Bytes := r.workDir ++ ascii "/user_bin"

def compileErrPath (r : JudgeRequest) : Bytes := r.workDir ++ ascii "/compile_err.txt"

/-- The loop of `replace_all`, for at most `n` occurrences. -/
def replaceLoop (a b : Bytes) : Nat → Bytes → Bytes
  | 0, s => s
  | n + 1, s =>
    match find a s with
    | none => s
    | some pos => s.take pos ++ (b ++ replaceLoop a b n (s.drop (pos + a.length)))

/-- `replace_all`, of a text that is not empty. -/
def replaceAll (s a b : Bytes) : Bytes := replaceLoop a b (s.length + 1) s

/-- `compile_command`, with the paths put in. -/
def compileCommand (r : JudgeRequest) : Bytes :=
  replaceAll (replaceAll r.compileCmd (ascii "\x7bsource\x7d") r.sourcePath)
      (ascii "\x7boutput\x7d") r.binaryPath ++
    ascii " 2> \"" ++ r.compileErrPath ++ ascii "\""

/-- The arguments of the run of one test case. -/
def runArgs (r : JudgeRequest) (id : Int) (input : Bytes) : RunArgs where
  binary := r.binaryPath
  inPath := r.workDir ++ ascii "/tc_in_" ++ decimalInt id ++ ascii ".txt"
  input := input
  outPath := r.workDir ++ ascii "/tc_out_" ++ decimalInt id ++ ascii ".txt"
  errPath := r.workDir ++ ascii "/run_err_" ++ decimalInt id ++ ascii ".txt"
  timeLimitMs := r.timeLimitMs
  memoryLimitKb := r.memoryLimitKb

end JudgeRequest

/-! ## 4. The report of one test case

The verdict compares what is left of the output, both sides without blanks at the end. -/

def normalizeOutput (text : Bytes) : Bytes :=
  (text.reverse.dropWhile fun b => b == 10 || b == 13 || b == 32 || b == 9).reverse

def maxActualOutput : Nat := 64 * 1024

/-- The status of one test case. -/
inductive CaseStatus
  | wrongAnswer
  | run (status : RunStatus)
deriving DecidableEq, Repr

/-- The status as a text. -/
def CaseStatus.text : CaseStatus → Bytes
  | wrongAnswer => ascii "wrong_answer"
  | run status => status.text

/-- The verdict on a run that left `actual` in the report. -/
def caseStatus (expected : Bytes) (rr : RunResult) (actual : Bytes) : CaseStatus :=
  if rr.status = .accepted then
    if normalizeOutput actual = normalizeOutput expected then .run .accepted else .wrongAnswer
  else .run rr.status

/-- `actual`: the output up to the cut. -/
def actualOutput (actualFull : Bytes) : Bytes := actualFull.take maxActualOutput

/-- `r`, the report of one test case. -/
def caseDoc (id : Int) (expected : Bytes) (rr : RunResult) (actualFull : Bytes) : Json :=
  let actual := actualOutput actualFull
  let truncated := if actualFull.length > maxActualOutput then
    [(ascii "actual_truncated", .bool true)] else []
  let stderr := if rr.status = .accepted then [] else [(ascii "stderr", .str rr.stderrTxt)]
  .obj ([(ascii "actual_output", .str actual)] ++ truncated ++
    [(ascii "expected_output", .str expected), (ascii "memory_kb", .int rr.memoryKb),
      (ascii "status", .str (caseStatus expected rr actual).text)] ++ stderr ++
    [(ascii "test_case_id", .int id), (ascii "time_ms", .int rr.timeMs)])

/-! ## 5. The whole request

Three early exits, each with a document of its own, and then the loop. -/

/-- What the loop over the test cases accumulates. -/
structure Tally where
  status : CaseStatus
  results : List Json
  total : Nat
  passed : Nat
  totalTimeMs : Int
  peakMemoryKb : Int

namespace Tally

/-- Before the loop. -/
def start : Tally := ⟨.run .accepted, [], 0, 0, 0, 0⟩

/-- One round of the loop, after the run. -/
def add (t : Tally) (id : Int) (expected : Bytes) (rr : RunResult) (actualFull : Bytes) : Tally :=
  let status := caseStatus expected rr (actualOutput actualFull)
  { status := if status = .run .accepted then t.status else status
    results := t.results ++ [caseDoc id expected rr actualFull]
    total := t.total + 1
    passed := if status = .run .accepted then t.passed + 1 else t.passed
    totalTimeMs := t.totalTimeMs + rr.timeMs
    peakMemoryKb := if rr.memoryKb > t.peakMemoryKb then rr.memoryKb else t.peakMemoryKb }

/-- `out`, after the loop. -/
def doc (t : Tally) : Json :=
  .obj [(ascii "compile_error", .null), (ascii "results", .arr t.results),
    (ascii "status", .str t.status.text),
    (ascii "summary", .obj [(ascii "passed", .int t.passed),
      (ascii "peak_memory_kb", .int t.peakMemoryKb), (ascii "total", .int t.total),
      (ascii "total_time_ms", .int t.totalTimeMs)])]

end Tally

/-- One round of the loop: the test case is read, the program run, and its report added. -/
def judgeCase (machine : Machine) (r : JudgeRequest) (t : Tally) (tc : Json) :
    Except Json.Error Tally := do
  let id ← tc.valueInt (ascii "id") 0
  let input ← tc.valueStr (ascii "input") []
  let expected ← tc.valueStr (ascii "expected_output") []
  let args := r.runArgs id input
  return t.add id expected (machine.runProgram t.total args) (machine.outFile t.total args)

/-- `out` when the request is not JSON. -/
def parseErrorDoc (what : Bytes) : Json :=
  .obj [(ascii "error", .str (ascii "JSON parse error: " ++ what)),
    (ascii "status", .str (ascii "system_error"))]

/-- `out` when the source does not compile. -/
def compileErrorDoc (text : Bytes) : Json :=
  .obj [(ascii "compile_error", .str text), (ascii "results", .arr []),
    (ascii "status", .str (ascii "compile_error"))]

/-- `out` when there are no test cases. -/
def noTestCasesDoc : Json :=
  .obj [(ascii "compile_error", .null), (ascii "error", .str (ascii "no test_cases provided")),
    (ascii "results", .arr []), (ascii "status", .str (ascii "system_error"))]

/-- `dump()`. -/
def dumpDoc (codec : Json.Codec) (doc : Json) : Except Json.Error Bytes :=
  match codec.dump doc with
  | some text => .ok text
  | none => .error .utf8Text

theorem dumpDoc_eq_ok {codec : Json.Codec} {doc : Json} {text : Bytes} :
    dumpDoc codec doc = .ok text ↔ codec.dump doc = some text := by
  unfold dumpDoc
  cases codec.dump doc <;> simp

def executeJudgeRequest (codec : Json.Codec) (machine : Machine) (text : Bytes) :
    Except Json.Error Bytes :=
  match codec.parse text with
  | .error what => dumpDoc codec (parseErrorDoc what)
  | .ok req => do
    let r ← readRequest machine req
    if runShellCommand (machine.system r.compileCommand r.sourceCode) ≠ 0 then
      dumpDoc codec (compileErrorDoc (machine.compileErr r.compileCommand r.sourceCode))
    else
      match (req.find? (ascii "test_cases")).bind Json.items? with
      | none => dumpDoc codec noTestCasesDoc
      | some cases =>
        let t ← cases.foldlM (judgeCase machine r) .start
        dumpDoc codec t.doc

/-! ## 6. The document for a payload

A payload has every member, so nothing of the reading can fail and the document can be written down.
-/

/-- What `ExecuteJudgeRequest` reads of a payload. -/
def payloadRequest (machine : Machine) (submission : Submission) (problem : Problem)
    (language : Language) : JudgeRequest where
  sourceCode := submission.sourceCode
  timeLimitMs :=
    let limit := maxTimeLimitMs machine.judgerMaxTimeMs
    if Json.toInt32 problem.timeLimitMs > limit then limit else Json.toInt32 problem.timeLimitMs
  memoryLimitKb := Json.toInt32 problem.memoryLimitKb
  workDir := ascii "./run/judge_" ++ decimalInt submission.id
  compileCmd := language.compileCmd

theorem readRequest_payload (machine : Machine) (submission : Submission) (problem : Problem)
    (language : Language) (testCases : List TestCase) :
    readRequest machine (buildJudgePayload submission problem language testCases) =
      .ok (payloadRequest machine submission problem language) := rfl

section

variable (machine : Machine) (r : JudgeRequest)

/-- The arguments of the run of a test case of a payload. -/
def caseArgs (tc : TestCase) : RunArgs := r.runArgs (Json.toInt32 tc.id) tc.input

/-- One round of the loop, for a test case of a payload. -/
def addCase (t : Tally) (tc : TestCase) : Tally :=
  t.add (Json.toInt32 tc.id) tc.output (machine.runProgram t.total (caseArgs r tc))
    (machine.outFile t.total (caseArgs r tc))

theorem judgeCase_toJson (t : Tally) (tc : TestCase) :
    judgeCase machine r t tc.toJson = .ok (addCase machine r t tc) := rfl

/-- The loop over the test cases of a payload. -/
def tally (testCases : List TestCase) : Tally := testCases.foldl (addCase machine r) .start

theorem foldlM_judgeCase (testCases : List TestCase) (t : Tally) :
    (testCases.map TestCase.toJson).foldlM (judgeCase machine r) t =
      .ok (testCases.foldl (addCase machine r) t) := by
  induction testCases generalizing t with
  | nil => rfl
  | cons tc testCases ih =>
    rw [List.map_cons, List.foldlM_cons, judgeCase_toJson]
    exact ih (addCase machine r t tc)

/-- The document that is printed for a payload. -/
def judgeDoc (testCases : List TestCase) : Json :=
  if runShellCommand (machine.system r.compileCommand r.sourceCode) ≠ 0 then
    compileErrorDoc (machine.compileErr r.compileCommand r.sourceCode)
  else (tally machine r testCases).doc

/-- What the program leaves for test case `k` can be printed: the part of its output that is
reported, and its error output unless the run was accepted. -/
def CasePrintable (k : Nat) (tc : TestCase) : Prop :=
  Utf8.wellFormed (actualOutput (machine.outFile k (caseArgs r tc))) = true ∧
    ((machine.runProgram k (caseArgs r tc)).status ≠ .accepted →
      Utf8.wellFormed (machine.runProgram k (caseArgs r tc)).stderrTxt = true)

/-- What compiling and running leave can be printed: the messages of the compiler if it refuses, and
otherwise what each test case leaves for the report. -/
def Printable (testCases : List TestCase) : Prop :=
  if runShellCommand (machine.system r.compileCommand r.sourceCode) ≠ 0 then
    Utf8.wellFormed (machine.compileErr r.compileCommand r.sourceCode) = true
  else ∀ k tc, testCases[k]? = some tc → CasePrintable machine r k tc

end

/-- **On a payload the function prints one document**: what is read of it is what was put in, and
the rest is the machine's. -/
theorem executeJudgeRequest_payload {codec : Json.Codec} {text : Bytes} (machine : Machine)
    {submission : Submission} {problem : Problem} {language : Language}
    {testCases : List TestCase}
    (hparse : codec.parse text = .ok (buildJudgePayload submission problem language testCases)) :
    executeJudgeRequest codec machine text = dumpDoc codec
      (judgeDoc machine (payloadRequest machine submission problem language) testCases) := by
  have hcases : ((buildJudgePayload submission problem language testCases).find?
      (ascii "test_cases")).bind Json.items? = some (testCases.map TestCase.toJson) := rfl
  simp only [executeJudgeRequest, hparse, readRequest_payload, bind, Except.bind, judgeDoc]
  split
  · rfl
  · simp only [hcases, foldlM_judgeCase]
    rfl

theorem wellFormed_caseStatus (status : CaseStatus) : Utf8.wellFormed status.text = true := by
  cases status with
  | wrongAnswer => decide
  | run status => cases status <;> decide

/-- What a run leaves can be printed: the part of its output that is reported, and its error output
unless the run was accepted. -/
def RunPrintable (machine : Machine) (k : Nat) (args : RunArgs) : Prop :=
  Utf8.wellFormed (actualOutput (machine.outFile k args)) = true ∧
    ((machine.runProgram k args).status ≠ .accepted →
      Utf8.wellFormed (machine.runProgram k args).stderrTxt = true)

/-- Test case `k` can be read, and the report about it printed.  Its members have the right types,
and the texts in the report are well-formed. -/
def CaseAnswerable (machine : Machine) (r : JudgeRequest) (k : Nat) (tc : Json) : Prop :=
  ∃ id input expected, tc.valueInt (ascii "id") 0 = .ok id ∧
    tc.valueStr (ascii "input") [] = .ok input ∧
    tc.valueStr (ascii "expected_output") [] = .ok expected ∧
    Utf8.wellFormed expected = true ∧ RunPrintable machine k (r.runArgs id input)

/-- When the report of one test case can be printed. -/
theorem caseDoc_utf8_iff (id : Int) (expected : Bytes) (rr : RunResult) (actualFull : Bytes) :
    (caseDoc id expected rr actualFull).utf8 = true ↔
      Utf8.wellFormed expected = true ∧ Utf8.wellFormed (actualOutput actualFull) = true ∧
        (rr.status ≠ .accepted → Utf8.wellFormed rr.stderrTxt = true) := by
  have hnames : ∀ name ∈ [ascii "actual_output", ascii "actual_truncated",
      ascii "expected_output", ascii "memory_kb", ascii "status", ascii "stderr",
      ascii "test_case_id", ascii "time_ms"], Utf8.wellFormed name = true := by decide
  simp only [List.forall_mem_cons] at hnames
  obtain ⟨hactual, htruncated, hexpect, hmemory, hstatus, hstderr, hid, htime, -⟩ := hnames
  have htrunc : Json.utf8Members (if actualFull.length > maxActualOutput then
      [(ascii "actual_truncated", .bool true)] else []) = true := by
    split <;> simp [Json.utf8Members, Json.utf8, htruncated]
  unfold caseDoc
  simp only [Json.utf8, Json.utf8Members_append, htrunc]
  by_cases hacc : rr.status = .accepted
  · simp [Json.utf8Members, Json.utf8, hacc, hactual, hexpect, hmemory, hstatus, hid, htime,
      wellFormed_caseStatus, and_comm]
  · simp [Json.utf8Members, Json.utf8, hacc, hactual, hexpect, hmemory, hstatus, hid, htime,
      wellFormed_caseStatus, hstderr]
    tauto

/-- One round of the loop returns where the test case can be read. -/
theorem judgeCase_eq_ok {machine : Machine} {r : JudgeRequest} {t t' : Tally} {tc : Json} :
    judgeCase machine r t tc = .ok t' ↔
      ∃ id input expected, tc.valueInt (ascii "id") 0 = .ok id ∧
        tc.valueStr (ascii "input") [] = .ok input ∧
        tc.valueStr (ascii "expected_output") [] = .ok expected ∧
        t' = t.add id expected (machine.runProgram t.total (r.runArgs id input))
          (machine.outFile t.total (r.runArgs id input)) := by
  simp only [judgeCase, Except.bind_eq_ok, pure, Except.pure, Except.ok.injEq]
  constructor
  · rintro ⟨id, hid, input, hinput, expected, hexpected, rfl⟩
    exact ⟨id, input, expected, hid, hinput, hexpected, rfl⟩
  · rintro ⟨id, input, expected, hid, hinput, hexpected, rfl⟩
    exact ⟨id, hid, input, hinput, expected, hexpected, rfl⟩

/-- **When the loop returns, with reports that can be printed.** -/
theorem foldlM_judgeCase_utf8_iff (machine : Machine) (r : JudgeRequest) (cases : List Json)
    (t : Tally) :
    (∃ t', cases.foldlM (judgeCase machine r) t = .ok t' ∧ Json.utf8Items t'.results = true) ↔
      Json.utf8Items t.results = true ∧
        ∀ k tc, cases[k]? = some tc → CaseAnswerable machine r (t.total + k) tc := by
  induction cases generalizing t with
  | nil =>
    constructor
    · rintro ⟨t', ht', hutf8⟩
      exact ⟨Except.ok.inj ht' ▸ hutf8, nofun⟩
    · rintro ⟨hutf8, -⟩
      exact ⟨t, rfl, hutf8⟩
  | cons tc cases ih =>
    have hshift : ∀ k, t.total + (k + 1) = t.total + 1 + k := fun k => by omega
    constructor
    · rintro ⟨t', ht', hutf8⟩
      rw [List.foldlM_cons] at ht'
      obtain ⟨next, hnext, hrest⟩ := Except.bind_eq_ok.mp ht'
      obtain ⟨id, input, expected, hid, hinput, hexpected, rfl⟩ := judgeCase_eq_ok.mp hnext
      obtain ⟨hresults, hcases⟩ := (ih _).mp ⟨t', hrest, hutf8⟩
      simp only [Tally.add, Json.utf8Items_append, Bool.and_eq_true, Json.utf8Items,
        Bool.and_true] at hresults
      obtain ⟨hprint, hrun⟩ := (caseDoc_utf8_iff ..).mp hresults.2
      refine ⟨hresults.1, fun k other hother => ?_⟩
      cases k with
      | zero =>
        obtain rfl := Option.some.inj hother
        exact ⟨id, input, expected, hid, hinput, hexpected, hprint, hrun⟩
      | succ k =>
        rw [hshift]
        exact hcases k other hother
    · rintro ⟨hutf8, hcases⟩
      obtain ⟨id, input, expected, hid, hinput, hexpected, hprint, hrun⟩ := hcases 0 tc rfl
      have hnext : judgeCase machine r t tc =
          .ok (t.add id expected (machine.runProgram t.total (r.runArgs id input))
            (machine.outFile t.total (r.runArgs id input))) :=
        judgeCase_eq_ok.mpr ⟨id, input, expected, hid, hinput, hexpected, rfl⟩
      have hresults : Json.utf8Items (t.add id expected
          (machine.runProgram t.total (r.runArgs id input))
          (machine.outFile t.total (r.runArgs id input))).results = true := by
        simp only [Tally.add, Json.utf8Items_append, Bool.and_eq_true, Json.utf8Items,
          Bool.and_true]
        exact ⟨hutf8, (caseDoc_utf8_iff ..).mpr ⟨hprint, hrun⟩⟩
      obtain ⟨t', hrest, hdone⟩ := (ih _).mpr ⟨hresults, fun k other hother => by
        have hcase := hcases (k + 1) other hother
        rwa [hshift] at hcase⟩
      rw [List.foldlM_cons]
      exact ⟨t', Except.bind_eq_ok.mpr ⟨_, hnext, hrest⟩, hdone⟩

/-- When the reports of all test cases of a payload can be printed. -/
theorem foldl_addCase_utf8_iff (machine : Machine) (r : JudgeRequest) (testCases : List TestCase)
    (hexpected : ∀ tc ∈ testCases, Utf8.wellFormed tc.output = true) (t : Tally) :
    Json.utf8Items (testCases.foldl (addCase machine r) t).results = true ↔
      Json.utf8Items t.results = true ∧
        ∀ k tc, testCases[k]? = some tc → CasePrintable machine r (t.total + k) tc := by
  have hloop := foldlM_judgeCase_utf8_iff machine r (testCases.map TestCase.toJson) t
  rw [foldlM_judgeCase] at hloop
  simp only [Except.ok.injEq, exists_eq_left'] at hloop
  rw [hloop]
  refine and_congr_right fun _ => ⟨fun h k tc hk => ?_, fun h k v hv => ?_⟩
  · obtain ⟨id, input, expected, ⟨⟩, ⟨⟩, ⟨⟩, -, hrun⟩ :=
      h k tc.toJson (by rw [List.getElem?_map, hk]; rfl)
    exact hrun
  · rw [List.getElem?_map] at hv
    obtain ⟨tc, hk, rfl⟩ := Option.map_eq_some_iff.mp hv
    exact ⟨_, _, _, rfl, rfl, rfl, hexpected tc (List.mem_of_getElem? hk), h k tc hk⟩

/-- **The cut can make a well-formed output unprintable**: it may fall inside a character. -/
theorem exists_wellFormed_cut :
    ∃ output, Utf8.wellFormed output = true ∧ Utf8.wellFormed (actualOutput output) = false := by
  have hascii : Utf8.wellFormed (List.replicate (maxActualOutput - 1) 97) = true :=
    Utf8.wellFormed_of_ascii fun b hb => by rw [List.eq_of_mem_replicate hb]; decide
  refine ⟨List.replicate (maxActualOutput - 1) 97 ++ [0xC3, 0xA9], ?_, ?_⟩
  · rw [Utf8.wellFormed_append_left hascii]
    decide
  · have hcut : actualOutput (List.replicate (maxActualOutput - 1) 97 ++ [0xC3, 0xA9]) =
        List.replicate (maxActualOutput - 1) 97 ++ [0xC3] := by
      have hone : maxActualOutput - (maxActualOutput - 1) = 1 := by decide
      rw [actualOutput, List.take_append, List.length_replicate, hone,
        List.take_of_length_le (by rw [List.length_replicate]; omega)]
      rfl
    rw [hcut, Utf8.wellFormed_append_left hascii]
    decide

/-- The document with the reports has no other text that could fail to print. -/
theorem Tally.doc_utf8 (t : Tally) : t.doc.utf8 = Json.utf8Items t.results := by
  have hnames : ∀ name ∈ [ascii "compile_error", ascii "results", ascii "status",
      ascii "summary", ascii "passed", ascii "peak_memory_kb", ascii "total",
      ascii "total_time_ms"], Utf8.wellFormed name = true := by decide
  simp only [List.forall_mem_cons] at hnames
  simp [Tally.doc, Json.utf8, Json.utf8Members, hnames, wellFormed_caseStatus]

/-- **The document can be printed exactly when what compiling and running leave can be.** -/
theorem judgeDoc_utf8_iff (machine : Machine) (r : JudgeRequest) (testCases : List TestCase)
    (hexpected : ∀ tc ∈ testCases, Utf8.wellFormed tc.output = true) :
    (judgeDoc machine r testCases).utf8 = true ↔ Printable machine r testCases := by
  unfold judgeDoc Printable
  split
  · have hnames : Utf8.wellFormed (ascii "compile_error") = true ∧
        Utf8.wellFormed (ascii "results") = true ∧ Utf8.wellFormed (ascii "status") = true := by
      decide
    simp [compileErrorDoc, Json.utf8, Json.utf8Members, Json.utf8Items, hnames]
  · have hreports := foldl_addCase_utf8_iff machine r testCases hexpected .start
    have hstart : Json.utf8Items Tally.start.results = true := rfl
    have hzero : ∀ k, Tally.start.total + k = k := Nat.zero_add
    simp only [hstart, hzero, true_and] at hreports
    rw [← hreports, Tally.doc_utf8]
    rfl

end OnlineJudge.Judge
