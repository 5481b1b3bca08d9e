/-
# The judge on the command line

`judger_cli.cpp` reads a request from its standard input and does with it what `ExecuteJudgeRequest`
does, written out a second time.  The one difference for a request is a member that nothing uses:
the command line reads `language`, before everything else, and so raises where that is not a text.

An empty input is no request, and only the command line has a branch for it: the line that the
logger prints then is no JSON document, but it goes to the standard output like one.

* `JudgerCli.main_eq`: apart from that member the two are the same function.
* `answerable_iff`: on which requests, and with which environments, `ExecuteJudgeRequest` has an
  answer.
* `frontEnds_agree_iff`: the two agree exactly when `language` is absent or a text, or there is no
  answer in the first place.
-/
import Mathlib.Data.List.DropRight
import OnlineJudge.Judge.Executor
import OnlineJudge.Lib.JsonText
import OnlineJudge.Utils.Logger

namespace OnlineJudge.Judge

open ByteString

/-! ## 1. The program

Written as the source has it, with its own names for what `ExecuteJudgeRequest` has too, so that the
comparison is between two programs and not between one and itself. -/

namespace JudgerCli

def normalizeOutput (text : Bytes) : Bytes :=
  text.rdropWhile fun b => b == 10 || b == 13 || b == 32 || b == 9

/-- The `value` calls, in their order. -/
def readRequest (machine : Machine) (req : Json) : Except Json.Error JudgeRequest := do
  -- read, and not used
  let _ ← req.valueStr (ascii "language") (ascii "cpp")
  let sourceCode ← req.valueStr (ascii "source_code") []
  let timeLimitMs ← req.valueInt (ascii "time_limit_ms") 1000
  let memoryLimitKb ← req.valueInt (ascii "memory_limit_kb") 262144
  let workDir ← req.valueStr (ascii "work_dir") (ascii "./run/judge")
  let compileCmd ← req.valueStr (ascii "compile_cmd")
    (ascii "g++ -O2 -std=c++17 \x7bsource\x7d -o \x7boutput\x7d")
  -- nor is this
  let _ ← req.valueStr (ascii "run_cmd") (ascii "\x7bbinary\x7d")
  let limit := maxTimeLimitMs machine.judgerMaxTimeMs
  return ⟨sourceCode, if timeLimitMs > limit then limit else timeLimitMs, memoryLimitKb, workDir,
    compileCmd⟩

/-- What the loop over the test cases accumulates; `status` is `out["status"]`. -/
structure Progress where
  status : Bytes
  results : List Json
  totalTimeMs : Int
  peakMemoryKb : Int
  passed : Nat
  total : Nat

def Progress.start : Progress := ⟨ascii "accepted", [], 0, 0, 0, 0⟩

/-- `r`, with its status and, where the run has failed, the error output. -/
def caseReport (id : Int) (expected : Bytes) (rr : RunResult) (actualFull status : Bytes)
    (stderr : Option Bytes) : Json :=
  let truncated := actualFull.length > 64 * 1024
  let actual := if truncated then actualFull.take (64 * 1024) else actualFull
  .obj ([(ascii "actual_output", .str actual)] ++
    (if truncated then [(ascii "actual_truncated", .bool true)] else []) ++
    [(ascii "expected_output", .str expected), (ascii "memory_kb", .int rr.memoryKb),
      (ascii "status", .str status)] ++
    (stderr.map fun text => (ascii "stderr", Json.str text)).toList ++
    [(ascii "test_case_id", .int id), (ascii "time_ms", .int rr.timeMs)])

/-- One round of the loop, after the run. -/
def Progress.addRun (p : Progress) (id : Int) (expected : Bytes) (rr : RunResult)
    (actualFull : Bytes) : Progress :=
  let actual := if actualFull.length > 64 * 1024 then actualFull.take (64 * 1024) else actualFull
  let report := caseReport id expected rr actualFull
  let p := { p with
    totalTimeMs := p.totalTimeMs + rr.timeMs
    peakMemoryKb := if rr.memoryKb > p.peakMemoryKb then rr.memoryKb else p.peakMemoryKb
    total := p.total + 1 }
  let failed := fun status : Bytes => { p with
    status := status
    results := p.results ++ [report status (some rr.stderrTxt)] }
  match rr.status with
  | .accepted =>
    if normalizeOutput actual = normalizeOutput expected then
      { p with
        results := p.results ++ [report (ascii "accepted") none]
        passed := p.passed + 1 }
    else
      { p with
        status := ascii "wrong_answer"
        results := p.results ++ [report (ascii "wrong_answer") none] }
  | .timeLimitExceeded => failed (ascii "time_limit_exceeded")
  | .memoryLimitExceeded => failed (ascii "memory_limit_exceeded")
  | .runtimeError => failed (ascii "runtime_error")
  | status => failed status.text

/-- `out`, after the loop. -/
def Progress.doc (p : Progress) : Json :=
  .obj [(ascii "compile_error", .null), (ascii "results", .arr p.results),
    (ascii "status", .str p.status),
    (ascii "summary", .obj [(ascii "passed", .int p.passed),
      (ascii "peak_memory_kb", .int p.peakMemoryKb), (ascii "total", .int p.total),
      (ascii "total_time_ms", .int p.totalTimeMs)])]

/-- One round of the loop. -/
def judgeCase (machine : Machine) (r : JudgeRequest) (p : Progress) (tc : Json) :
    Except Json.Error Progress := do
  let id ← tc.valueInt (ascii "id") 0
  let inputData ← tc.valueStr (ascii "input") []
  let expected ← tc.valueStr (ascii "expected_output") []
  let args := r.runArgs id inputData
  return p.addRun id expected (machine.runProgram p.total args) (machine.outFile p.total args)

/-- What the process leaves. -/
structure CliRun where
  stdout : Bytes
  exitCode : Int
deriving DecidableEq

/-- `std::cout << out.dump() << std::endl`, and the end of the process. -/
def printDoc (codec : Json.Codec) (doc : Json) (exitCode : Int) : Except Json.Error CliRun := do
  let text ← dumpDoc codec doc
  return ⟨text ++ ascii "\n", exitCode⟩

/-- What the logger has at hand for a line: the name under which the file was compiled, and the time
stamp. -/
structure LogContext where
  file : Bytes
  stamp : Bytes

/-- `OJ_LOG_ERROR` for an empty input.  The logger has been told to print to the standard output. -/
def LogContext.noInput (ctx : LogContext) : Utils.LogEntry where
  level := .error
  file := ctx.file
  line := 48
  message := "judger_cli: 没有从 stdin 读取到输入 JSON".toUTF8.toList
  stamp := ctx.stamp

/-- `main`.  The documents of the early exits are those of `ExecuteJudgeRequest`. -/
def main (codec : Json.Codec) (machine : Machine) (ctx : LogContext) (input : Bytes) :
    Except Json.Error CliRun :=
  if input = [] then .ok ⟨ctx.noInput.text, 1⟩
  else
    match codec.parse input with
    | .error what => printDoc codec (parseErrorDoc what) 1
    | .ok req => do
      let r ← readRequest machine req
      if runShellCommand (machine.system r.compileCommand r.sourceCode) ≠ 0 then
        printDoc codec (compileErrorDoc (machine.compileErr r.compileCommand r.sourceCode)) 0
      else
        match (req.find? (ascii "test_cases")).bind Json.items? with
        | none => printDoc codec noTestCasesDoc 0
        | some cases =>
          let p ← cases.foldlM (judgeCase machine r) .start
          printDoc codec p.doc 0

/-! ## 2. The two loops

What the one accumulates in a record and the other in a document are in step after every round. -/

/-- What one loop has accumulated, in the variables of the other. -/
def Progress.ofTally (t : Tally) : Progress where
  status := t.status.text
  results := t.results
  totalTimeMs := t.totalTimeMs
  peakMemoryKb := t.peakMemoryKb
  passed := t.passed
  total := t.total

/-- What is cut off is what is over. -/
theorem cut_eq (actualFull : Bytes) :
    (if actualFull.length > 64 * 1024 then actualFull.take (64 * 1024) else actualFull) =
      actualOutput actualFull := by
  unfold actualOutput maxActualOutput
  split
  · rfl
  · rename_i hshort
    exact (List.take_of_length_le (Nat.le_of_not_gt hshort)).symm

theorem normalizeOutput_eq (text : Bytes) : normalizeOutput text = Judge.normalizeOutput text := rfl

/-- The report of a run that was accepted by the sandbox. -/
theorem caseReport_accepted {rr : RunResult} (h : rr.status = .accepted) (id : Int)
    (expected actualFull : Bytes) :
    caseReport id expected rr actualFull
        (caseStatus expected rr (actualOutput actualFull)).text none =
      caseDoc id expected rr actualFull := by
  simp only [caseReport, caseDoc, cut_eq, h, if_true, Option.map_none, Option.toList_none]
  rfl

/-- The report of a run that was not. -/
theorem caseReport_failed {rr : RunResult} (h : rr.status ≠ .accepted) (id : Int)
    (expected actualFull : Bytes) :
    caseReport id expected rr actualFull rr.status.text (some rr.stderrTxt) =
      caseDoc id expected rr actualFull := by
  simp only [caseReport, caseDoc, cut_eq, caseStatus, if_neg h, Option.map_some,
    Option.toList_some]
  rfl

/-- **One round of either loop accumulates the same.**  The two were written apart, but keep the
same sums. -/
theorem addRun_ofTally (t : Tally) (id : Int) (expected : Bytes) (rr : RunResult)
    (actualFull : Bytes) :
    (Progress.ofTally t).addRun id expected rr actualFull =
      .ofTally (t.add id expected rr actualFull) := by
  by_cases hacc : rr.status = .accepted
  · have hreport := caseReport_accepted hacc id expected actualFull
    by_cases hsame : Judge.normalizeOutput (actualOutput actualFull) =
        Judge.normalizeOutput expected
    · have hstatus : caseStatus expected rr (actualOutput actualFull) = .run .accepted := by
        rw [caseStatus, if_pos hacc, if_pos hsame]
      rw [hstatus] at hreport
      simp only [Progress.addRun, hacc, cut_eq, normalizeOutput_eq, if_pos hsame, Tally.add,
        hstatus, if_true, Progress.ofTally, ← hreport]
      rfl
    · have hstatus : caseStatus expected rr (actualOutput actualFull) = .wrongAnswer := by
        rw [caseStatus, if_pos hacc, if_neg hsame]
      rw [hstatus] at hreport
      simp only [Progress.addRun, hacc, cut_eq, normalizeOutput_eq, if_neg hsame, Tally.add,
        hstatus, Progress.ofTally, ← hreport]
      rfl
  · have hreport := caseReport_failed hacc id expected actualFull
    have hstatus : caseStatus expected rr (actualOutput actualFull) = .run rr.status := by
      rw [caseStatus, if_neg hacc]
    have hother : ¬ CaseStatus.run rr.status = .run .accepted := fun heq => by
      injection heq with heq
      exact hacc heq
    simp only [Tally.add, hstatus, if_neg hother, Progress.ofTally, ← hreport]
    unfold Progress.addRun
    -- the branches write the same text in their own words
    cases hrun : rr.status with
    | accepted => exact absurd hrun hacc
    | timeLimitExceeded => rfl
    | memoryLimitExceeded => rfl
    | runtimeError => rfl
    | systemError => rfl

theorem judgeCase_ofTally (machine : Machine) (r : JudgeRequest) (t : Tally) (tc : Json) :
    judgeCase machine r (.ofTally t) tc =
      (Judge.judgeCase machine r t tc).map Progress.ofTally := by
  unfold judgeCase Judge.judgeCase
  cases tc.valueInt (ascii "id") 0 with
  | error e => rfl
  | ok id =>
    cases tc.valueStr (ascii "input") [] with
    | error e => rfl
    | ok input =>
      cases tc.valueStr (ascii "expected_output") [] with
      | error e => rfl
      | ok expected => exact congrArg Except.ok (addRun_ofTally t id expected _ _)

/-! ## 3. The two programs

The exits of the command line print what the other function returns, and add a line end and an exit
code. -/

/-- The member that only the command line reads. -/
def readLanguage (codec : Json.Codec) (text : Bytes) : Except Json.Error Unit :=
  match codec.parse text with
  | .error _ => .ok ()
  | .ok req => (req.valueStr (ascii "language") (ascii "cpp")).map fun _ => ()

/-- The exit code of a run that has printed a document. -/
def exitCode (codec : Json.Codec) (text : Bytes) : Int :=
  match codec.parse text with
  | .error _ => 1
  | .ok _ => 0

/-- The process that has printed this document. -/
def printed (codec : Json.Codec) (text out : Bytes) : CliRun :=
  ⟨out ++ ascii "\n", exitCode codec text⟩

theorem printDoc_eq {codec : Json.Codec} {text : Bytes} {doc : Json} {code : Int}
    (h : exitCode codec text = code) :
    printDoc codec doc code = (dumpDoc codec doc).map (printed codec text) := by
  subst h
  rfl

theorem readRequest_eq (machine : Machine) (req : Json) :
    readRequest machine req =
      (req.valueStr (ascii "language") (ascii "cpp")).bind fun _ =>
        Judge.readRequest machine req := rfl

/-- **The command line does what `ExecuteJudgeRequest` does**, if `language` can be read. -/
theorem main_eq {codec : Json.Codec} {machine : Machine} {ctx : LogContext} {text : Bytes}
    (hne : text ≠ []) : main codec machine ctx text = (readLanguage codec text).bind fun _ =>
      (executeJudgeRequest codec machine text).map (printed codec text) := by
  rw [main, if_neg hne, readLanguage, executeJudgeRequest]
  cases hparse : codec.parse text with
  | error what =>
    have hcode : exitCode codec text = 1 := by rw [exitCode, hparse]
    exact printDoc_eq hcode
  | ok req =>
    have hcode : exitCode codec text = 0 := by rw [exitCode, hparse]
    simp only [readRequest_eq]
    cases req.valueStr (ascii "language") (ascii "cpp") with
    | error e => rfl
    | ok language =>
      cases Judge.readRequest machine req with
      | error e => rfl
      | ok r =>
        show (if runShellCommand (machine.system r.compileCommand r.sourceCode) ≠ 0 then _
          else _) = Except.map _ (if _ then _ else _)
        split
        · exact printDoc_eq hcode
        · cases (req.find? (ascii "test_cases")).bind Json.items? with
          | none => exact printDoc_eq hcode
          | some cases =>
            have hloop : cases.foldlM (judgeCase machine r) .start =
                (cases.foldlM (Judge.judgeCase machine r) .start).map Progress.ofTally :=
              Except.foldlM_map (judgeCase_ofTally machine r) cases .start
            show (cases.foldlM (judgeCase machine r) .start).bind _ = Except.map _
              ((cases.foldlM (Judge.judgeCase machine r) .start).bind _)
            rw [hloop]
            cases cases.foldlM (Judge.judgeCase machine r) .start with
            | error e => rfl
            | ok t => exact printDoc_eq hcode

end JudgerCli

/-! ## 4. Which requests are answered

A request may fail to be read or fail to be printed.  Only for requests with neither does the extra
member make a difference. -/

section

variable {codec : Json.Codec} {machine : Machine} {text : Bytes}

/-- The request can be read, and what it leads to can be printed. -/
def Answerable (codec : Json.Codec) (machine : Machine) (text : Bytes) : Prop :=
  match codec.parse text with
  | .error what => Utf8.wellFormed what = true
  | .ok req => ∃ r, readRequest machine req = .ok r ∧
      if runShellCommand (machine.system r.compileCommand r.sourceCode) ≠ 0 then
        Utf8.wellFormed (machine.compileErr r.compileCommand r.sourceCode) = true
      else ∀ cases, (req.find? (ascii "test_cases")).bind Json.items? = some cases →
        ∀ k tc, cases[k]? = some tc → CaseAnswerable machine r k tc

theorem exists_dumpDoc (hdump : codec.DumpsUtf8) (doc : Json) :
    (∃ out, dumpDoc codec doc = .ok out) ↔ doc.utf8 = true := by
  rw [← hdump doc, Option.isSome_iff_exists]
  exact exists_congr fun out => dumpDoc_eq_ok

theorem parseErrorDoc_utf8 (what : Bytes) :
    (parseErrorDoc what).utf8 = Utf8.wellFormed what := by
  have hprefix : Utf8.wellFormed (ascii "JSON parse error: ") = true := by decide
  have hnames : Utf8.wellFormed (ascii "error") = true ∧
      Utf8.wellFormed (ascii "status") = true ∧
      Utf8.wellFormed (ascii "system_error") = true := by decide
  simp [parseErrorDoc, Json.utf8, Json.utf8Members, hnames, Utf8.wellFormed_append_left hprefix]

theorem compileErrorDoc_utf8 (err : Bytes) :
    (compileErrorDoc err).utf8 = Utf8.wellFormed err := by
  have hnames : Utf8.wellFormed (ascii "compile_error") = true ∧
      Utf8.wellFormed (ascii "results") = true ∧ Utf8.wellFormed (ascii "status") = true := by
    decide
  simp [compileErrorDoc, Json.utf8, Json.utf8Members, Json.utf8Items, hnames]

/-- **When `ExecuteJudgeRequest` has an answer**: `Answerable` is a condition on the text of the
request and on the machine, and nothing else can keep an answer from coming. -/
theorem answerable_iff (hdump : codec.DumpsUtf8) :
    (∃ out, executeJudgeRequest codec machine text = .ok out) ↔
      Answerable codec machine text := by
  unfold executeJudgeRequest Answerable
  cases codec.parse text with
  | error what =>
    show (∃ out, dumpDoc codec (parseErrorDoc what) = .ok out) ↔ _
    rw [exists_dumpDoc hdump, parseErrorDoc_utf8]
  | ok req =>
    show (∃ out, (readRequest machine req).bind _ = Except.ok out) ↔
      ∃ r, readRequest machine req = .ok r ∧ _
    cases readRequest machine req with
    | error e =>
      constructor
      · rintro ⟨out, ⟨⟩⟩
      · rintro ⟨r, ⟨⟩, -⟩
    | ok r =>
      simp only [Except.bind, Except.ok.injEq, exists_eq_left']
      split
      · rw [exists_dumpDoc hdump, compileErrorDoc_utf8]
      · cases (req.find? (ascii "test_cases")).bind Json.items? with
        | none =>
          have hfixed : noTestCasesDoc.utf8 = true := by decide
          have hout := (exists_dumpDoc hdump noTestCasesDoc).mpr hfixed
          exact ⟨fun _ => nofun, fun _ => hout⟩
        | some cases =>
          have hstart : Json.utf8Items Tally.start.results = true := rfl
          have hzero : ∀ k, Tally.start.total + k = k := Nat.zero_add
          have hloop := foldlM_judgeCase_utf8_iff machine r cases .start
          simp only [hstart, hzero, true_and] at hloop
          simp only [Option.some.injEq, forall_eq', ← hloop]
          constructor
          · rintro ⟨out, hout⟩
            obtain ⟨t, ht, hdoc⟩ := Except.bind_eq_ok.mp hout
            have hutf8 := (exists_dumpDoc hdump t.doc).mp ⟨out, hdoc⟩
            rw [Tally.doc_utf8] at hutf8
            exact ⟨t, ht, hutf8⟩
          · rintro ⟨t, ht, hutf8⟩
            rw [← Tally.doc_utf8] at hutf8
            obtain ⟨out, hdoc⟩ := (exists_dumpDoc hdump t.doc).mpr hutf8
            exact ⟨out, Except.bind_eq_ok.mpr ⟨t, ht, hdoc⟩⟩

/-! ## 5. Whether the front ends agree

Agreement is about the document and about raising, for one text and one environment. -/

/-- The document that the command line prints is the one that `ExecuteJudgeRequest` returns, and
one raises where the other does. -/
structure FrontEndsAgree (codec : Json.Codec) (machine : Machine) (ctx : JudgerCli.LogContext)
    (text : Bytes) : Prop where
  document : ∀ out,
    (∃ code, JudgerCli.main codec machine ctx text = .ok ⟨out ++ ascii "\n", code⟩) ↔
      executeJudgeRequest codec machine text = .ok out
  raises : (∃ e, JudgerCli.main codec machine ctx text = .error e) ↔
    ∃ e, executeJudgeRequest codec machine text = .error e

/-- `language` is absent or a text, if the request is an object. -/
def LanguageReadable (codec : Json.Codec) (text : Bytes) : Prop :=
  ∀ req, codec.parse text = .ok req → ∀ member, req.find? (ascii "language") = some member →
    ∃ language, member = .str language

/-- A `language` that is read is a text. -/
theorem languageReadable_of_read (h : JudgerCli.readLanguage codec text = .ok ()) :
    LanguageReadable codec text := by
  intro req hparse member hmember
  obtain ⟨members, rfl, hlookup⟩ : ∃ members, req = .obj members ∧
      members.lookup (ascii "language") = some member := by
    cases req with
    | obj members => exact ⟨members, rfl, hmember⟩
    | _ => cases hmember
  rw [JudgerCli.readLanguage, hparse] at h
  obtain ⟨language, hlanguage, -⟩ := Except.map_eq_ok.mp h
  rcases Json.value_obj_eq_ok.mp hlanguage with ⟨hnone, -⟩ | ⟨member', hmember', hget⟩
  · rw [hlookup] at hnone
    cases hnone
  · rw [hlookup] at hmember'
    rw [Option.some.inj hmember']
    exact ⟨language, Json.getStr_eq_ok.mp hget⟩

/-- In a request that is answered, a `language` that is a text is read. -/
theorem readLanguage_of_answerable (hlanguage : LanguageReadable codec text)
    (h : Answerable codec machine text) : JudgerCli.readLanguage codec text = .ok () := by
  unfold JudgerCli.readLanguage
  unfold Answerable at h
  cases hparse : codec.parse text with
  | error what => rfl
  | ok req =>
    rw [hparse] at h
    obtain ⟨r, hread, -⟩ := h
    obtain ⟨source, hsource, -⟩ := Except.bind_eq_ok.mp hread
    obtain ⟨members, rfl⟩ := Json.exists_obj_of_value hsource
    refine Except.map_eq_ok.mpr ?_
    cases hlookup : members.lookup (ascii "language") with
    | none => exact ⟨_, Json.value_obj_eq_ok.mpr (Or.inl ⟨hlookup, rfl⟩), rfl⟩
    | some member =>
      obtain ⟨language, rfl⟩ := hlanguage _ hparse member hlookup
      exact ⟨language, Json.value_obj_eq_ok.mpr (Or.inr ⟨_, hlookup, rfl⟩), rfl⟩

theorem agree_of_read {ctx : JudgerCli.LogContext} (hne : text ≠ [])
    (h : JudgerCli.readLanguage codec text = .ok ()) :
    FrontEndsAgree codec machine ctx text := by
  have hmain : JudgerCli.main codec machine ctx text =
      (executeJudgeRequest codec machine text).map (JudgerCli.printed codec text) := by
    rw [JudgerCli.main_eq hne, h]
    rfl
  constructor
  · intro out
    rw [hmain]
    constructor
    · rintro ⟨code, hout⟩
      obtain ⟨out', hexec, heq⟩ := Except.map_eq_ok.mp hout
      injection heq with htext
      rw [hexec, List.append_cancel_right htext]
    · intro hexec
      exact ⟨_, Except.map_eq_ok.mpr ⟨out, hexec, rfl⟩⟩
  · rw [hmain]
    cases executeJudgeRequest codec machine text with
    | error e => exact ⟨fun _ => ⟨e, rfl⟩, fun _ => ⟨e, rfl⟩⟩
    | ok out => exact ⟨nofun, nofun⟩

theorem agree_of_raise {ctx : JudgerCli.LogContext} {e e' : Json.Error}
    (hmain : JudgerCli.main codec machine ctx text = .error e)
    (hexec : executeJudgeRequest codec machine text = .error e') :
    FrontEndsAgree codec machine ctx text := by
  constructor
  · intro out
    rw [hmain, hexec]
    exact ⟨nofun, nofun⟩
  · exact ⟨fun _ => ⟨e', hexec⟩, fun _ => ⟨e, hmain⟩⟩

/-- **When the two front ends agree** on a text that is not empty: when `language` is absent or a
text, which the command line alone reads, or when neither has an answer anyway. -/
theorem frontEnds_agree_iff (codec : Json.Codec) (hdump : codec.DumpsUtf8) (machine : Machine)
    (ctx : JudgerCli.LogContext) {text : Bytes} (hne : text ≠ []) :
    FrontEndsAgree codec machine ctx text ↔
      (LanguageReadable codec text ∨ ¬ Answerable codec machine text) := by
  constructor
  · intro hagree
    by_cases hanswer : Answerable codec machine text
    · obtain ⟨out, hexec⟩ := (answerable_iff hdump).mpr hanswer
      obtain ⟨code, hmain⟩ := (hagree.document out).mpr hexec
      rw [JudgerCli.main_eq hne] at hmain
      obtain ⟨⟨⟩, hread, -⟩ := Except.bind_eq_ok.mp hmain
      exact Or.inl (languageReadable_of_read hread)
    · exact Or.inr hanswer
  · intro hcond
    cases hread : JudgerCli.readLanguage codec text with
    | ok => exact agree_of_read hne hread
    | error e =>
      have hnot : ¬ Answerable codec machine text := by
        rcases hcond with hlanguage | hnot
        · intro hanswer
          rw [readLanguage_of_answerable hlanguage hanswer] at hread
          cases hread
        · exact hnot
      have hmain : JudgerCli.main codec machine ctx text = .error e := by
        rw [JudgerCli.main_eq hne, hread]
        rfl
      cases hexec : executeJudgeRequest codec machine text with
      | error e' => exact agree_of_raise hmain hexec
      | ok out => exact absurd ((answerable_iff hdump).mp ⟨out, hexec⟩) hnot

end

/-! ## 6. Two requests

One on which they agree, and one on which they do not. -/

/-- A compiler that succeeds, and a program that writes nothing. -/
def quietMachine : Machine where
  judgerMaxTimeMs := none
  system _ _ := 0
  compileErr _ _ := []
  runProgram _ _ := ⟨.accepted, 1, 1, []⟩
  outFile _ _ := []

/-- A parser that reads every text as this document. -/
def readingCodec (doc : Json) : Json.Codec := Json.printing (.compact fun _ => []) fun _ => .ok doc

theorem frontEnds_agree_iff_cpp :
    FrontEndsAgree (readingCodec (.obj [(ascii "language", .str (ascii "cpp"))])) quietMachine
      ⟨ascii "judger_cli.cpp", ascii "2026-05-28 09:00:00.000"⟩ (ascii "request") :=
  (frontEnds_agree_iff _ (Json.printing_dumpsUtf8 _ _) quietMachine _ (by decide)).mpr <| by
    refine Or.inl fun req hparse member hmember => ?_
    obtain rfl := Except.ok.inj hparse
    obtain rfl := Option.some.inj hmember
    exact ⟨ascii "cpp", rfl⟩

/-- **The front ends disagree** on a request with a number for its language: the server answers that
there are no test cases, and the command line raises. -/
theorem not_always_agree :
    ¬ ∀ (codec : Json.Codec) (machine : Machine) (ctx : JudgerCli.LogContext) (text : Bytes),
      codec.DumpsUtf8 → text ≠ [] → FrontEndsAgree codec machine ctx text := by
  intro h
  have hagree := h (readingCodec (.obj [(ascii "language", .int 1)])) quietMachine
    ⟨ascii "judger_cli.cpp", ascii "2026-05-28 09:00:00.000"⟩ (ascii "request")
    (Json.printing_dumpsUtf8 _ _) (by decide)
  have hexec : executeJudgeRequest (readingCodec (.obj [(ascii "language", .int 1)]))
      quietMachine (ascii "request") =
        .ok (noTestCasesDoc.print (.compact fun _ => [])) := rfl
  obtain ⟨code, hmain⟩ := (hagree.document _).mpr hexec
  have hraise : JudgerCli.main (readingCodec (.obj [(ascii "language", .int 1)])) quietMachine
      ⟨ascii "judger_cli.cpp", ascii "2026-05-28 09:00:00.000"⟩ (ascii "request") =
        .error .type302 := rfl
  rw [hraise] at hmain
  cases hmain

end OnlineJudge.Judge
