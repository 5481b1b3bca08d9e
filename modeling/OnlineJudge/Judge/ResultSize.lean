/-
# The size of a result

`ExecuteJudgeRequest` reports every test case with the whole expected output and up to 64 KB of the
actual one, so the document has no bound: it grows with the number of test cases and with the texts.

This module computes its size from the runs.  The document is taken as MySQL prints it, with a blank
behind each comma and each colon.

* `tally_eq`: what the loop accumulates, in terms of the list of the runs.
* `length_print_judgeDoc`: the printed document has exactly `resultSize` bytes.

What the loop accumulates is first said of the list of the runs, and then measured.  So nothing here
depends on how the loop is written but `tally_eq`.
-/
import Mathlib.Data.List.Induction
import OnlineJudge.Judge.Executor
import OnlineJudge.Lib.JsonText

namespace OnlineJudge.Judge

open ByteString

/-! ## 1. The runs

A run is what is known of a test case once it is over.  The verdict on a submission, its time and
its memory are functions of the list of them. -/

/-- The run of one test case: what the request says about the case, and what the machine did. -/
structure CaseRun where
  id : Int
  expected : Bytes
  result : RunResult
  output : Bytes

namespace CaseRun

/-- The verdict on it. -/
def status (c : CaseRun) : CaseStatus := caseStatus c.expected c.result (actualOutput c.output)

/-- Its report. -/
def doc (c : CaseRun) : Json := caseDoc c.id c.expected c.result c.output

end CaseRun

/-- The runs for the test cases of a payload. -/
def caseRuns (machine : Machine) (r : JudgeRequest) (testCases : List TestCase) : List CaseRun :=
  testCases.mapIdx fun k tc =>
    { id := Json.toInt32 tc.id
      expected := tc.output
      result := machine.runProgram k (caseArgs r tc)
      output := machine.outFile k (caseArgs r tc) }

/-- The number of runs that were accepted. -/
def passedRuns (runs : List CaseRun) : Nat := runs.countP fun c => c.status = .run .accepted

/-- The verdict on the submission: that on the last run that was not accepted, and `accepted` if all
were. -/
def verdict (runs : List CaseRun) : CaseStatus :=
  ((runs.map CaseRun.status).filter (· ≠ .run .accepted)).getLast?.getD (.run .accepted)

/-- The time of all runs. -/
def totalTimeMs (runs : List CaseRun) : Int := (runs.map fun c => c.result.timeMs).sum

/-- The memory of the run that took most. -/
def peakMemoryKb (runs : List CaseRun) : Int :=
  (runs.map fun c => c.result.memoryKb).foldl max 0

/-- What the loop has accumulated after these runs. -/
def Tally.ofRuns (runs : List CaseRun) : Tally where
  status := verdict runs
  results := runs.map CaseRun.doc
  total := runs.length
  passed := passedRuns runs
  totalTimeMs := Judge.totalTimeMs runs
  peakMemoryKb := Judge.peakMemoryKb runs

theorem Tally.add_ofRuns (runs : List CaseRun) (c : CaseRun) :
    (Tally.ofRuns runs).add c.id c.expected c.result c.output = Tally.ofRuns (runs ++ [c]) := by
  have hstatus : caseStatus c.expected c.result (actualOutput c.output) = c.status := rfl
  have hpeak : Judge.peakMemoryKb (runs ++ [c]) =
      if c.result.memoryKb > Judge.peakMemoryKb runs then c.result.memoryKb
      else Judge.peakMemoryKb runs := by
    rw [Judge.peakMemoryKb, List.map_append, List.foldl_append, ← Judge.peakMemoryKb,
      List.map_singleton, List.foldl_cons, List.foldl_nil]
    split <;> omega
  have htime : Judge.totalTimeMs (runs ++ [c]) = Judge.totalTimeMs runs + c.result.timeMs := by
    simp [Judge.totalTimeMs]
  have hverdict : verdict (runs ++ [c]) =
      if c.status = .run .accepted then verdict runs else c.status := by
    split <;> simp [verdict, *]
  have hpassed : passedRuns (runs ++ [c]) =
      if c.status = .run .accepted then passedRuns runs + 1 else passedRuns runs := by
    split <;> simp [passedRuns, *]
  simp only [Tally.add, Tally.ofRuns, hstatus, hpeak, htime, hverdict, hpassed, List.map_append,
    List.length_append]
  rfl

/-- **What the loop accumulates** can be read off the list of all runs, so that the loop is not
needed any more. -/
theorem tally_eq (machine : Machine) (r : JudgeRequest) (testCases : List TestCase) :
    tally machine r testCases = Tally.ofRuns (caseRuns machine r testCases) := by
  induction testCases using List.reverseRecOn with
  | nil => rfl
  | append_singleton testCases tc ih =>
    have hlength : (caseRuns machine r testCases).length = testCases.length := List.length_mapIdx
    have hruns : caseRuns machine r (testCases ++ [tc]) = caseRuns machine r testCases ++
        [{ id := Json.toInt32 tc.id
           expected := tc.output
           result := machine.runProgram testCases.length (caseArgs r tc)
           output := machine.outFile testCases.length (caseArgs r tc) }] := List.mapIdx_concat
    rw [hruns, ← Tally.add_ofRuns, ← ih, tally, List.foldl_append, ← tally, ih]
    simp only [List.foldl_cons, List.foldl_nil, addCase, Tally.ofRuns, hlength]

/-! ## 2. Sizes

A size is a number of characters, names and separators included.  Numbers take as many as they have
digits, with a sign. -/

/-- The number of characters of a number. -/
def digits (n : Int) : Nat := (decimalInt n).length

/-- The size of the report of one test case. -/
def CaseRun.size (c : CaseRun) : Nat :=
  104 + Json.escapedLength (actualOutput c.output) +
    (if c.output.length > maxActualOutput then 26 else 0) + Json.escapedLength c.expected +
    digits c.result.memoryKb + c.status.text.length +
    (if c.result.status = .accepted then 0 else 14 + Json.escapedLength c.result.stderrTxt) +
    digits c.id + digits c.result.timeMs

/-- The size of a document with the reports of these runs. -/
def reportSize (runs : List CaseRun) : Nat :=
  127 + (runs.map CaseRun.size).sum + 2 * (runs.length - 1) + (verdict runs).text.length +
    digits (passedRuns runs) + digits (peakMemoryKb runs) + digits runs.length +
    digits (totalTimeMs runs)

/-- The size of the document for a payload. -/
def resultSize (machine : Machine) (r : JudgeRequest) (testCases : List TestCase) : Nat :=
  if runShellCommand (machine.system r.compileCommand r.sourceCode) ≠ 0 then
    63 + Json.escapedLength (machine.compileErr r.compileCommand r.sourceCode)
  else reportSize (caseRuns machine r testCases)

theorem resultSize_pos (machine : Machine) (r : JudgeRequest) (testCases : List TestCase) :
    0 < resultSize machine r testCases := by
  unfold resultSize reportSize
  split <;> omega

/-! ## 3. The size of the document

Member by member, for the two kinds of objects in a result: the report of one case, and the whole.
-/

/-- The texts of a status have no characters that are escaped. -/
theorem escapedLength_caseStatus (status : CaseStatus) :
    Json.escapedLength status.text = status.text.length := by
  cases status with
  | wrongAnswer => decide
  | run status => cases status <;> decide

section

variable (float : Rat → Bytes)

/-- The size of a member, under a name without characters that are escaped. -/
theorem memberLength_of_name (name : String)
    (h : Json.escapedLength (ascii name) = name.length) (v : Json) :
    Json.memberLength (.spaced float) (ascii name, v) =
      name.length + 4 + (v.print (.spaced float)).length := by
  rw [Json.memberLength, h]
  rfl

theorem memberLength_int (name : String) (h : Json.escapedLength (ascii name) = name.length)
    (n : Int) : Json.memberLength (.spaced float) (ascii name, .int n) =
      name.length + 4 + digits n := memberLength_of_name float name h (.int n)

theorem memberLength_str (name : String) (h : Json.escapedLength (ascii name) = name.length)
    (s : Bytes) : Json.memberLength (.spaced float) (ascii name, .str s) =
      name.length + 6 + Json.escapedLength s := by
  rw [memberLength_of_name float name h, Json.print, Json.length_quote]
  omega

theorem length_print_caseDoc (c : CaseRun) : (c.doc.print (.spaced float)).length = c.size := by
  have hactual : Json.memberLength (.spaced float)
      (ascii "actual_output", .str (actualOutput c.output)) =
        19 + Json.escapedLength (actualOutput c.output) :=
    memberLength_str float "actual_output" (by decide) _
  have hcut : Json.memberLength (.spaced float) (ascii "actual_truncated", .bool true) = 24 :=
    memberLength_of_name float "actual_truncated" (by decide) _
  have hexpected : Json.memberLength (.spaced float) (ascii "expected_output", .str c.expected) =
      21 + Json.escapedLength c.expected := memberLength_str float "expected_output" (by decide) _
  have hmemory : Json.memberLength (.spaced float) (ascii "memory_kb", .int c.result.memoryKb) =
      13 + digits c.result.memoryKb := memberLength_int float "memory_kb" (by decide) _
  have hstatus : Json.memberLength (.spaced float) (ascii "status", .str c.status.text) =
      12 + c.status.text.length := by
    rw [← escapedLength_caseStatus]
    exact memberLength_str float "status" (by decide) _
  have hstderr : Json.memberLength (.spaced float) (ascii "stderr", .str c.result.stderrTxt) =
      12 + Json.escapedLength c.result.stderrTxt := memberLength_str float "stderr" (by decide) _
  have hid : Json.memberLength (.spaced float) (ascii "test_case_id", .int c.id) =
      16 + digits c.id := memberLength_int float "test_case_id" (by decide) _
  have htime : Json.memberLength (.spaced float) (ascii "time_ms", .int c.result.timeMs) =
      11 + digits c.result.timeMs := memberLength_int float "time_ms" (by decide) _
  have hcomma : (Json.Style.spaced float).comma.length = 2 := rfl
  have hverdict : caseStatus c.expected c.result (actualOutput c.output) = c.status := rfl
  rw [CaseRun.doc, caseDoc, Json.length_print_obj, hverdict, hcomma, CaseRun.size]
  -- with and without the two members that a report need not have
  by_cases hlong : c.output.length > maxActualOutput <;>
    by_cases haccepted : c.result.status = .accepted <;>
    simp only [hlong, haccepted, if_true, if_false, List.map_append, List.map_cons,
      List.map_nil, List.sum_append, List.sum_cons, List.sum_nil, List.length_append,
      List.length_cons, List.length_nil, hactual, hcut, hexpected, hmemory, hstatus, hstderr, hid,
      htime] <;>
    omega

/-- The size of the document with the reports. -/
theorem length_print_ofRuns (runs : List CaseRun) :
    ((Tally.ofRuns runs).doc.print (.spaced float)).length = reportSize runs := by
  have hcomma : (Json.Style.spaced float).comma.length = 2 := rfl
  have hcompile : Json.memberLength (.spaced float) (ascii "compile_error", .null) = 21 :=
    memberLength_of_name float "compile_error" (by decide) _
  have hresults : Json.memberLength (.spaced float)
      (ascii "results", .arr (runs.map CaseRun.doc)) =
        13 + (runs.map CaseRun.size).sum + 2 * (runs.length - 1) := by
    have hsizes : (runs.map CaseRun.doc).map (fun v => (v.print (.spaced float)).length) =
        runs.map CaseRun.size := by
      rw [List.map_map]
      exact List.map_congr_left fun c _ => length_print_caseDoc float c
    rw [memberLength_of_name float "results" (by decide), Json.length_print_arr, hsizes, hcomma,
      List.length_map]
    show 7 + 4 + _ = _
    omega
  have hstatus : Json.memberLength (.spaced float) (ascii "status", .str (verdict runs).text) =
      12 + (verdict runs).text.length := by
    rw [← escapedLength_caseStatus]
    exact memberLength_str float "status" (by decide) _
  have hpassed : Json.memberLength (.spaced float) (ascii "passed", .int (passedRuns runs)) =
      10 + digits (passedRuns runs) := memberLength_int float "passed" (by decide) _
  have hpeak : Json.memberLength (.spaced float)
      (ascii "peak_memory_kb", .int (peakMemoryKb runs)) = 18 + digits (peakMemoryKb runs) :=
    memberLength_int float "peak_memory_kb" (by decide) _
  have htotal : Json.memberLength (.spaced float) (ascii "total", .int runs.length) =
      9 + digits runs.length := memberLength_int float "total" (by decide) _
  have htime : Json.memberLength (.spaced float)
      (ascii "total_time_ms", .int (totalTimeMs runs)) = 17 + digits (totalTimeMs runs) :=
    memberLength_int float "total_time_ms" (by decide) _
  have hsummary : ∀ v, Json.memberLength (.spaced float) (ascii "summary", v) =
      11 + (v.print (.spaced float)).length :=
    memberLength_of_name float "summary" (by decide)
  simp only [Tally.doc, Tally.ofRuns, Json.length_print_obj, List.map_cons, List.map_nil,
    List.sum_cons, List.sum_nil, List.length_cons, List.length_nil, hcomma, hcompile, hresults,
    hstatus, hsummary, hpassed, hpeak, htotal, htime, reportSize]
  omega

/-- **The size of the document** as MySQL prints it: the parts that are always there, and the report
of each case. -/
theorem length_print_judgeDoc (machine : Machine) (r : JudgeRequest) (testCases : List TestCase) :
    ((judgeDoc machine r testCases).print (.spaced float)).length =
      resultSize machine r testCases := by
  unfold judgeDoc resultSize
  split
  · have hcomma : (Json.Style.spaced float).comma.length = 2 := rfl
    have hcompile : ∀ text, Json.memberLength (.spaced float) (ascii "compile_error", .str text) =
        19 + Json.escapedLength text := memberLength_str float "compile_error" (by decide)
    have hresults : Json.memberLength (.spaced float) (ascii "results", .arr []) = 13 :=
      memberLength_of_name float "results" (by decide) _
    have hstatus : Json.memberLength (.spaced float)
        (ascii "status", .str (ascii "compile_error")) = 25 :=
      memberLength_str float "status" (by decide) _
    simp only [compileErrorDoc, Json.length_print_obj, List.map_cons, List.map_nil, List.sum_cons,
      List.sum_nil, List.length_cons, List.length_nil, hcomma, hcompile, hresults, hstatus]
    omega
  · rw [tally_eq]
    exact length_print_ofRuns float _

end

end OnlineJudge.Judge
