/-
# The report against the runs

When a submission has compiled, `ExecuteJudgeRequest` runs it on each test case in turn and collects
one report for each, an overall status and four numbers.

What the loop collects is `Tally.ofRuns` of the list of the runs, for any request
(`foldlM_judgeCase_eq_ok`), so a statement about the document is one about that list.

* `summary_iff`: there is a document, and it sums up the runs, exactly when every test case can be
  read and what its run left can be printed.
* `comparison_iff`: the loop compares what is left of the output after the cut at 64 KB, and that is
  the comparison of the whole output exactly when the cut is harmless.

Only a request whose source compiles has a report.  What happens before that, and with a compiler
that is killed, is in `Judge.SandboxRunner`.
-/
import OnlineJudge.Judge.JudgerCli
import OnlineJudge.Judge.ResultSize

namespace OnlineJudge.Judge

open ByteString

/-! ## 1. The loop

A round runs the program on one test case and adds one report.  It raises where the test case is no
object of the right kind, and then there is no document at all. -/

/-- The request has been read as `r` with these test cases, and its source has compiled. -/
structure Compiles (codec : Json.Codec) (machine : Machine) (text : Bytes) (r : JudgeRequest)
    (cases : List Json) : Prop where
  read : ∃ req, codec.parse text = .ok req ∧ readRequest machine req = .ok r ∧
    (req.find? (ascii "test_cases")).bind Json.items? = some cases
  compiled : runShellCommand (machine.system r.compileCommand r.sourceCode) = 0

/-- This is the run of test case `k`, with the values that the program has read from the test case
and what the machine has made of them. -/
structure RunOf (machine : Machine) (r : JudgeRequest) (k : Nat) (tc : Json) (run : CaseRun) :
    Prop where
  id : tc.valueInt (ascii "id") 0 = .ok run.id
  expected : tc.valueStr (ascii "expected_output") [] = .ok run.expected
  ran : ∃ input, tc.valueStr (ascii "input") [] = .ok input ∧
    run.result = machine.runProgram k (r.runArgs run.id input) ∧
    run.output = machine.outFile k (r.runArgs run.id input)

/-- These are the runs of the test cases, in their order and one for each. -/
structure RunsOf (machine : Machine) (r : JudgeRequest) (cases : List Json)
    (runs : List CaseRun) : Prop where
  length : runs.length = cases.length
  each : ∀ (k : Nat) tc run, cases[k]? = some tc → runs[k]? = some run →
    RunOf machine r k tc run

section

variable {codec : Json.Codec} {machine : Machine} {text : Bytes} {r : JudgeRequest}
  {cases : List Json}

theorem RunOf.unique {k : Nat} {tc : Json} {run run' : CaseRun} (h : RunOf machine r k tc run)
    (h' : RunOf machine r k tc run') : run = run' := by
  obtain ⟨id, expected, result, output⟩ := run
  obtain ⟨id', expected', result', output'⟩ := run'
  obtain ⟨hid, hexpected, input, hinput, hresult, houtput⟩ := h
  obtain ⟨hid', hexpected', input', hinput', hresult', houtput'⟩ := h'
  obtain rfl : id = id' := Except.ok.inj (hid.symm.trans hid')
  obtain rfl : expected = expected' := Except.ok.inj (hexpected.symm.trans hexpected')
  obtain rfl : input = input' := Except.ok.inj (hinput.symm.trans hinput')
  simp_all

/-- One round of the loop, when it returns. -/
theorem judgeCase_eq_ok_run {t t' : Tally} {tc : Json} :
    judgeCase machine r t tc = .ok t' ↔
      ∃ run, RunOf machine r t.total tc run ∧
        t' = t.add run.id run.expected run.result run.output := by
  rw [judgeCase_eq_ok]
  constructor
  · rintro ⟨id, input, expected, hid, hinput, hexpected, rfl⟩
    exact ⟨⟨id, expected, _, _⟩, ⟨hid, hexpected, input, hinput, rfl, rfl⟩, rfl⟩
  · rintro ⟨⟨id, expected, result, output⟩, ⟨hid, hexpected, input, hinput, hresult, houtput⟩, rfl⟩
    dsimp only at hid hexpected hresult houtput ⊢
    exact ⟨id, input, expected, hid, hinput, hexpected, by rw [hresult, houtput]⟩

theorem RunsOf.append {runs : List CaseRun} {tc : Json} {run : CaseRun}
    (h : RunsOf machine r cases runs) (hrun : RunOf machine r runs.length tc run) :
    RunsOf machine r (cases ++ [tc]) (runs ++ [run]) where
  length := by simp [h.length]
  each := by
    intro k other otherRun hk hrunk
    rcases Nat.lt_or_ge k cases.length with hlt | hge
    · rw [List.getElem?_append_left hlt] at hk
      rw [List.getElem?_append_left (h.length.symm ▸ hlt)] at hrunk
      exact h.each k other otherRun hk hrunk
    · obtain rfl : k = cases.length := by
        have hlength := (List.getElem?_eq_some_iff.mp hk).1
        simp only [List.length_append, List.length_singleton] at hlength
        omega
      rw [List.getElem?_concat_length] at hk
      rw [← h.length, List.getElem?_concat_length] at hrunk
      obtain rfl := Option.some.inj hk
      obtain rfl := Option.some.inj hrunk
      exact h.length ▸ hrun

/-- **The loop, when it returns**: it has made a run for each test case, and collected the runs. -/
theorem foldlM_judgeCase_eq_ok {t : Tally} (h : cases.foldlM (judgeCase machine r) .start = .ok t) :
    ∃ runs, RunsOf machine r cases runs ∧ t = Tally.ofRuns runs := by
  induction cases using List.reverseRecOn generalizing t with
  | nil =>
    obtain rfl := Except.ok.inj h
    exact ⟨[], ⟨rfl, by simp⟩, rfl⟩
  | append_singleton cases tc ih =>
    rw [List.foldlM_append] at h
    obtain ⟨before, hbefore, hlast⟩ := Except.bind_eq_ok.mp h
    obtain ⟨runs, hruns, rfl⟩ := ih hbefore
    obtain ⟨after, hafter, hdone⟩ := Except.bind_eq_ok.mp hlast
    obtain rfl := Except.ok.inj hdone
    obtain ⟨run, hrun, rfl⟩ := judgeCase_eq_ok_run.mp hafter
    exact ⟨runs ++ [run], hruns.append hrun, Tally.add_ofRuns runs run⟩

theorem Compiles.execute (h : Compiles codec machine text r cases) :
    executeJudgeRequest codec machine text =
      (cases.foldlM (judgeCase machine r) .start).bind fun t => dumpDoc codec t.doc := by
  obtain ⟨req, hparse, hread, hcases⟩ := h.read
  simp only [executeJudgeRequest, hparse, hread, hcases, h.compiled, bind, Except.bind, ne_eq,
    not_true_eq_false, if_false]

/-! ## 2. Reading the document

What a statement says of the document it says of its members, read by name as a client would read
them. -/

/-- The text of a member. -/
def textOf (v : Json) (name : Bytes) : Option Bytes :=
  match v.find? name with
  | some (.str s) => some s
  | _ => none

/-- The number of a member. -/
def numberOf (v : Json) (name : Bytes) : Option Int :=
  match v.find? name with
  | some (.int n) => some n
  | _ => none

/-- The reports of a document. -/
def reportsOf (doc : Json) : List Json := ((doc.find? (ascii "results")).bind Json.items?).getD []

/-- The report says that the test has passed. -/
def reportsPass (report : Json) : Bool := textOf report (ascii "status") = some (ascii "accepted")

theorem textOf_status (run : CaseRun) :
    textOf run.doc (ascii "status") = some run.status.text := by
  unfold CaseRun.doc caseDoc
  split <;> split <;> rfl

theorem numberOf_id (run : CaseRun) : numberOf run.doc (ascii "test_case_id") = some run.id := by
  unfold CaseRun.doc caseDoc
  split <;> split <;> rfl

theorem numberOf_time (run : CaseRun) :
    numberOf run.doc (ascii "time_ms") = some run.result.timeMs := by
  unfold CaseRun.doc caseDoc
  split <;> split <;> rfl

theorem numberOf_memory (run : CaseRun) :
    numberOf run.doc (ascii "memory_kb") = some run.result.memoryKb := by
  unfold CaseRun.doc caseDoc
  split <;> split <;> rfl

theorem text_eq_accepted {status : CaseStatus} :
    status.text = ascii "accepted" ↔ status = .run .accepted := by
  cases status with
  | wrongAnswer => decide
  | run status => cases status <;> decide

theorem reportsPass_doc (run : CaseRun) :
    reportsPass run.doc = decide (run.status = .run .accepted) := by
  simp only [reportsPass, textOf_status, Option.some.injEq, text_eq_accepted]

/-! ## 3. The verdict on the submission

The overall status is overwritten by each run that was not accepted, so it is that of the last of
them, and `accepted` if there was none. -/

/-- It is that on some run that was not accepted, or all were. -/
theorem verdict_cases (runs : List CaseRun) :
    (verdict runs = .run .accepted ∧ ∀ run ∈ runs, run.status = .run .accepted) ∨
      (verdict runs ≠ .run .accepted ∧ ∃ run ∈ runs, run.status = verdict runs) := by
  unfold verdict
  cases hlast : ((runs.map CaseRun.status).filter (· ≠ .run .accepted)).getLast? with
  | none =>
    rw [List.getLast?_eq_none_iff, List.filter_eq_nil_iff] at hlast
    refine Or.inl ⟨rfl, fun run hrun => ?_⟩
    simpa using hlast run.status (List.mem_map_of_mem hrun)
  | some status =>
    obtain ⟨hmem, hne⟩ := List.mem_filter.mp (List.mem_of_getLast? hlast)
    obtain ⟨run, hrun, rfl⟩ := List.mem_map.mp hmem
    exact Or.inr ⟨by simpa using hne, run, hrun, rfl⟩

/-- **What the document has to say about the test cases**: one report for each, in order, with its
id and the numbers of its run; the overall status; and the four sums. -/
structure SumsUp (machine : Machine) (r : JudgeRequest) (cases : List Json) (doc : Json) :
    Prop where
  length : (reportsOf doc).length = cases.length
  each : ∀ (k : Nat) tc report, cases[k]? = some tc → (reportsOf doc)[k]? = some report →
    ∃ id input, tc.valueInt (ascii "id") 0 = .ok id ∧ tc.valueStr (ascii "input") [] = .ok input ∧
      numberOf report (ascii "test_case_id") = some id ∧
      numberOf report (ascii "time_ms") = some (machine.runProgram k (r.runArgs id input)).timeMs ∧
      numberOf report (ascii "memory_kb") =
        some (machine.runProgram k (r.runArgs id input)).memoryKb
  accepted : textOf doc (ascii "status") = some (ascii "accepted") ↔
    ∀ report ∈ reportsOf doc, textOf report (ascii "status") = some (ascii "accepted")
  rejected : textOf doc (ascii "status") ≠ some (ascii "accepted") →
    ∃ report ∈ reportsOf doc, ∃ status, status ≠ ascii "accepted" ∧
      textOf report (ascii "status") = some status ∧ textOf doc (ascii "status") = some status
  summary : ∃ summary, doc.find? (ascii "summary") = some summary ∧
    numberOf summary (ascii "total") = some cases.length ∧
    numberOf summary (ascii "passed") = some ((reportsOf doc).countP reportsPass) ∧
    numberOf summary (ascii "total_time_ms") =
      some ((reportsOf doc).filterMap fun report => numberOf report (ascii "time_ms")).sum ∧
    numberOf summary (ascii "peak_memory_kb") =
      some (((reportsOf doc).filterMap fun report => numberOf report (ascii "memory_kb")).foldl
        max 0)

theorem reportsOf_ofRuns (runs : List CaseRun) :
    reportsOf (Tally.ofRuns runs).doc = runs.map CaseRun.doc := rfl

theorem textOf_ofRuns (runs : List CaseRun) :
    textOf (Tally.ofRuns runs).doc (ascii "status") = some (verdict runs).text := rfl

/-- What the loop has collected sums up. -/
theorem RunsOf.sumsUp {runs : List CaseRun} (h : RunsOf machine r cases runs) :
    SumsUp machine r cases (Tally.ofRuns runs).doc where
  length := by rw [reportsOf_ofRuns, List.length_map, h.length]
  each := by
    intro k tc report htc hreport
    rw [reportsOf_ofRuns, List.getElem?_map] at hreport
    obtain ⟨run, hrun, rfl⟩ := Option.map_eq_some_iff.mp hreport
    obtain ⟨hid, -, input, hinput, hresult, -⟩ := h.each k tc run htc hrun
    refine ⟨run.id, input, hid, hinput, numberOf_id run, ?_, ?_⟩
    · rw [numberOf_time, hresult]
    · rw [numberOf_memory, hresult]
  accepted := by
    simp only [reportsOf_ofRuns, textOf_ofRuns, List.forall_mem_map, textOf_status,
      Option.some.injEq, text_eq_accepted]
    rcases verdict_cases runs with ⟨hall, hruns⟩ | ⟨hne, run, hrun, hstatus⟩
    · exact ⟨fun _ => hruns, fun _ => hall⟩
    · exact ⟨fun hall => absurd hall hne, fun hruns => hstatus ▸ hruns run hrun⟩
  rejected := by
    intro hne
    simp only [textOf_ofRuns, ne_eq, Option.some.injEq, text_eq_accepted] at hne
    rcases verdict_cases runs with ⟨hall, -⟩ | ⟨-, run, hrun, hstatus⟩
    · exact absurd hall hne
    · refine ⟨run.doc, List.mem_map_of_mem hrun, (verdict runs).text,
        fun htext => hne (text_eq_accepted.mp htext), ?_, textOf_ofRuns runs⟩
      rw [textOf_status, hstatus]
  summary := by
    have hpass : (reportsOf (Tally.ofRuns runs).doc).countP reportsPass = passedRuns runs := by
      rw [reportsOf_ofRuns, List.countP_map, passedRuns]
      exact congrArg (List.countP · runs) (funext reportsPass_doc)
    have htime : ((reportsOf (Tally.ofRuns runs).doc).filterMap fun report =>
        numberOf report (ascii "time_ms")) = runs.map fun run => run.result.timeMs := by
      rw [reportsOf_ofRuns, List.filterMap_map, ← List.filterMap_eq_map]
      exact congrArg (List.filterMap · runs) (funext numberOf_time)
    have hmemory : ((reportsOf (Tally.ofRuns runs).doc).filterMap fun report =>
        numberOf report (ascii "memory_kb")) = runs.map fun run => run.result.memoryKb := by
      rw [reportsOf_ofRuns, List.filterMap_map, ← List.filterMap_eq_map]
      exact congrArg (List.filterMap · runs) (funext numberOf_memory)
    rw [hpass, htime, hmemory, ← h.length]
    exact ⟨_, rfl, rfl, rfl, rfl, rfl⟩

/-- **When a compiled submission is reported on.**  `ExecuteJudgeRequest` returns a document that
sums up the runs, exactly when every test case can be read and what its run left can be printed. -/
theorem summary_iff (hdump : codec.DumpsUtf8) (h : Compiles codec machine text r cases) :
    (∃ out doc, executeJudgeRequest codec machine text = .ok out ∧ codec.dump doc = some out ∧
        SumsUp machine r cases doc) ↔
      ∀ k tc, cases[k]? = some tc → CaseAnswerable machine r k tc := by
  have hstart : Json.utf8Items Tally.start.results = true := rfl
  have hzero : ∀ k, Tally.start.total + k = k := Nat.zero_add
  have hloop := foldlM_judgeCase_utf8_iff machine r cases .start
  simp only [hstart, hzero, true_and] at hloop
  rw [h.execute, ← hloop]
  constructor
  · rintro ⟨out, -, hout, -, -⟩
    obtain ⟨t, ht, hdoc⟩ := Except.bind_eq_ok.mp hout
    refine ⟨t, ht, ?_⟩
    rw [← Tally.doc_utf8, ← exists_dumpDoc hdump]
    exact ⟨out, hdoc⟩
  · rintro ⟨t, ht, hutf8⟩
    rw [← Tally.doc_utf8, ← exists_dumpDoc hdump] at hutf8
    obtain ⟨out, hdoc⟩ := hutf8
    obtain ⟨runs, hruns, rfl⟩ := foldlM_judgeCase_eq_ok ht
    exact ⟨out, _, Except.bind_eq_ok.mpr ⟨_, ht, hdoc⟩, dumpDoc_eq_ok.mp hdoc, hruns.sumsUp⟩

/-- A request with one test case, and defaults for all the rest. -/
def oneCase (expected : Bytes) : Json :=
  .obj [(ascii "test_cases", .arr [.obj [(ascii "expected_output", .str expected)]])]

/-- A machine on which every source compiles, and every program writes this and is accepted. -/
def writingMachine (output : Bytes) : Machine := { quietMachine with outFile := fun _ _ => output }

theorem compiles_oneCase (expected output : Bytes) :
    ∃ r, Compiles (readingCodec (oneCase expected)) (writingMachine output) (ascii "request") r
      [.obj [(ascii "expected_output", .str expected)]] :=
  ⟨_, ⟨_, rfl, rfl, rfl⟩, rfl⟩

theorem summary_iff_oneCase :
    ∃ r, ∃ out doc, executeJudgeRequest (readingCodec (oneCase (ascii "3")))
        (writingMachine (ascii "3\n")) (ascii "request") = .ok out ∧
      (readingCodec (oneCase (ascii "3"))).dump doc = some out ∧
      SumsUp (writingMachine (ascii "3\n")) r [.obj [(ascii "expected_output", .str (ascii "3"))]]
        doc := by
  obtain ⟨r, hr⟩ := compiles_oneCase (ascii "3") (ascii "3\n")
  refine ⟨r, (summary_iff (Json.printing_dumpsUtf8 _ _) hr).mpr fun k tc htc => ?_⟩
  obtain ⟨rfl, rfl⟩ : k = 0 ∧ .obj [(ascii "expected_output", .str (ascii "3"))] = tc := by
    cases k with
    | zero => exact ⟨rfl, Option.some.inj htc⟩
    | succ k => cases htc
  have hprint : Utf8.wellFormed (actualOutput (ascii "3\n")) = true := by decide
  exact ⟨0, [], ascii "3", rfl, rfl, rfl, by decide, hprint, fun hne => absurd rfl hne⟩

/-- **A compiled submission can be left without a report.**  The program writes the byte 0xFF, and
printing the document raises. -/
theorem not_always_summary :
    ¬ ∀ (codec : Json.Codec) (machine : Machine) (text : Bytes) (r : JudgeRequest)
      (cases : List Json), codec.DumpsUtf8 → Compiles codec machine text r cases →
        ∃ out doc, executeJudgeRequest codec machine text = .ok out ∧ codec.dump doc = some out ∧
          SumsUp machine r cases doc := by
  intro h
  obtain ⟨r, hr⟩ := compiles_oneCase [] [0xFF]
  obtain ⟨out, doc, hout, -, -⟩ := h _ _ _ r _ (Json.printing_dumpsUtf8 _ _) hr
  have hraise : executeJudgeRequest (readingCodec (oneCase [])) (writingMachine [0xFF])
      (ascii "request") = .error .utf8Text := rfl
  cases hraise.symm.trans hout

end

/-! ## 4. The comparison

The output is cut first and normalised then.  Where the cut falls into blanks, or decides nothing,
that is the same as comparing all of it. -/

/-- What `NormalizeOutput` takes off the end. -/
def isBlank (b : UInt8) : Bool := b == 10 || b == 13 || b == 32 || b == 9

/-- Two texts are the same but for blanks at their ends, which is what a comparison of outputs is
meant to say. -/
def SameText (a b : Bytes) : Prop :=
  ∃ text s t, a = text ++ s ∧ b = text ++ t ∧ (∀ c ∈ s, isBlank c = true) ∧
    ∀ c ∈ t, isBlank c = true

theorem normalizeOutput_eq_rdropWhile (text : Bytes) :
    normalizeOutput text = text.rdropWhile isBlank := rfl

theorem normalizeOutput_append_blank (a : Bytes) {b : Bytes} (hb : ∀ c ∈ b, isBlank c = true) :
    normalizeOutput (a ++ b) = normalizeOutput a := by
  have hnil : b.reverse.dropWhile isBlank = [] :=
    List.dropWhile_eq_nil_iff.mpr fun c hc => hb c (List.mem_reverse.mp hc)
  rw [normalizeOutput_eq_rdropWhile, List.rdropWhile, List.reverse_append, List.dropWhile_append,
    hnil, if_pos List.isEmpty_nil]
  rfl

/-- What is in front of anything else stays. -/
theorem normalizeOutput_append_text (a : Bytes) {b : Bytes}
    (hb : ¬ ∀ c ∈ b, isBlank c = true) : normalizeOutput (a ++ b) = a ++ normalizeOutput b := by
  have hne : ¬ (b.reverse.dropWhile isBlank).isEmpty = true := by
    rw [List.isEmpty_iff, List.dropWhile_eq_nil_iff]
    intro hall
    exact hb fun c hc => hall c (List.mem_reverse.mpr hc)
  rw [normalizeOutput_eq_rdropWhile, List.rdropWhile, List.reverse_append, List.dropWhile_append,
    if_neg hne, List.reverse_append, List.reverse_reverse]
  rfl

/-- **`NormalizeOutput` compares texts up to blanks at their ends.** -/
theorem normalizeOutput_eq_iff (a b : Bytes) :
    normalizeOutput a = normalizeOutput b ↔ SameText a b := by
  constructor
  · intro h
    refine ⟨normalizeOutput a, a.rtakeWhile isBlank, b.rtakeWhile isBlank, ?_, ?_,
      fun c hc => List.mem_rtakeWhile_imp hc, fun c hc => List.mem_rtakeWhile_imp hc⟩
    · exact List.rdropWhile_append_rtakeWhile.symm
    · rw [h]
      exact List.rdropWhile_append_rtakeWhile.symm
  · rintro ⟨text, s, t, rfl, rfl, hs, ht⟩
    rw [normalizeOutput_append_blank text hs, normalizeOutput_append_blank text ht]

/-- What is cut off can be dropped only if it is blank. -/
theorem blank_of_normalizeOutput_eq {a b : Bytes}
    (h : normalizeOutput (a ++ b) = normalizeOutput a) : ∀ c ∈ b, isBlank c = true := by
  by_contra hb
  rw [normalizeOutput_append_text a hb] at h
  have hle : (normalizeOutput a).length ≤ a.length :=
    (List.rdropWhile_prefix isBlank a).length_le
  have hnil : normalizeOutput b = [] := by
    rw [← List.length_eq_zero_iff]
    have hlength := congrArg List.length h
    rw [List.length_append] at hlength
    omega
  exact hb (List.rdropWhile_eq_nil_iff.mp hnil)

/-- **The cut is harmless**: it takes nothing but blanks, or the expected text is neither the whole
output nor what is left of it. -/
def CutHarmless (output expected : Bytes) : Prop :=
  (∀ b ∈ output.drop maxActualOutput, isBlank b = true) ∨
    (¬ SameText output expected ∧ ¬ SameText (output.take maxActualOutput) expected)

/-- When comparing what is left is comparing the output. -/
theorem cutHarmless_iff (output expected : Bytes) :
    ((normalizeOutput (actualOutput output) = normalizeOutput expected ↔
      normalizeOutput output = normalizeOutput expected) ↔ CutHarmless output expected) := by
  have hsplit : actualOutput output ++ output.drop maxActualOutput = output :=
    List.take_append_drop _ _
  unfold CutHarmless
  rw [← normalizeOutput_eq_iff, ← normalizeOutput_eq_iff, ← actualOutput]
  constructor
  · intro h
    by_cases hwhole : normalizeOutput output = normalizeOutput expected
    · left
      refine blank_of_normalizeOutput_eq (a := actualOutput output) ?_
      rw [hsplit, hwhole, h.mpr hwhole]
    · exact Or.inr ⟨hwhole, fun hcut => hwhole (h.mp hcut)⟩
  · rintro (hblank | ⟨hwhole, hcut⟩)
    · have hsame : normalizeOutput output = normalizeOutput (actualOutput output) := by
        conv_lhs => rw [← hsplit]
        rw [normalizeOutput_append_blank _ hblank]
      rw [hsame]
    · exact ⟨fun h => absurd h hcut, fun h => absurd h hwhole⟩

/-- The test's result is that of comparing the whole output, up to the blanks that the comparison
drops on purpose. -/
def ComparedExactly (doc : Json) (k : Nat) (run : CaseRun) : Prop :=
  ∃ report, (reportsOf doc)[k]? = some report ∧
    (textOf report (ascii "status") = some (ascii "accepted") ↔
      normalizeOutput run.output = normalizeOutput run.expected)

/-- **When the comparison is exact.**  A test case of a compiled submission whose run was accepted:
its result says whether the complete output is the expected one up to blanks at the end, exactly
when the cut is harmless. -/
theorem comparison_iff {codec : Json.Codec} {machine : Machine} {text : Bytes} {r : JudgeRequest}
    {cases : List Json} (h : Compiles codec machine text r cases) {t : Tally}
    (hloop : cases.foldlM (judgeCase machine r) .start = .ok t) {k : Nat} {tc : Json}
    {run : CaseRun} (htc : cases[k]? = some tc) (hrun : RunOf machine r k tc run)
    (haccepted : run.result.status = .accepted) :
    executeJudgeRequest codec machine text = dumpDoc codec t.doc ∧
      (ComparedExactly t.doc k run ↔ CutHarmless run.output run.expected) := by
  have hexecute : executeJudgeRequest codec machine text = dumpDoc codec t.doc := by
    rw [h.execute, hloop]
    rfl
  obtain ⟨runs, hruns, rfl⟩ := foldlM_judgeCase_eq_ok hloop
  have hk : k < runs.length := by
    rw [hruns.length]
    exact (List.getElem?_eq_some_iff.mp htc).1
  obtain rfl : runs[k] = run :=
    (hruns.each k tc _ htc (List.getElem?_eq_getElem hk)).unique hrun
  have hreport : (reportsOf (Tally.ofRuns runs).doc)[k]? = some runs[k].doc := by
    rw [reportsOf_ofRuns, List.getElem?_map, List.getElem?_eq_getElem hk]
    rfl
  have hstatus : runs[k].status = .run .accepted ↔
      normalizeOutput (actualOutput runs[k].output) = normalizeOutput runs[k].expected := by
    rw [CaseRun.status, caseStatus, if_pos haccepted]
    split <;> simp [*]
  refine ⟨hexecute, ?_⟩
  simp only [ComparedExactly, hreport, Option.some.injEq, exists_eq_left', textOf_status,
    text_eq_accepted, hstatus]
  exact cutHarmless_iff _ _

theorem comparison_iff_oneCase :
    ∃ t, executeJudgeRequest (readingCodec (oneCase (ascii "3"))) (writingMachine (ascii "3\n"))
        (ascii "request") = dumpDoc (readingCodec (oneCase (ascii "3"))) t ∧
      ComparedExactly t 0
        ⟨0, ascii "3", (writingMachine (ascii "3\n")).runProgram 0 ⟨[], [], [], [], [], 0, 0⟩,
          ascii "3\n"⟩ := by
  obtain ⟨r, hr⟩ := compiles_oneCase (ascii "3") (ascii "3\n")
  have hran : RunOf (writingMachine (ascii "3\n")) r 0
      (.obj [(ascii "expected_output", .str (ascii "3"))])
      ⟨0, ascii "3", (writingMachine (ascii "3\n")).runProgram 0 ⟨[], [], [], [], [], 0, 0⟩,
        ascii "3\n"⟩ := ⟨rfl, rfl, [], rfl, rfl, rfl⟩
  obtain ⟨hexecute, hexact⟩ := comparison_iff hr rfl rfl hran rfl
  exact ⟨_, hexecute, hexact.mpr (Or.inl (by decide +kernel))⟩

/-- **A wrong output can be accepted.**  The output is the expected one and one byte more, behind
the cut. -/
theorem not_always_compared :
    ¬ ∀ (codec : Json.Codec) (machine : Machine) (text : Bytes) (r : JudgeRequest)
      (cases : List Json) (t : Tally) (k : Nat) (tc : Json) (run : CaseRun),
      Compiles codec machine text r cases →
        cases.foldlM (judgeCase machine r) .start = .ok t → cases[k]? = some tc →
          RunOf machine r k tc run → run.result.status = .accepted →
            ComparedExactly t.doc k run := by
  intro h
  let expected : Bytes := List.replicate maxActualOutput 97
  obtain ⟨r, hr⟩ := compiles_oneCase expected (expected ++ [98])
  have hactual : actualOutput (expected ++ [98]) = expected := by
    rw [actualOutput, List.take_append_of_le_length (by simp [expected]), List.take_of_length_le]
    simp [expected]
  obtain ⟨report, hreport, hiff⟩ := h (readingCodec (oneCase expected))
    (writingMachine (expected ++ [98])) (ascii "request") r
    [.obj [(ascii "expected_output", .str expected)]] _ 0 _
    ⟨0, expected, (writingMachine (expected ++ [98])).runProgram 0 (r.runArgs 0 []),
      expected ++ [98]⟩ hr rfl rfl ⟨rfl, rfl, [], rfl, rfl, rfl⟩ rfl
  obtain rfl := Option.some.inj hreport
  have hpass : CaseStatus.run .accepted = caseStatus expected
      ((writingMachine (expected ++ [98])).runProgram 0 (r.runArgs 0 []))
      (actualOutput (expected ++ [98])) := by
    have hrun : ((writingMachine (expected ++ [98])).runProgram 0 (r.runArgs 0 [])).status =
        .accepted := rfl
    rw [hactual, caseStatus, if_pos hrun, if_pos rfl]
  have hsame := hiff.mp (by
    refine (textOf_status ⟨0, expected, _, expected ++ [98]⟩).trans ?_
    exact congrArg some (text_eq_accepted.mpr hpass.symm))
  have hblank := blank_of_normalizeOutput_eq hsame 98 List.mem_cons_self
  exact absurd hblank (by decide)

end OnlineJudge.Judge
