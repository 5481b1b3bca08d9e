/-
# What the sandbox makes of a child process

`sandbox_runner.cpp` has two functions that wait for a process and reduce its wait status:
`RunShellCommand`, for the compiler, and `RunProgramWithLimits`, for the submission.

`RunProgramWithLimits` polls with `wait4` until the child is reaped, is overdue and is killed, or
`wait4` fails.  What is classified then is the status word and the usage as the last call left them,
and a call that fails leaves the status word at 0 and the usage as it was on the stack.

* `limits_iff`: an accepted run has ended with exit code 0 and inside its limits, exactly when the
  run does not end with a failing `wait4` that looks like that, or with an exit that is late.
* `guardsTests_iff`: the tests are run only after a compile that ended with exit code 0, exactly
  when the compiler was not killed by a signal (and its messages can be printed).

The child itself is not modelled: what it does shows in what `wait4` returns and in the clock, and
both may be anything.  Whether the limits that it sets itself hold is the kernel's business.
-/
import OnlineJudge.Judge.Report

namespace OnlineJudge.Judge

open ByteString

/-! ## 1. Wait statuses

A status word has its parts in fixed bits.  `WEXITSTATUS` of a process that was killed is 0, and
only `WIFEXITED` would tell. -/

def wTermSig (status : Int) : Int := status % 2 ^ 7

def wIfExited (status : Int) : Bool := wTermSig status == 0

def wExitStatus (status : Int) : Int := status / 2 ^ 8 % 2 ^ 8

/-- `WIFSIGNALED`: the signal and one, as a `signed char`, shifted right. -/
def wIfSignaled (status : Int) : Bool := (wTermSig status + 1).bmod (2 ^ 8) / 2 > 0

theorem wIfSignaled_of_exited {status : Int} (h : wIfExited status = true) :
    wIfSignaled status = false := by
  have hzero : wTermSig status = 0 := by simpa [wIfExited] using h
  rw [wIfSignaled, hzero]
  decide

/-- How a command ends for `std::system`: it cannot be started, or it exits, or a signal kills
it. -/
inductive ShellEnd
  | failed
  | exited (code : Fin 256)
  | signaled (sig : Nat) (core : Bool) (pos : 0 < sig) (lt : sig < 127)

/-- What `std::system` returns. -/
def ShellEnd.word : ShellEnd → Int
  | failed => -1
  | exited code => 2 ^ 8 * code.val
  | signaled sig core _ _ => sig + if core then 2 ^ 7 else 0

/-- A signal has killed it. -/
def ShellEnd.killed : ShellEnd → Bool
  | signaled .. => true
  | failed | exited _ => false

theorem runShellCommand_of_ne {ret : Int} (h : ret ≠ -1) :
    runShellCommand ret = wExitStatus ret := if_neg h

/-- **`RunShellCommand` returns 0** for the exit code 0, and whenever a signal has killed the
command. -/
theorem runShellCommand_word (e : ShellEnd) :
    runShellCommand e.word = 0 ↔ e = .exited 0 ∨ e.killed = true := by
  cases e with
  | failed =>
    have hword : runShellCommand ShellEnd.failed.word = -1 := rfl
    simp [hword, ShellEnd.killed]
  | exited code =>
    have hlt : code.val < 256 := code.isLt
    have hword : (ShellEnd.exited code).word = 2 ^ 8 * code.val := rfl
    have hcode : code = 0 ↔ code.val = 0 := Fin.ext_iff
    rw [runShellCommand_of_ne (by omega), wExitStatus, hword]
    simp only [ShellEnd.exited.injEq, ShellEnd.killed, Bool.false_eq_true, or_false, hcode]
    omega
  | signaled sig core pos lt =>
    have hword : (ShellEnd.signaled sig core pos lt).word = sig + if core then 2 ^ 7 else 0 := rfl
    have hlow : 0 ≤ (ShellEnd.signaled sig core pos lt).word ∧
        (ShellEnd.signaled sig core pos lt).word < 2 ^ 8 := by
      rw [hword]
      split <;> omega
    rw [runShellCommand_of_ne (by omega), wExitStatus]
    simp only [ShellEnd.killed, or_true, iff_true]
    omega

/-! ## 2. `RunProgramWithLimits`

A turn of the loop is one call of `wait4` and one look at the clock.  The loop goes on as long as
the child is running and in time. -/

/-- What `wait4` does: the child is still running, or it is reaped, or the call fails. -/
inductive WaitResult
  | running
  | reaped (status maxrss : Int)
  | failed
deriving DecidableEq

/-- One turn of the loop: the result of `wait4`, and the milliseconds since the start. -/
structure Reading where
  wait : WaitResult
  elapsed : Int

/-- What the system contributes to one call: whether `fork` succeeds, what `ru_maxrss` happens to be
before a call of `wait4` writes it, the turns of the loop, the status and `ru_maxrss` of a child
that is killed (unless waiting for it fails), and the error output. -/
structure ChildRun where
  forked : Bool
  leftover : Int
  readings : List Reading
  afterKill : Option (Int × Int)
  stderrTxt : Bytes

/-- `status`, `usage`, `res.time_ms` and `killed_for_timeout` behind the loop. -/
structure Ending where
  status : Int
  maxrss : Int
  timeMs : Int
  killed : Bool

/-- `RunResult`, with its exit code. -/
structure SandboxResult extends RunResult where
  exitCode : Int

namespace ChildRun

/-- The loop; `none` if it is still polling when the readings come to an end. -/
def poll (child : ChildRun) (timeLimitMs : Int) : List Reading → Option Ending
  | [] => none
  | reading :: rest =>
    let elapsedMs := Json.toInt32 reading.elapsed
    match reading.wait with
    | .running =>
      if elapsedMs > timeLimitMs + 200 then
        match child.afterKill with
        | some (status, maxrss) => some ⟨status, maxrss, elapsedMs, true⟩
        | none => some ⟨0, child.leftover, elapsedMs, true⟩
      else poll child timeLimitMs rest
    | .reaped status maxrss => some ⟨status, maxrss, elapsedMs, false⟩
    | .failed => some ⟨0, child.leftover, elapsedMs, false⟩

/-- `res.status` and `res.exit_code`, from what the loop has left and `res.memory_kb`. -/
def classify (memoryLimitKb memoryKb : Int) (e : Ending) : RunStatus × Int :=
  if e.killed then (.timeLimitExceeded, -1)
  else if memoryKb > memoryLimitKb then (.memoryLimitExceeded, -1)
  else if wIfSignaled e.status then
    -- `SIGKILL` and `SIGXCPU`
    if wTermSig e.status = 9 ∨ wTermSig e.status = 24 then (.timeLimitExceeded, -1)
    else (.runtimeError, -1)
  else if wIfExited e.status then
    (if wExitStatus e.status = 0 then .accepted else .runtimeError, wExitStatus e.status)
  else (.runtimeError, -1)

/-- `res`, behind the loop. -/
def result (child : ChildRun) (memoryLimitKb : Int) (e : Ending) : SandboxResult where
  status := (classify memoryLimitKb (Json.toInt32 e.maxrss) e).1
  timeMs := e.timeMs
  memoryKb := Json.toInt32 e.maxrss
  stderrTxt := child.stderrTxt
  exitCode := (classify memoryLimitKb (Json.toInt32 e.maxrss) e).2

/-- `RunProgramWithLimits`: the loop, and what is made of its ending; `none` if the readings do not
come to an end of it. -/
def runProgramWithLimits (child : ChildRun) (timeLimitMs memoryLimitKb : Int) :
    Option SandboxResult :=
  if !child.forked then some ⟨⟨.systemError, 0, 0, []⟩, -1⟩
  else (child.poll timeLimitMs child.readings).map (child.result memoryLimitKb)

/-! ## 3. What an accepted run has respected

The classification looks at the status word, at the time and at the memory.  The word may be one
that no call has written. -/

/-- The loop ends here. -/
def ends (timeLimitMs : Int) (reading : Reading) : Bool :=
  match reading.wait with
  | .running => Json.toInt32 reading.elapsed > timeLimitMs + 200
  | .reaped _ _ | .failed => true

/-- The first such reading decides. -/
def lastReading (child : ChildRun) (timeLimitMs : Int) : Option Reading :=
  child.readings.find? (ends timeLimitMs)

/-- The loop is left without a kill, and its ending is that of this reading. -/
def endingOf (child : ChildRun) (reading : Reading) : Ending :=
  match reading.wait with
  | .running =>
    ⟨(child.afterKill.map Prod.fst).getD 0, (child.afterKill.map Prod.snd).getD child.leftover,
      Json.toInt32 reading.elapsed, true⟩
  | .reaped status maxrss => ⟨status, maxrss, Json.toInt32 reading.elapsed, false⟩
  | .failed => ⟨0, child.leftover, Json.toInt32 reading.elapsed, false⟩

/-- **The loop**, by the reading it ends with: the first at which the child is not running any more,
or has used up its time. -/
theorem poll_eq (child : ChildRun) (timeLimitMs : Int) (readings : List Reading) :
    child.poll timeLimitMs readings =
      (readings.find? (ends timeLimitMs)).map child.endingOf := by
  induction readings with
  | nil => rfl
  | cons reading rest ih =>
    obtain ⟨wait, elapsed⟩ := reading
    cases wait with
    | running =>
      by_cases hover : Json.toInt32 elapsed > timeLimitMs + 200
      · have hends : ends timeLimitMs ⟨.running, elapsed⟩ = true := decide_eq_true hover
        rw [poll, List.find?_cons_of_pos hends, Option.map_some]
        simp only [hover, if_true, endingOf]
        cases child.afterKill with
        | none => rfl
        | some usage => rfl
      · have hends : ¬ ends timeLimitMs ⟨.running, elapsed⟩ = true := by
          simpa [ends] using hover
        rw [poll, List.find?_cons_of_neg hends, ← ih]
        simp only [hover, if_false]
    | reaped status maxrss => rfl
    | failed => rfl

theorem classify_accepted_iff (memoryLimitKb memoryKb : Int) (e : Ending) :
    (classify memoryLimitKb memoryKb e).1 = .accepted ↔
      e.killed = false ∧ memoryKb ≤ memoryLimitKb ∧ wIfExited e.status = true ∧
        wExitStatus e.status = 0 := by
  unfold classify
  cases e.killed with
  | true => simp
  | false =>
    by_cases hmemory : memoryKb > memoryLimitKb
    · have hnot : ¬ memoryKb ≤ memoryLimitKb := by omega
      simp [hmemory, hnot]
    · by_cases hexited : wIfExited e.status = true
      · have hsignaled := wIfSignaled_of_exited hexited
        by_cases hcode : wExitStatus e.status = 0 <;>
          simp [hmemory, hexited, hsignaled, hcode, Int.not_lt.mp hmemory]
      · rw [Bool.not_eq_true] at hexited
        by_cases hsignaled : wIfSignaled e.status = true
        · simp only [Bool.false_eq_true, hmemory, hsignaled, hexited, if_false, if_true]
          split <;> simp
        · simp [hmemory, hsignaled, hexited]

/-- `wait4` has reported that the child exited with code 0; before that it was running.  A report of
any other end is not one. -/
def ReportedExit (readings : List Reading) : Prop :=
  ∃ before reading after status maxrss, readings = before ++ reading :: after ∧
    (∀ earlier ∈ before, earlier.wait = .running) ∧ reading.wait = .reaped status maxrss ∧
      wIfExited status = true ∧ wExitStatus status = 0

/-- An accepted run has respected its limits, by what was measured of it, and it has exited by
itself. -/
def RespectsLimits (child : ChildRun) (timeLimitMs memoryLimitKb : Int) : Prop :=
  ∀ res, child.runProgramWithLimits timeLimitMs memoryLimitKb = some res →
    res.status = .accepted → ReportedExit child.readings ∧ res.timeMs ≤ timeLimitMs ∧
      res.memoryKb ≤ memoryLimitKb

/-- **The condition**, on the reading the loop ends with: the child is killed; or it is reaped, and
if it has exited with code 0 within its memory it is in time; or `wait4` fails, and what is left on
the stack is more than the memory limit. -/
def EndsInTime (child : ChildRun) (timeLimitMs memoryLimitKb : Int) : Prop :=
  child.forked = true → ∀ reading, child.lastReading timeLimitMs = some reading →
    match reading.wait with
    | .running => True
    | .reaped status maxrss => wIfExited status = true → wExitStatus status = 0 →
        Json.toInt32 maxrss ≤ memoryLimitKb → Json.toInt32 reading.elapsed ≤ timeLimitMs
    | .failed => memoryLimitKb < Json.toInt32 child.leftover

/-- The readings before the one the loop ends with. -/
theorem reported_of_lastReading {child : ChildRun} {timeLimitMs : Int} {reading : Reading}
    {status maxrss : Int} (h : child.lastReading timeLimitMs = some reading)
    (hwait : reading.wait = .reaped status maxrss) (hexited : wIfExited status = true)
    (hcode : wExitStatus status = 0) : ReportedExit child.readings := by
  obtain ⟨-, before, after, hsplit, hbefore⟩ := List.find?_eq_some_iff_append.mp h
  refine ⟨before, reading, after, status, maxrss, hsplit, fun earlier hmem => ?_, hwait, hexited,
    hcode⟩
  have hnot := hbefore earlier hmem
  cases hearlier : earlier.wait with
  | running => rfl
  | reaped status maxrss => simp [ends, hearlier] at hnot
  | failed => simp [ends, hearlier] at hnot

theorem not_reported_of_failed {child : ChildRun} {timeLimitMs : Int} {reading : Reading}
    (h : child.lastReading timeLimitMs = some reading) (hwait : reading.wait = .failed) :
    ¬ ReportedExit child.readings := by
  obtain ⟨-, before, after, hsplit, hbefore⟩ := List.find?_eq_some_iff_append.mp h
  rintro ⟨before', reading', after', status, maxrss, hsplit', hbefore', hwait', -, -⟩
  rw [hsplit] at hsplit'
  rcases List.append_eq_append_iff.mp hsplit' with ⟨mid, rfl, hmid⟩ | ⟨mid, rfl, hmid⟩
  · -- the failing call is among those before the report, or is the report
    cases mid with
    | nil =>
      obtain ⟨rfl, -⟩ := List.cons.inj hmid
      rw [hwait] at hwait'
      cases hwait'
    | cons first mid =>
      obtain ⟨rfl, -⟩ := List.cons.inj hmid
      have hrunning := hbefore' reading (by simp)
      rw [hwait] at hrunning
      cases hrunning
  · -- or the report is among those the loop has gone past
    cases mid with
    | nil =>
      obtain ⟨rfl, -⟩ := List.cons.inj hmid
      rw [hwait] at hwait'
      cases hwait'
    | cons first mid =>
      obtain ⟨rfl, -⟩ := List.cons.inj hmid
      have hnot := hbefore reading' (by simp)
      simp [ends, hwait'] at hnot

/-- **When an accepted run has respected its limits.**  For any readings of `wait4` and of the
clock, and any limits: the result keeps to them exactly when the readings do, as `EndsInTime` says
it of them. -/
theorem limits_iff (child : ChildRun) (timeLimitMs memoryLimitKb : Int) :
    child.RespectsLimits timeLimitMs memoryLimitKb ↔
      child.EndsInTime timeLimitMs memoryLimitKb := by
  unfold RespectsLimits EndsInTime runProgramWithLimits
  cases child.forked with
  | false => simp
  | true =>
    simp only [Bool.not_true, Bool.false_eq_true, if_false, poll_eq, Option.map_map,
      true_implies]
    rw [← lastReading]
    cases hlast : child.lastReading timeLimitMs with
    | none => simp
    | some reading =>
      simp only [Option.map_some, Function.comp_apply, Option.some.injEq, forall_eq',
        result, classify_accepted_iff]
      cases hwait : reading.wait with
      | running => simp [endingOf, hwait]
      | reaped status maxrss =>
        simp only [endingOf, hwait, true_and]
        constructor
        · intro h hexited hcode hmemory
          exact (h ⟨hmemory, hexited, hcode⟩).2.1
        · rintro h ⟨hmemory, hexited, hcode⟩
          exact ⟨reported_of_lastReading hlast hwait hexited hcode, h hexited hcode hmemory,
            hmemory⟩
      | failed =>
        have hzero : wIfExited 0 = true ∧ wExitStatus 0 = 0 := by decide
        simp only [endingOf, hwait, hzero, true_and, and_true]
        constructor
        · intro h
          by_contra hle
          exact not_reported_of_failed hlast hwait (h (Int.not_lt.mp hle)).1
        · intro h hle
          exact absurd hle (Int.not_le.mpr h)

/-- A child that exits with code 0 at 150 ms of 100 ms. -/
def lateChild : ChildRun where
  forked := true
  leftover := 0
  readings := [⟨.running, 0⟩, ⟨.running, 75⟩, ⟨.reaped 0 3000, 150⟩]
  afterKill := none
  stderrTxt := []

/-- **A late run can be accepted**: the child is reaped in a round in which its time has already run
out. -/
theorem not_always_in_time :
    ¬ ∀ (child : ChildRun) (timeLimitMs memoryLimitKb : Int),
      child.RespectsLimits timeLimitMs memoryLimitKb := by
  intro h
  have haccepted : lateChild.runProgramWithLimits 100 262144 =
      some ⟨⟨.accepted, 150, 3000, []⟩, 0⟩ := rfl
  exact absurd (h lateChild 100 262144 _ haccepted rfl).2.1 (by decide)

/-- A `wait4` that fails at once. -/
example : (runProgramWithLimits ⟨true, 3000, [⟨.failed, 0⟩], none, []⟩ 100 262144).map
    (fun res => res.status) = some .accepted := by decide

end ChildRun

/-- **What the reports say about limits**, on a machine whose runs are those of such children: a
test case that has passed has kept to both. -/
theorem passed_within_limits {machine : Machine} {r : JudgeRequest} {cases : List Json}
    {runs : List CaseRun} (h : RunsOf machine r cases runs)
    (hchild : ∀ k args, ∃ child : ChildRun,
      child.EndsInTime args.timeLimitMs args.memoryLimitKb ∧
        (child.runProgramWithLimits args.timeLimitMs args.memoryLimitKb).map
          SandboxResult.toRunResult = some (machine.runProgram k args))
    {run : CaseRun} (hrun : run ∈ runs) (hpass : run.status = .run .accepted) :
    run.result.timeMs ≤ r.timeLimitMs ∧ run.result.memoryKb ≤ r.memoryLimitKb := by
  obtain ⟨k, hk⟩ := List.mem_iff_getElem?.mp hrun
  have hlt : k < cases.length := h.length ▸ (List.getElem?_eq_some_iff.mp hk).1
  obtain ⟨-, -, input, -, hresult, -⟩ := h.each k _ run (List.getElem?_eq_getElem hlt) hk
  have haccepted : run.result.status = .accepted := by
    rw [CaseRun.status, caseStatus] at hpass
    split at hpass
    · assumption
    · exact CaseStatus.run.inj hpass
  obtain ⟨child, hends, hres⟩ := hchild k (r.runArgs run.id input)
  obtain ⟨res, hsome, heq⟩ := Option.map_eq_some_iff.mp hres
  rw [hresult, ← heq] at haccepted ⊢
  exact ((child.limits_iff _ _).mpr hends res hsome haccepted).2

/-! ## 4. The compiler

`std::system` returns a wait status too, of which one byte is taken. -/

section

variable (codec : Json.Codec) (machine : Machine) (text : Bytes)

/-- `out`, when it is printed. -/
def answerDoc : Except Json.Error Json :=
  match codec.parse text with
  | .error what => .ok (parseErrorDoc what)
  | .ok req => do
    let r ← readRequest machine req
    if runShellCommand (machine.system r.compileCommand r.sourceCode) ≠ 0 then
      return compileErrorDoc (machine.compileErr r.compileCommand r.sourceCode)
    else
      match (req.find? (ascii "test_cases")).bind Json.items? with
      | none => return noTestCasesDoc
      | some cases => (cases.foldlM (judgeCase machine r) .start).map Tally.doc

theorem executeJudgeRequest_eq :
    executeJudgeRequest codec machine text =
      (answerDoc codec machine text).bind (dumpDoc codec) := by
  unfold executeJudgeRequest answerDoc
  cases codec.parse text with
  | error what => rfl
  | ok req =>
    simp only [bind, Except.bind]
    cases readRequest machine req with
    | error e => rfl
    | ok r =>
      simp only
      split
      · rfl
      · cases (req.find? (ascii "test_cases")).bind Json.items? with
        | none => rfl
        | some cases =>
          simp only
          cases cases.foldlM (judgeCase machine r) .start <;> rfl

/-- The runs for these test cases, up to one that cannot be read. -/
def runsOfCases (r : JudgeRequest) : List Json → List RunArgs
  | [] => []
  | tc :: cases =>
    match tc.valueInt (ascii "id") 0, tc.valueStr (ascii "input") [],
      tc.valueStr (ascii "expected_output") [] with
    | .ok id, .ok input, .ok _ => r.runArgs id input :: runsOfCases r cases
    | _, _, _ => []

/-- The programs that are run for a request. -/
def testRuns : List RunArgs :=
  match codec.parse text with
  | .error _ => []
  | .ok req =>
    match readRequest machine req with
    | .error _ => []
    | .ok r =>
      if runShellCommand (machine.system r.compileCommand r.sourceCode) ≠ 0 then []
      else
        match (req.find? (ascii "test_cases")).bind Json.items? with
        | none => []
        | some cases => runsOfCases r cases

/-- The tests are run only after a compile that has ended like this with exit code 0; otherwise the
answer is a compile error without results, and nothing is run. -/
def GuardsTests (e : ShellEnd) : Prop :=
  e ≠ .exited 0 →
    (∃ doc out, answerDoc codec machine text = .ok doc ∧
      executeJudgeRequest codec machine text = .ok out ∧
      textOf doc (ascii "status") = some (ascii "compile_error") ∧
      doc.find? (ascii "results") = some (.arr [])) ∧
    testRuns codec machine text = []

end

section

variable {codec : Json.Codec} {machine : Machine} {text : Bytes}

/-- The loop reads the machine only through its runs. -/
theorem foldlM_judgeCase_congr (r : JudgeRequest) (cases : List Json)
    (runProgram : Nat → RunArgs → RunResult) (outFile : Nat → RunArgs → Bytes) (t : Tally)
    (h : ∀ k args, (runsOfCases r cases)[k]? = some args →
      runProgram (t.total + k) args = machine.runProgram (t.total + k) args ∧
        outFile (t.total + k) args = machine.outFile (t.total + k) args) :
    cases.foldlM (judgeCase { machine with runProgram := runProgram, outFile := outFile } r) t =
      cases.foldlM (judgeCase machine r) t := by
  induction cases generalizing t with
  | nil => rfl
  | cons tc cases ih =>
    rw [List.foldlM_cons, List.foldlM_cons]
    simp only [judgeCase, bind, Except.bind]
    cases hid : tc.valueInt (ascii "id") 0 with
    | error e => rfl
    | ok id =>
      cases hinput : tc.valueStr (ascii "input") [] with
      | error e => rfl
      | ok input =>
        cases hexpected : tc.valueStr (ascii "expected_output") [] with
        | error e => rfl
        | ok expected =>
          have hruns : runsOfCases r (tc :: cases) =
              r.runArgs id input :: runsOfCases r cases := by
            simp only [runsOfCases, hid, hinput, hexpected]
          rw [hruns] at h
          obtain ⟨hrun, hout⟩ := h 0 _ rfl
          rw [Nat.add_zero] at hrun hout
          simp only [pure, Except.pure, hrun, hout]
          refine ih _ fun k args hk => ?_
          have hnext := h (k + 1) args hk
          rwa [← Nat.add_assoc, Nat.add_right_comm] at hnext

/-- **Nothing else is run**: whatever the machine would do in another run, the answer is the
same. -/
theorem executeJudgeRequest_congr (runProgram : Nat → RunArgs → RunResult)
    (outFile : Nat → RunArgs → Bytes)
    (h : ∀ k args, (testRuns codec machine text)[k]? = some args →
      runProgram k args = machine.runProgram k args ∧ outFile k args = machine.outFile k args) :
    executeJudgeRequest codec { machine with runProgram := runProgram, outFile := outFile } text =
      executeJudgeRequest codec machine text := by
  have hreads : ∀ req, readRequest
      { machine with runProgram := runProgram, outFile := outFile } req =
        readRequest machine req := fun _ => rfl
  unfold executeJudgeRequest
  unfold testRuns at h
  cases hparse : codec.parse text with
  | error what => rfl
  | ok req =>
    simp only [hparse] at h
    simp only [hreads, bind, Except.bind]
    cases hread : readRequest machine req with
    | error e => rfl
    | ok r =>
      simp only [hread] at h
      simp only
      split
      · rfl
      · rename_i hcompiled
        rw [if_neg hcompiled] at h
        cases hcases : (req.find? (ascii "test_cases")).bind Json.items? with
        | none => rfl
        | some cases =>
          simp only [hcases] at h
          simp only
          rw [foldlM_judgeCase_congr]
          intro k args hk
          have hzero : Tally.start.total + k = k := Nat.zero_add k
          rw [hzero]
          exact h k args hk

/-- No other answer is a compile error. -/
theorem textOf_doc_ne (t : Tally) :
    textOf t.doc (ascii "status") ≠ some (ascii "compile_error") := by
  have hstatus : textOf t.doc (ascii "status") = some t.status.text := rfl
  rw [hstatus]
  cases t.status with
  | wrongAnswer => decide
  | run status => cases status <;> decide

/-- **When the tests are guarded.**  A request has been read and its compile ends like `e`: the
tests are run only if that is exit code 0, exactly when no signal has killed the compiler, and
where the compile fails its messages can be printed. -/
theorem guardsTests_iff (hdump : codec.DumpsUtf8) {req : Json} {r : JudgeRequest} {e : ShellEnd}
    (hparse : codec.parse text = .ok req) (hread : readRequest machine req = .ok r)
    (hsystem : machine.system r.compileCommand r.sourceCode = e.word) :
    GuardsTests codec machine text e ↔
      e = .exited 0 ∨ (e.killed = false ∧
        Utf8.wellFormed (machine.compileErr r.compileCommand r.sourceCode) = true) := by
  have hzero := runShellCommand_word e
  unfold GuardsTests
  by_cases hexit : e = .exited 0
  · simp [hexit]
  · simp only [hexit, ne_eq, not_false_eq_true, true_implies, false_or] at hzero ⊢
    rw [executeJudgeRequest_eq]
    unfold answerDoc testRuns
    simp only [hparse, hread, hsystem, bind, Except.bind]
    cases hkilled : e.killed with
    | false =>
      have hne : runShellCommand e.word ≠ 0 := by simp [hzero, hkilled]
      simp only [if_pos hne, pure, Except.pure, Except.ok.injEq, true_and, and_true]
      rw [← compileErrorDoc_utf8, ← exists_dumpDoc hdump]
      constructor
      · rintro ⟨doc, out, rfl, hout, -, -⟩
        exact ⟨out, hout⟩
      · rintro ⟨out, hout⟩
        exact ⟨_, out, rfl, hout, rfl, rfl⟩
    | true =>
      have hok : ¬ runShellCommand e.word ≠ 0 := by simp [hzero, hkilled]
      simp only [if_neg hok, Bool.true_eq_false, false_and, iff_false]
      rintro ⟨⟨doc, out, hdoc, -, hstatus, -⟩, -⟩
      cases hcases : (req.find? (ascii "test_cases")).bind Json.items? with
      | none =>
        rw [hcases] at hdoc
        obtain rfl := Except.ok.inj hdoc
        exact absurd hstatus (by decide)
      | some cases =>
        rw [hcases] at hdoc
        obtain ⟨t, -, rfl⟩ := Except.map_eq_ok.mp hdoc
        exact textOf_doc_ne t hstatus

/-- A machine on which the compiler ends like this, without a message. -/
def compilingMachine (e : ShellEnd) : Machine := { quietMachine with system := fun _ _ => e.word }

/-- A compiler that exits with code 1. -/
theorem guardsTests_iff_failing :
    GuardsTests (readingCodec (oneCase [])) (compilingMachine (.exited 1)) (ascii "request")
      (.exited 1) :=
  (guardsTests_iff (Json.printing_dumpsUtf8 _ _) rfl rfl rfl).mpr (Or.inr ⟨rfl, rfl⟩)

/-- **A killed compile can go on to the tests.**  The compiler is killed by `SIGKILL`. -/
theorem not_always_guarded :
    ¬ ∀ (codec : Json.Codec) (machine : Machine) (text : Bytes) (req : Json) (r : JudgeRequest)
      (e : ShellEnd), codec.DumpsUtf8 → codec.parse text = .ok req →
        readRequest machine req = .ok r →
          machine.system r.compileCommand r.sourceCode = e.word →
            GuardsTests codec machine text e := by
  intro h
  have hguards := h (readingCodec (oneCase []))
    (compilingMachine (.signaled 9 false (by decide) (by decide))) (ascii "request") (oneCase [])
    _ (.signaled 9 false (by decide) (by decide)) (Json.printing_dumpsUtf8 _ _) rfl rfl rfl
  obtain ⟨-, hruns⟩ := hguards (by simp)
  have hlength : (testRuns (readingCodec (oneCase []))
      (compilingMachine (.signaled 9 false (by decide) (by decide))) (ascii "request")).length =
        1 := rfl
  rw [hruns] at hlength
  cases hlength

end

end OnlineJudge.Judge
