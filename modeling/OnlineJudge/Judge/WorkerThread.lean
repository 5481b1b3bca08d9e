/-
# What a judge thread does with one job

`JudgeManager` (`judge_manager.cpp`) has a queue of jobs and a pool of judge threads.  This
module is the part of `worker_thread` between taking a job from the queue and looking at the
queue again: dispatch the job to a remote worker (`ExecuteRemotely`, `ExecuteJob`), read the
verdict out of the reply, and store it with `UpdateResult`.

The JSON library is a `Json.Codec`; the network is the reply each attempt gets.

* `processJob_of_dumps`: whatever the reply, there is exactly one `UpdateResult` call, and it
  names the job's own submission.
* `settled_iff`: the call leaves a pending submission in a terminal status exactly when the
  dispatch failed, or the reply is JSON text whose `status`, if it has one, is a terminal
  value of the column.  A reply that is not JSON is stored as it came, the database refuses
  it, and the submission stays pending (`pending_after_bad_reply`).
-/
import OnlineJudge.Db.Submissions
import OnlineJudge.Judge.Balancer
import OnlineJudge.Lib.Json

namespace OnlineJudge.Judge

open ByteString Db

/-! ## 1. Dispatching a job

A dispatch is a number of attempts, and each attempt is one exchange with one worker.  What the
network answers is given, attempt by attempt. -/

/-- `JudgeJob`.  The texts of the payload come out of a parsed JSON body and of `utf8mb4`
columns, so they are well-formed UTF-8. -/
structure JudgeJob where
  submissionId : Int
  payload : Json
  payload_utf8 : payload.utf8 = true

/-- The balancer calls a dispatch makes after it has selected a worker.  They go by the id alone. -/
inductive WorkerCall
  | releaseWorkerLoad (id : Nat)
  | markOffline (id : Nat)
deriving DecidableEq, Repr

/-- `ExecuteRemotely`.  `selected` is what `SelectWorker` returned, and `sendHttpJson` is the
answer to the request: the status and the body, or `none` when the exchange fails. -/
def executeRemotely (codec : Json.Codec) (selected : Option (Nat × JudgeWorkerConfig))
    (sendHttpJson : JudgeWorkerConfig → Bytes → Option (Int × Bytes)) (job : JudgeJob) :
    Except Json.Error (List WorkerCall × Option Bytes) :=
  match selected with
  | none => .ok ([], none)
  | some (id, cfg) =>
    match codec.dump job.payload with
    | none => .error .utf8Text
    | some text =>
      match sendHttpJson cfg text with
      | some (status, resp) =>
        if status = 200 then .ok ([.releaseWorkerLoad id], some resp)
        else .ok ([.releaseWorkerLoad id, .markOffline id], none)
      | none => .ok ([.releaseWorkerLoad id, .markOffline id], none)

/-- `ExecuteJob`: up to `retryCount` attempts, of which the first that succeeds counts. -/
def executeJob (remoteMode : Bool) (retryCount : Int) (attempt : Nat → Option Bytes) :
    Option Bytes :=
  if !remoteMode then none else (List.range retryCount.toNat).findSome? attempt

/-! ## 2. The verdict and the update

The reply is read in a `try` block, in which three variables are assigned one after the other.  What
an exception leaves of them goes to the database. -/

/-- The document stored when no worker could judge the job. -/
def systemErrorDoc : Json :=
  .obj [(ascii "error", .str (ascii "no available judge_worker")),
    (ascii "results", .arr []),
    (ascii "status", .str (ascii "SYSTEM_ERROR")),
    (ascii "summary", .obj [(ascii "passed", .int 0), (ascii "peak_memory_kb", .int 0),
      (ascii "total", .int 0), (ascii "total_time_ms", .int 0)])]

/-- `status`, `time_ms` and `memory_kb` as the `try` block leaves them: what is assigned before
an exception stays assigned. -/
def readVerdict (codec : Json.Codec) (out : Bytes) : Bytes × Int × Int :=
  match codec.parse out with
  | .error _ => (ascii "system_error", 0, 0)
  | .ok parsed =>
    match parsed.valueStr (ascii "status") (ascii "system_error") with
    | .error _ => (ascii "system_error", 0, 0)
    | .ok status =>
      match parsed.find? (ascii "summary") with
      | some (.obj summary) =>
        match (Json.obj summary).valueInt (ascii "total_time_ms") 0 with
        | .error _ => (status, 0, 0)
        | .ok timeMs =>
          match (Json.obj summary).valueInt (ascii "peak_memory_kb") 0 with
          | .error _ => (status, timeMs, 0)
          | .ok memoryKb => (status, timeMs, memoryKb)
      | _ => (status, 0, 0)

/-- The `UpdateResult` calls of `worker_thread` for a job whose `ExecuteJob` gave `reply`;
`none` when an exception leaves the thread. -/
def processJob (codec : Json.Codec) (job : JudgeJob) (reply : Option Bytes) :
    Option (List UpdateCall) :=
  match reply with
  | none =>
    (codec.dump systemErrorDoc).map fun out =>
      [⟨job.submissionId, ascii "system_error", out, 0, 0⟩]
  | some out =>
    let verdict := readVerdict codec out
    some [⟨job.submissionId, verdict.1, out, verdict.2.1, verdict.2.2⟩]

/-- The table after the calls, each of which runs in a `try` block of its own. -/
def settle (codec : Json.Codec) (validJson : Bytes → Bool) (job : JudgeJob)
    (reply : Option Bytes) (rows : Submissions) : Submissions :=
  ((processJob codec job reply).getD []).foldl (afterUpdate validJson) rows

/-- **One job, one update.**  Whatever came of the dispatch, `worker_thread` calls
`UpdateResult` exactly once, for the job's own submission. -/
theorem processJob_of_dumps {codec : Json.Codec} (hdump : codec.DumpsUtf8) (job : JudgeJob)
    (reply : Option Bytes) :
    ∃ call : UpdateCall, processJob codec job reply = some [call] ∧
      call.id = job.submissionId := by
  cases reply with
  | none =>
    obtain ⟨out, hout⟩ := hdump.exists_dump (v := systemErrorDoc) (by decide)
    exact ⟨_, by rw [processJob, hout]; rfl, rfl⟩
  | some out => exact ⟨_, rfl, rfl⟩

/-! ## 3. Which submissions reach a terminal status

The update names a status and a result, and the database takes both or neither.  So a status that is
fine is lost with a result that is not JSON. -/

/-- A reply whose `status` member, where there is one and it is a text, is a terminal value of
the column. -/
def ReportsTerminal (codec : Json.Codec) (body : Bytes) : Prop :=
  ∀ members s, codec.parse body = .ok (.obj members) →
    members.lookup (ascii "status") = some (.str s) →
      ∃ st : SubmissionStatus, s = st.text ∧ st.terminal = true

/-- Reading the summary does not touch the status. -/
theorem readVerdict_of_status {codec : Json.Codec} {body : Bytes} {parsed : Json} {status : Bytes}
    (hparse : codec.parse body = .ok parsed)
    (hstatus : parsed.valueStr (ascii "status") (ascii "system_error") = .ok status) :
    (readVerdict codec body).1 = status := by
  simp only [readVerdict, hparse, hstatus]
  split
  · split
    · rfl
    · split <;> rfl
  · rfl

/-- **The status read from a reply**: the reply's own text if it has one, `system_error` in
every other case. -/
theorem readVerdict_status (codec : Json.Codec) (body : Bytes) :
    (∃ members s, codec.parse body = .ok (.obj members) ∧
      members.lookup (ascii "status") = some (.str s) ∧ (readVerdict codec body).1 = s) ∨
    ((readVerdict codec body).1 = SubmissionStatus.systemError.text ∧
      ∀ members s, codec.parse body = .ok (.obj members) →
        members.lookup (ascii "status") ≠ some (.str s)) := by
  cases hparse : codec.parse body with
  | error what => exact Or.inr ⟨by simp [readVerdict, hparse]; rfl, by simp⟩
  | ok parsed =>
    cases hstatus : parsed.valueStr (ascii "status") (ascii "system_error") with
    | error e =>
      refine Or.inr ⟨by simp [readVerdict, hparse, hstatus]; rfl, fun members s hobj hmem => ?_⟩
      obtain rfl := Except.ok.inj hobj
      simp [Json.valueStr, Json.value_obj, hmem, Json.getStr] at hstatus
    | ok status =>
      have hread := readVerdict_of_status hparse hstatus
      cases parsed with
      | obj members =>
        rw [Json.valueStr, Json.value_obj] at hstatus
        cases hmem : members.lookup (ascii "status") with
        | none =>
          rw [hmem] at hstatus
          obtain rfl := Except.ok.inj hstatus
          refine Or.inr ⟨hread, fun members' s hobj hmem' => ?_⟩
          obtain rfl := Json.obj.inj (Except.ok.inj hobj)
          rw [hmem] at hmem'
          cases hmem'
        | some member =>
          rw [hmem] at hstatus
          cases member with
          | str s =>
            obtain rfl := Except.ok.inj hstatus
            exact Or.inl ⟨members, s, rfl, hmem, hread⟩
          | _ => cases hstatus
      | _ => cases hstatus

/-- The stored status is terminal exactly when the reply reports a terminal one. -/
theorem readVerdict_terminal_iff (codec : Json.Codec) (body : Bytes) :
    (∃ st : SubmissionStatus, (readVerdict codec body).1 = st.text ∧ st.terminal = true) ↔
      ReportsTerminal codec body := by
  rcases readVerdict_status codec body with ⟨members, s, hparse, hmem, hs⟩ | ⟨hs, hno⟩
  · rw [hs]
    constructor
    · rintro ⟨st, hst, hterm⟩ members' s' hparse' hmem'
      obtain rfl : members = members' := Json.obj.inj (Except.ok.inj (hparse.symm.trans hparse'))
      obtain rfl : s = s' := Json.str.inj (Option.some.inj (hmem.symm.trans hmem'))
      exact ⟨st, hst, hterm⟩
    · intro h
      exact h members s hparse hmem
  · rw [hs]
    constructor
    · intro _ members s hparse hmem
      exact absurd hmem (hno members s hparse)
    · intro _
      exact ⟨.systemError, rfl, rfl⟩

theorem settle_eq {codec : Json.Codec} {job : JudgeJob} {reply : Option Bytes}
    {call : UpdateCall} (hcall : processJob codec job reply = some [call])
    (validJson : Bytes → Bool) (rows : Submissions) :
    settle codec validJson job reply rows = afterUpdate validJson rows call := by
  rw [settle, hcall]
  rfl

/-- **When a job leaves its submission in a terminal status.**  Take a submission that is
pending, as it was created.  Once `worker_thread` is done with the job its status is terminal if
and only if the dispatch failed, or the reply is valid JSON text and does not name a status
outside the terminal values of the column. -/
theorem settled_iff (codec : Json.Codec) (hdump : codec.DumpsUtf8) (validJson : Bytes → Bool)
    (hvalid : ∀ v text, codec.dump v = some text → validJson text = true) (job : JudgeJob)
    (reply : Option Bytes) (rows : Submissions) (row : SubmissionRow)
    (hrow : rows job.submissionId = some row) (hpending : row.status = .pending) :
    (∃ row', settle codec validJson job reply rows job.submissionId = some row' ∧
      row'.status.terminal = true) ↔
    ∀ body, reply = some body → validJson body = true ∧ ReportsTerminal codec body := by
  have hold : row.status.terminal = false := by rw [hpending]; rfl
  cases reply with
  | none =>
    -- the failure branch stores a document of its own, with the status `system_error`
    obtain ⟨out, hout⟩ := hdump.exists_dump (v := systemErrorDoc) (by decide)
    have hcall : processJob codec job none =
        some [⟨job.submissionId, SubmissionStatus.systemError.text, out, 0, 0⟩] := by
      rw [processJob, hout]
      rfl
    rw [settle_eq hcall, afterUpdate_terminal_iff (c := ⟨job.submissionId, _, _, _, _⟩) hrow hold]
    constructor
    · intro _ body hbody
      cases hbody
    · intro _
      exact ⟨hvalid _ _ hout, .systemError, rfl, rfl⟩
  | some body =>
    have hcall : processJob codec job (some body) =
        some [⟨job.submissionId, (readVerdict codec body).1, body, (readVerdict codec body).2.1,
          (readVerdict codec body).2.2⟩] := rfl
    rw [settle_eq hcall,
      afterUpdate_terminal_iff (c := ⟨job.submissionId, _, _, _, _⟩) hrow hold]
    simp only [readVerdict_terminal_iff, Option.some.injEq, forall_eq']

/-- `systemErrorDoc` as `dump()` prints it. -/
def systemErrorText : Bytes :=
  ascii ("\x7b\"error\":\"no available judge_worker\",\"results\":[],\"status\":" ++
    "\"SYSTEM_ERROR\",\"summary\":\x7b\"passed\":0,\"peak_memory_kb\":0,\"total\":0," ++
    "\"total_time_ms\":0\x7d\x7d")

/-- A codec that knows one document. -/
def systemErrorCodec : Json.Codec where
  dump v := if v.utf8 then some systemErrorText else none
  parse text :=
    if text = systemErrorText then .ok systemErrorDoc else .error (ascii "parse error")

theorem systemErrorCodec_dumpsUtf8 : systemErrorCodec.DumpsUtf8 := by
  intro v
  by_cases hv : v.utf8 = true <;> simp [systemErrorCodec, hv]

/-- The database next to that codec. -/
def systemErrorValid (text : Bytes) : Bool := text == systemErrorText

theorem systemErrorValid_of_dump (v : Json) (text : Bytes)
    (h : systemErrorCodec.dump v = some text) : systemErrorValid text = true := by
  simp only [systemErrorCodec] at h
  split at h
  · obtain rfl := Option.some.inj h
    exact beq_self_eq_true _
  · cases h

def sampleJob : JudgeJob := ⟨7, .obj [], rfl⟩

/-- Submission 7 as `POST /api/submissions` creates it. -/
def sampleRows : Submissions := fun id => if id = 7 then some ⟨.pending, [], 0, 0⟩ else none

/-- A dispatch that failed is settled as `system_error`. -/
theorem settled_after_failed_dispatch :
    ∃ row, settle systemErrorCodec systemErrorValid sampleJob none sampleRows 7 = some row ∧
      row.status.terminal = true :=
  (settled_iff systemErrorCodec systemErrorCodec_dumpsUtf8 systemErrorValid
    systemErrorValid_of_dump sampleJob none sampleRows ⟨.pending, [], 0, 0⟩ rfl rfl).mpr
    (fun _ hbody => nomatch hbody)

set_option maxRecDepth 4000 in
/-- **A submission can stay pending.**  A worker answers 200 with a body that is cut off; the
status `system_error` goes to the database together with that body, which is not JSON. -/
theorem pending_after_bad_reply :
    systemErrorCodec.DumpsUtf8 ∧
      (∀ v text, systemErrorCodec.dump v = some text → systemErrorValid text = true) ∧
      settle systemErrorCodec systemErrorValid sampleJob (some (ascii "\x7b\"status\":"))
        sampleRows 7 = some ⟨.pending, [], 0, 0⟩ :=
  ⟨systemErrorCodec_dumpsUtf8, systemErrorValid_of_dump, by decide⟩

end OnlineJudge.Judge
