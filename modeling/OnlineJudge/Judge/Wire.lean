/-
# From the payload to the row, over the wire

One attempt to have a job judged, with everything that is between the two ends of it: the payload is
printed and sent in pieces, the worker parses them, compiles and runs, writes its response in
pieces, and the connection can end anywhere; `SendHttpJson` reads what has arrived, and
`worker_thread` stores what it makes of that.

Nothing here looks at `Content-Length`, so a result that is cut off passes for a result: the attempt
has succeeded, no other is made, and `worker_thread` goes to store what it has.  What keeps it from
the table is the `JSON` column: of a printed object no proper prefix is JSON.

* `serves_judge`: the worker answers the request of a dispatch, and closes the connection.
* `sendHttpJson_part`: what `SendHttpJson` makes of the response up to any byte of its body.
* `settle_judgeDoc`, `settle_invalid`, `settle_none`: what `worker_thread` leaves of the row, for a
  printed report, for a text that is not JSON, and without a reply.
* `wire_verdict`: whatever happens on the wire, the row of the submission stays as it was, or is
  given up, or gets the verdict on the runs of the first attempt that has handed anything on.  It
  gets the verdict if the whole of that response has arrived, and stays as it was if the response
  has been cut off in its body.

The time that all of this takes is not looked at here: an attempt that `recv` gives up on is one
that has received nothing.  How long a worker may take is the subject of `WorkerServer.lean`.
-/
import OnlineJudge.Handler.SubmissionHandler
import OnlineJudge.Judge.CutReply
import OnlineJudge.Lib.Nesting
import OnlineJudge.Net.OneRequest

namespace OnlineJudge.Judge

open ByteString Net Db Transition Handler

/-! ## 1. The worker's side

The worker reads a request, judges it and writes one response.  It closes the connection then, since
the request does not ask for anything else. -/

/-- The response to a judge request. -/
def judgeReply (codec : Json.Codec) (machine : Machine) (body : Bytes) : HttpResponse :=
  match executeJudgeRequest codec machine body with
  | .ok out => (HttpResponse.ofStatu 200).setContent out (ascii "application/json;charset=utf-8")
  | .error _ =>
    -- the page is written twice: in the `catch` block, and for the status 500
    let page := HttpServer.errorPage 500
    ((HttpResponse.ofStatu 500).setContent page (ascii "text/html")).setContent page
      (ascii "text/html")

/-- What the worker writes for it. -/
def judgeReplyText (codec : Json.Codec) (machine : Machine) (files : Files)
    (cfg : JudgeWorkerConfig) (body : Bytes) : Bytes :=
  SiteServer.responseText (judgeRequest cfg body)
    ((workerSite codec machine files).completeHeaders (judgeRequest cfg body)
      (judgeReply codec machine body))

section

variable {codec : Json.Codec} {machine : Machine} {files : Files} {cfg : JudgeWorkerConfig}
  {body : Bytes}

theorem answer_judge (hpath : cfg.judgePath = ascii "/judge") :
    (judgeWorker codec machine files).answer (judgeRequest cfg body) =
      .ok (judgeReply codec machine body) := by
  unfold judgeReply
  cases hexecute : executeJudgeRequest codec machine body with
  | ok out =>
    have hroute : ((judgeWorker codec machine files).route (judgeRequest cfg body)).run
        (.ofStatu 200) = (.ok (), (HttpResponse.ofStatu 200).setContent out
          (ascii "application/json;charset=utf-8")) := by
      rw [route_judgeWorker files hpath, judge, Program.run_bind_ok (a := out)]
      · rfl
      · exact congrArg (·, HttpResponse.ofStatu 200) hexecute
    have hstatu : (200 : Int) < 400 := by decide
    exact HttpServer.respond_of_ok hroute hstatu
  | error e =>
    have hroute : ((judgeWorker codec machine files).route (judgeRequest cfg body)).run
        (.ofStatu 200) = (.error e, .ofStatu 200) := by
      rw [route_judgeWorker files hpath, judge]
      exact Program.run_bind_error (congrArg (·, HttpResponse.ofStatu 200) hexecute) _
    have herror : (400 : Int) ≤ 500 := by decide
    refine HttpServer.answer_of_caught ?_ herror rfl
    rw [Program.run_tryCatch_error hroute]
    rfl

theorem connection_judgeReply :
    (judgeReply codec machine body).headers.find? (ascii "Connection") = none := by
  unfold judgeReply
  cases executeJudgeRequest codec machine body with
  | ok out => rfl
  | error e => rfl

/-- **The worker answers the request of a dispatch**, and closes the connection. -/
theorem serves_judge (hpath : cfg.judgePath = ascii "/judge") (hhost : 10 ∉ cfg.host)
    (hbody : body ≠ []) (hlength : body.length < 2 ^ 63)
    (hfit : ∀ h ∈ requestHeaders cfg body, (WireRequest.headerLine h).length + 2 ≤ maxLine) :
    Serves (workerSite codec machine files) (requestText cfg body)
      (judgeReplyText codec machine files cfg body) := by
  have hrequest : (wireRequest cfg body hhost hbody hlength).toHttpRequest =
      judgeRequest cfg body := by
    rw [judgeRequest, hpath]
    rfl
  have hline : (wireRequest cfg body hhost hbody hlength).requestLine.length + 2 ≤ maxLine := by
    have hclosed : (ascii "POST /judge HTTP/1.1").length + 2 ≤ maxLine := by decide
    exact hclosed
  have hparse := (wireRequest cfg body hhost hbody hlength).stage_serialize ⟨hline, hfit⟩ []
  rw [List.append_nil, serialize_wireRequest hpath hhost hbody hlength, hrequest] at hparse
  have hclose : (judgeRequest cfg body).close = true := rfl
  exact ⟨_, _, hparse, answer_judge hpath,
    close_completeHeaders hclose rfl connection_judgeReply, rfl⟩

end

/-! ## 2. The verdict

What `worker_thread` reads of a printed report, and what it stores: three members of the document
and the document itself. -/

/-- The row of a submission that has been judged. -/
def verdictRow (machine : Machine) (r : JudgeRequest) (testCases : List TestCase) (out : Bytes) :
    SubmissionRow :=
  if runShellCommand (machine.system r.compileCommand r.sourceCode) ≠ 0 then
    ⟨.compileError, out, 0, 0⟩
  else
    let runs := caseRuns machine r testCases
    ⟨columnStatus (verdict runs), out, Json.toInt32 (totalTimeMs runs),
      Json.toInt32 (peakMemoryKb runs)⟩

section

variable {codec : Json.Codec} {machine : Machine} {r : JudgeRequest} {testCases : List TestCase}
  {out : Bytes}

/-- There are no fractions in a report. -/
theorem exists_members_judgeDoc (machine : Machine) (r : JudgeRequest)
    (testCases : List TestCase) : ∃ members, judgeDoc machine r testCases = .obj members ∧
      (judgeDoc machine r testCases).integral = true := by
  unfold judgeDoc
  split
  · exact ⟨_, rfl, rfl⟩
  · refine ⟨_, rfl, ?_⟩
    have hcase : ∀ run ∈ caseRuns machine r testCases, run.doc.integral = true := by
      intro run _
      simp only [CaseRun.doc, caseDoc]
      split <;> split <;> rfl
    have hresults := Json.integralItems_map hcase
    rw [tally_eq]
    simp only [Tally.doc, Tally.ofRuns, Json.integral, Json.integralMembers, hresults,
      Bool.and_true]

/-- **What is read of a report** is the verdict: the members that `worker_thread` looks for are
there, with the types that it expects. -/
theorem readVerdict_judgeDoc (hparse : codec.parse out = .ok (judgeDoc machine r testCases)) :
    readVerdict codec out = ((verdictRow machine r testCases out).status.text,
      (verdictRow machine r testCases out).timeMs,
      (verdictRow machine r testCases out).memoryKb) := by
  rw [readVerdict, hparse]
  by_cases hcompile : runShellCommand (machine.system r.compileCommand r.sourceCode) ≠ 0
  · simp only [judgeDoc, verdictRow, if_pos hcompile]
    rfl
  · simp only [judgeDoc, verdictRow, if_neg hcompile, tally_eq, text_columnStatus]
    rfl

theorem settle_judgeDoc (hparse : codec.parse out = .ok (judgeDoc machine r testCases))
    {validJson : Bytes → Bool} (hvalid : validJson out = true) {job : JudgeJob}
    {rows : Submissions} {row : SubmissionRow} (hrow : rows job.submissionId = some row) :
    settle codec validJson job (some out) rows job.submissionId =
      some (verdictRow machine r testCases out) := by
  have hread := readVerdict_judgeDoc hparse
  have hcall : processJob codec job (some out) = some [⟨job.submissionId,
      (verdictRow machine r testCases out).status.text, out,
      (verdictRow machine r testCases out).timeMs,
      (verdictRow machine r testCases out).memoryKb⟩] := by
    simp only [processJob, hread]
  have hself : afterUpdate validJson rows ⟨job.submissionId,
      (verdictRow machine r testCases out).status.text, out,
      (verdictRow machine r testCases out).timeMs,
      (verdictRow machine r testCases out).memoryKb⟩ job.submissionId = _ := afterUpdate_self hrow
  rw [SubmissionStatus.ofText_text] at hself
  dsimp only at hself
  rw [if_pos hvalid] at hself
  have hresult : (verdictRow machine r testCases out).resultJson = out := by
    unfold verdictRow
    split <;> rfl
  rw [settle_eq hcall, hself]
  exact congrArg (fun text => some (SubmissionRow.mk _ text _ _)) hresult.symm

/-- A text that is not JSON is refused. -/
theorem settle_invalid {validJson : Bytes → Bool} (hvalid : validJson out = false)
    {job : JudgeJob} {rows : Submissions} {row : SubmissionRow}
    (hrow : rows job.submissionId = some row) :
    settle codec validJson job (some out) rows job.submissionId = some row := by
  have hcall : processJob codec job (some out) = some [⟨job.submissionId,
      (readVerdict codec out).1, out, (readVerdict codec out).2.1, (readVerdict codec out).2.2⟩] :=
    rfl
  have hself : afterUpdate validJson rows ⟨job.submissionId, (readVerdict codec out).1, out,
      (readVerdict codec out).2.1, (readVerdict codec out).2.2⟩ job.submissionId = _ :=
    afterUpdate_self hrow
  rw [settle_eq hcall, hself]
  dsimp only
  split
  · rfl
  · rw [hvalid]
    rfl

/-- Without a reply the row says that there is no worker, if the column takes the document. -/
theorem settle_none (hdump : codec.DumpsUtf8) {job : JudgeJob} {rows : Submissions}
    {row : SubmissionRow} (hrow : rows job.submissionId = some row) (validJson : Bytes → Bool) :
    ∃ out, codec.dump systemErrorDoc = some out ∧
      (settle codec validJson job none rows job.submissionId = some row ∨
        settle codec validJson job none rows job.submissionId =
          some ⟨.systemError, out, 0, 0⟩) := by
  obtain ⟨out, hout⟩ := hdump.exists_dump (v := systemErrorDoc) (by decide)
  have hcall : processJob codec job none =
      some [⟨job.submissionId, SubmissionStatus.systemError.text, out, 0, 0⟩] := by
    rw [processJob, hout]
    rfl
  have hself : afterUpdate validJson rows
      ⟨job.submissionId, SubmissionStatus.systemError.text, out, 0, 0⟩ job.submissionId = _ :=
    afterUpdate_self hrow
  rw [SubmissionStatus.ofText_text] at hself
  dsimp only at hself
  refine ⟨out, hout, ?_⟩
  rw [settle_eq hcall, hself]
  by_cases hvalid : validJson out = true
  · exact .inr (if_pos hvalid)
  · exact .inl (if_neg hvalid)

end

/-! ## 3. One attempt

Of the request some beginning arrives, of the response some beginning is received.  An attempt that
fails may have been judged all the same; nobody knows of it then. -/

/-- One attempt of `ExecuteJob` that has found a worker: the worker's machine, what happens on the
worker's end of the connection, and what `recv` has returned when it returns 0.  Nothing is received
where the connection cannot be opened, the request cannot be sent, or `recv` fails. -/
structure WireAttempt (codec : Json.Codec) (job : JudgeJob) where
  dispatch : Dispatch codec
  machine : Machine
  files : Files
  events : List Connection.Event
  received : Option Bytes
  job_eq : dispatch.job = job

namespace WireAttempt

/-- `ExecuteRemotely`. -/
def run {codec : Json.Codec} {job : JudgeJob} (a : WireAttempt codec job) :
    Except Json.Error (List WorkerCall × Option Bytes) :=
  executeRemotely codec (some (a.dispatch.worker, a.dispatch.cfg))
    (fun _ _ => a.received.bind sendHttpJson) job

/-- What there is to report. -/
def report {codec : Json.Codec} {job : JudgeJob} (a : WireAttempt codec job) : Json :=
  judgeDoc a.machine (a.dispatch.request a.machine) a.dispatch.testCases

/-- The row with the verdict. -/
def verdictRow {codec : Json.Codec} {job : JudgeJob} (a : WireAttempt codec job) (out : Bytes) :
    SubmissionRow :=
  Judge.verdictRow a.machine (a.dispatch.request a.machine) a.dispatch.testCases out

/-- The response to the printed payload. -/
def response {codec : Json.Codec} {job : JudgeJob} (a : WireAttempt codec job) (text : Bytes) :
    Bytes :=
  judgeReplyText codec a.machine a.files a.dispatch.cfg text

/-- **What can happen on the wire.**  Of the request some beginning has arrived, and of what has
left the worker some beginning is received. -/
structure OnWire {codec : Json.Codec} {job : JudgeJob} (a : WireAttempt codec job) (text : Bytes) :
    Prop where
  host : 10 ∉ a.dispatch.cfg.host
  fits : ∀ h ∈ requestHeaders a.dispatch.cfg text,
    (WireRequest.headerLine h).length + 2 ≤ maxLine
  run : ∃ t, exec (Traffic.step (workerSite codec a.machine a.files)) .opened a.events = some t ∧
    t.arrived <+: requestText a.dispatch.cfg text ∧ ∀ raw ∈ a.received, raw <+: t.left

section

variable {codec : Json.Codec} {st : Json.Style} {job : JudgeJob} {a : WireAttempt codec job}
  {text : Bytes}

theorem payload_ne_nil (hprints : codec.Prints st) (a : WireAttempt codec job)
    (htext : codec.dump job.payload = some text) : text ≠ [] := by
  rw [hprints _ _ htext, ← a.job_eq, a.dispatch.payload_eq]
  exact List.cons_ne_nil _ _

/-- What is received is the beginning of the response. -/
theorem OnWire.received_begins (h : a.OnWire text) (hne : text ≠ [])
    (hlength : text.length < 2 ^ 63) : ∀ raw ∈ a.received, raw <+: a.response text := by
  intro raw hraw
  obtain ⟨t, hrun, harrived, hreceived⟩ := h.run
  have hserves : Serves (workerSite codec a.machine a.files) (requestText a.dispatch.cfg text)
      (a.response text) := serves_judge a.dispatch.judgePath_eq h.host hne hlength h.fits
  exact (hreceived raw hraw).trans (phase_of_run hserves hrun harrived).left_begins.1

theorem judgeReply_eq (hdump : codec.DumpsUtf8) (a : WireAttempt codec job)
    (htext : codec.dump job.payload = some text) :
    (∃ out, codec.dump a.report = some out ∧ judgeReply codec a.machine text =
      (HttpResponse.ofStatu 200).setContent out (ascii "application/json;charset=utf-8")) ∨
      (codec.dump a.report = none ∧ (judgeReply codec a.machine text).statu = 500) := by
  obtain ⟨text', htext', hexecute⟩ := a.dispatch.exists_text a.machine hdump
  rw [a.job_eq, htext] at htext'
  obtain rfl := Option.some.inj htext'
  unfold judgeReply
  rw [hexecute, dumpDoc]
  cases hreport : codec.dump a.report with
  | some out =>
    rw [report] at hreport
    rw [hreport]
    exact .inl ⟨out, rfl, rfl⟩
  | none =>
    rw [report] at hreport
    rw [hreport]
    exact .inr ⟨rfl, rfl⟩

theorem version_judgeRequest {cfg : JudgeWorkerConfig} :
    (judgeRequest cfg text).version ≠ [] ∧
      ∀ b ∈ (judgeRequest cfg text).version, isSpace b = false := by
  have hclosed : ascii "HTTP/1.1" ≠ [] ∧ ∀ b ∈ ascii "HTTP/1.1", isSpace b = false := by
    decide +kernel
  exact hclosed

/-- What `SendHttpJson` makes of a beginning of the response. -/
theorem sendHttpJson_response (a : WireAttempt codec job) {raw : Bytes}
    (hraw : raw <+: a.response text) :
    sendHttpJson raw = none ∨
      ∃ part, part <+: (judgeReply codec a.machine text).body ∧
        sendHttpJson raw = some ((judgeReply codec a.machine text).statu, part) := by
  have hwrites : Writes codec a.machine a.files (judgeRequest a.dispatch.cfg text)
      (judgeReply codec a.machine text) := .inl (answer_judge a.dispatch.judgePath_eq)
  rcases sendHttpJson_prefix version_judgeRequest.2 (plain_of_writes hwrites) (List.Perm.refl _)
    hraw with ⟨hnone, -⟩ | ⟨-, -, hpart⟩
  · exact .inl hnone
  · exact .inr hpart

/-- And of the response up to any byte of its body: `find` looks for the end of the block, and the
rest is the body, however much of it there is. -/
theorem sendHttpJson_part (a : WireAttempt codec job) :
    ∃ head, a.response text = head ++ (judgeReply codec a.machine text).body ∧ ∀ part,
      sendHttpJson (head ++ part) = some ((judgeReply codec a.machine text).statu, part) := by
  have hwrites : Writes codec a.machine a.files (judgeRequest a.dispatch.cfg text)
      (judgeReply codec a.machine text) := .inl (answer_judge a.dispatch.judgePath_eq)
  have hplain := plain_of_writes hwrites
  have hclean : (workerSite codec a.machine a.files).CleanFields _ := hplain.cleanFields
  have hinLine : InLine (judgeRequest a.dispatch.cfg text).version := by
    have hclosed : InLine (ascii "HTTP/1.1") := by decide
    exact hclosed
  have hlines := hclean.isLine hinLine (List.Perm.refl _)
  obtain ⟨hs, hword, hint⟩ := @readWord_reply codec a.machine a.files
    (judgeRequest a.dispatch.cfg text) _ version_judgeRequest.2 version_judgeRequest.1 hplain
    ((workerSite codec a.machine a.files).completeHeaders (judgeRequest a.dispatch.cfg text)
      (judgeReply codec a.machine text)).headers.entries
  have hbody := ((workerSite codec a.machine a.files).completeHeaders_spec
    (judgeRequest a.dispatch.cfg text) (judgeReply codec a.machine text)).1.body
  have hread := sendHttpJson_block (List.cons_ne_nil _ _) hlines hword hint
  refine ⟨_, ?_, fun part => (congrArg sendHttpJson (List.append_assoc _ _ part)).trans
    (hread part)⟩
  rw [response, judgeReplyText, ← SiteServer.responseTextIn_entries, SiteServer.responseTextIn_eq,
    hbody, ← List.append_assoc]

theorem exists_run (a : WireAttempt codec job) (htext : codec.dump job.payload = some text) :
    ∃ calls reply, a.run = .ok (calls, reply) ∧
      ∀ out, reply = some out ↔ a.received.bind sendHttpJson = some (200, out) := by
  rw [run, executeRemotely, htext]
  cases hreply : a.received.bind sendHttpJson with
  | none => exact ⟨_, none, rfl, fun out => ⟨fun h => (by cases h), fun h => (by cases h)⟩⟩
  | some answer =>
    obtain ⟨status, resp⟩ := answer
    by_cases hstatus : status = 200
    · refine ⟨[.releaseWorkerLoad a.dispatch.worker], some resp, if_pos hstatus, fun out => ?_⟩
      simp [hstatus]
    · refine ⟨[.releaseWorkerLoad a.dispatch.worker, .markOffline a.dispatch.worker], none,
        if_neg hstatus, fun out => ?_⟩
      simp [hstatus]

/-- Of a printed report no proper prefix is complete. -/
theorem not_complete_of_cut (hst : st.Separates) (hprints : codec.Prints st)
    (a : WireAttempt codec job) {out part : Bytes} (hout : codec.dump a.report = some out)
    (hpart : part <+: out) (hcut : part ≠ out) : ¬ Json.Complete part := by
  obtain ⟨members, hmembers, hintegral⟩ := exists_members_judgeDoc a.machine
    (a.dispatch.request a.machine) a.dispatch.testCases
  have hprint := hprints _ _ hout
  rw [report, hmembers] at hprint
  rw [hmembers] at hintegral
  rw [hprint] at hpart hcut
  exact Json.not_complete_of_prefix hst hintegral hpart hcut

/-- **What an attempt hands on** is the printed report, or a text that is not complete. -/
theorem report_or_cut (hdump : codec.DumpsUtf8) (hst : st.Separates) (hprints : codec.Prints st)
    (htext : codec.dump job.payload = some text) (hlength : text.length < 2 ^ 63)
    (hwire : a.OnWire text) {out : Bytes} (hout : a.received.bind sendHttpJson = some (200, out)) :
    codec.dump a.report = some out ∨ ¬ Json.Complete out := by
  obtain ⟨raw, hraw, hsend⟩ := Option.bind_eq_some_iff.mp hout
  have hprefix := hwire.received_begins (a.payload_ne_nil hprints htext) hlength raw hraw
  rcases a.sendHttpJson_response hprefix with hnone | ⟨part, hpart, hsome⟩
  · rw [hsend] at hnone
    cases hnone
  · rw [hsend] at hsome
    obtain ⟨hstatu, rfl⟩ := Prod.mk.inj (Option.some.inj hsome)
    rcases a.judgeReply_eq hdump htext with ⟨doc, hdoc, hreply⟩ | ⟨-, hfailed⟩
    · rw [hreply] at hpart
      by_cases hwhole : out = doc
      · exact .inl (hwhole ▸ hdoc)
      · exact .inr (not_complete_of_cut hst hprints a hdoc hpart hwhole)
    · rw [hfailed] at hstatu
      cases hstatu

/-- **What there is of a report that is printed** is read as a result, to whatever byte of it the
response has come. -/
theorem read_of_report (hdump : codec.DumpsUtf8) (htext : codec.dump job.payload = some text)
    (a : WireAttempt codec job) {out : Bytes} (hout : codec.dump a.report = some out) :
    ∃ head, a.response text = head ++ out ∧
      ∀ part, sendHttpJson (head ++ part) = some (200, part) := by
  rcases a.judgeReply_eq hdump htext with ⟨doc, hdoc, hreply⟩ | ⟨hnone, -⟩
  · obtain rfl : doc = out := Option.some.inj (hdoc.symm.trans hout)
    have hpart := hreply ▸ @sendHttpJson_part codec job text a
    exact hpart
  · rw [hout] at hnone
    cases hnone

/-- **The whole response** is read as the report that the worker has printed. -/
theorem report_of_whole (hdump : codec.DumpsUtf8) (htext : codec.dump job.payload = some text)
    (hprintable : Printable a.machine (a.dispatch.request a.machine) a.dispatch.testCases)
    (hreceived : a.received = some (a.response text)) :
    ∃ out, codec.dump a.report = some out ∧
      a.received.bind sendHttpJson = some (200, out) := by
  obtain ⟨out, hout⟩ := hdump.exists_dump
    ((a.dispatch.judgeDoc_utf8_iff_printable a.machine).mpr hprintable)
  obtain ⟨head, hresponse, hread⟩ := a.read_of_report hdump htext hout
  refine ⟨out, hout, ?_⟩
  rw [hreceived, Option.bind_some, hresponse]
  exact hread out

/-- The worker has printed its report, and the response is cut off in it, behind `part`. -/
def CutInBody (a : WireAttempt codec job) (text part : Bytes) : Prop :=
  ∃ head out, codec.dump a.report = some out ∧ a.response text = head ++ out ∧ part <+: out ∧
    part ≠ out ∧ a.received = some (head ++ part)

/-- What arrives of such a response passes for a result, and is not complete. -/
theorem CutInBody.handed_on (hdump : codec.DumpsUtf8) (hst : st.Separates)
    (hprints : codec.Prints st) (htext : codec.dump job.payload = some text) {part : Bytes}
    (h : a.CutInBody text part) :
    a.received.bind sendHttpJson = some (200, part) ∧ ¬ Json.Complete part := by
  obtain ⟨head, out, hout, hresponse, hpart, hcut, hreceived⟩ := h
  obtain ⟨head', hresponse', hread⟩ := a.read_of_report hdump htext hout
  obtain rfl : head = head' := List.append_cancel_right (hresponse.symm.trans hresponse')
  refine ⟨?_, a.not_complete_of_cut hst hprints hout hpart hcut⟩
  rw [hreceived, Option.bind_some]
  exact hread part

end

end WireAttempt

/-! ## 4. The job

The attempts follow one another, and the first that hands something on ends the loop.  What comes
after it does not matter, and what came before has left nothing. -/

/-- `ExecuteRemotely` in the attempt `k`, which has found a worker or not. -/
def runAttempt {codec : Json.Codec} {job : JudgeJob} (attempt : Option (WireAttempt codec job)) :
    Except Json.Error (List WorkerCall × Option Bytes) :=
  match attempt with
  | none => executeRemotely codec none (fun _ _ => none) job
  | some a => a.run

section

variable {codec : Json.Codec} {st : Json.Style} {job : JudgeJob}
  {attempts : Nat → Option (WireAttempt codec job)} {text : Bytes}

/-- **What the row of the submission can be** when `worker_thread` is done with the job.
`ExecuteJob` returns what the first attempt has handed on that hands anything on, so the row has the
verdict of that one or of none. -/
inductive Settled (codec : Json.Codec) {job : JudgeJob}
    (attempts : Nat → Option (WireAttempt codec job)) (retryCount : Nat)
    (replies : Nat → Option Bytes) (row : SubmissionRow) : SubmissionRow → Prop
  /-- It is as it was. -/
  | kept : Settled codec attempts retryCount replies row row
  /-- No attempt has handed anything on. -/
  | gaveUp (hall : ∀ k < retryCount, replies k = none) (out : Bytes)
      (hout : codec.dump systemErrorDoc = some out) :
      Settled codec attempts retryCount replies row ⟨.systemError, out, 0, 0⟩
  /-- It has the verdict on the runs of the first attempt that has handed anything on; what it has
  handed on is the report of these runs. -/
  | judged (k : Nat) (hk : k < retryCount) (hfirst : ∀ j < k, replies j = none)
      (a : WireAttempt codec job) (ha : attempts k = some a) (out : Bytes)
      (hreply : replies k = some out) (hout : codec.dump a.report = some out) :
      Settled codec attempts retryCount replies row (a.verdictRow out)

theorem exists_replies (attempts : Nat → Option (WireAttempt codec job))
    (htext : codec.dump job.payload = some text) :
    ∃ replies : Nat → Option Bytes, ∀ k,
      (∃ calls, runAttempt (attempts k) = .ok (calls, replies k)) ∧ ∀ out, replies k = some out ↔
        ∃ a, attempts k = some a ∧ a.received.bind sendHttpJson = some (200, out) := by
  have heach : ∀ k, ∃ reply, (∃ calls, runAttempt (attempts k) = .ok (calls, reply)) ∧
      ∀ out, reply = some out ↔
        ∃ a, attempts k = some a ∧ a.received.bind sendHttpJson = some (200, out) := by
    intro k
    cases hattempt : attempts k with
    | none =>
      refine ⟨none, ⟨[], rfl⟩, fun out => ⟨fun h => (by cases h), ?_⟩⟩
      rintro ⟨a, ha, -⟩
      cases ha
    | some a =>
      obtain ⟨calls, reply, hrun, hreply⟩ := a.exists_run htext
      refine ⟨reply, ⟨calls, hrun⟩, fun out => (hreply out).trans ?_⟩
      exact ⟨fun h => ⟨a, rfl, h⟩, fun ⟨b, hb, h⟩ => Option.some.inj hb ▸ h⟩
  exact ⟨fun k => (heach k).choose, fun k => (heach k).choose_spec⟩

theorem findSome?_range_eq_none {replies : Nat → Option Bytes} {n : Nat} :
    (List.range n).findSome? replies = none ↔ ∀ k < n, replies k = none := by
  rw [List.findSome?_eq_none_iff]
  exact forall_congr' fun k => by rw [List.mem_range]

theorem findSome?_range {replies : Nat → Option Bytes} {out : Bytes} (n : Nat) :
    (List.range n).findSome? replies = some out ↔
      ∃ k < n, replies k = some out ∧ ∀ j < k, replies j = none := by
  induction n with
  | zero =>
    refine ⟨fun h => (by cases h), ?_⟩
    rintro ⟨k, hk, -⟩
    exact absurd hk (Nat.not_lt_zero k)
  | succ n ih =>
    rw [List.range_succ, List.findSome?_append, List.findSome?_singleton, Option.or_eq_some_iff,
      findSome?_range_eq_none]
    constructor
    · rintro (hbefore | ⟨hall, hreply⟩)
      · obtain ⟨k, hk, hreply, hfirst⟩ := ih.mp hbefore
        exact ⟨k, Nat.lt_succ_of_lt hk, hreply, hfirst⟩
      · exact ⟨n, Nat.lt_succ_self n, hreply, hall⟩
    · rintro ⟨k, hk, hreply, hfirst⟩
      rcases Nat.lt_succ_iff_lt_or_eq.mp hk with hlt | rfl
      · exact .inl (ih.mpr ⟨k, hlt, hreply, hfirst⟩)
      · exact .inr ⟨hfirst, hreply⟩

/-- `ExecuteJob` returns what the first attempt that succeeds has handed on. -/
theorem executeJob_eq_some {retryCount : Int} {replies : Nat → Option Bytes} {out : Bytes} :
    executeJob true retryCount replies = some out ↔
      ∃ k < retryCount.toNat, replies k = some out ∧ ∀ j < k, replies j = none :=
  findSome?_range retryCount.toNat

/-- What `worker_thread` leaves, whatever has come of the attempts. -/
theorem exists_settled (hdump : codec.DumpsUtf8) (hst : st.Separates) (hprints : codec.Prints st)
    (htext : codec.dump job.payload = some text) (hlength : text.length < 2 ^ 63)
    (hwire : ∀ k a, attempts k = some a → a.OnWire text)
    (hread : ∀ k a, attempts k = some a → codec.ReadsBack a.report)
    {validJson : Bytes → Bool} (hcomplete : ∀ out, validJson out = true → Json.Complete out)
    {replies : Nat → Option Bytes} (hreplies : ∀ k out, replies k = some out ↔
      ∃ a, attempts k = some a ∧ a.received.bind sendHttpJson = some (200, out))
    (retryCount : Int) {rows : Submissions} {row : SubmissionRow}
    (hrow : rows job.submissionId = some row) :
    ∃ row', settle codec validJson job (executeJob true retryCount replies) rows
        job.submissionId = some row' ∧
      Settled codec attempts retryCount.toNat replies row row' := by
  cases hjob : executeJob true retryCount replies with
  | none =>
    obtain ⟨out, hout, hkept | hgave⟩ := settle_none hdump hrow validJson
    · exact ⟨row, hkept, .kept⟩
    · have hall := findSome?_range_eq_none.mp hjob
      exact ⟨_, hgave, .gaveUp hall out hout⟩
  | some out =>
    obtain ⟨k, hk, hreply, hfirst⟩ := executeJob_eq_some.mp hjob
    obtain ⟨a, ha, hout⟩ := (hreplies k out).mp hreply
    by_cases hvalid : validJson out = true
    · have hdoc : codec.dump a.report = some out :=
        (a.report_or_cut hdump hst hprints htext hlength (hwire k a ha) hout).resolve_right
          fun hcut => hcut (hcomplete out hvalid)
      have hparse : codec.parse out = .ok a.report := (hread k a ha out hdoc).2
      exact ⟨_, settle_judgeDoc hparse hvalid hrow, .judged k hk hfirst a ha out hreply hdoc⟩
    · exact ⟨row, settle_invalid (Bool.eq_false_of_not_eq_true hvalid) hrow, .kept⟩

/-- And when the first response of which anything is handed on has arrived as a whole. -/
theorem exists_verdict (hdump : codec.DumpsUtf8) (htext : codec.dump job.payload = some text)
    {replies : Nat → Option Bytes} (hreplies : ∀ k out, replies k = some out ↔
      ∃ a, attempts k = some a ∧ a.received.bind sendHttpJson = some (200, out))
    {retryCount : Int} {rows : Submissions} {row : SubmissionRow}
    (hrow : rows job.submissionId = some row) {k : Nat} (hk : k < retryCount.toNat)
    {a : WireAttempt codec job} (ha : attempts k = some a) (hfirst : ∀ j < k, replies j = none)
    (hprintable : Printable a.machine (a.dispatch.request a.machine) a.dispatch.testCases)
    (hreceived : a.received = some (a.response text)) (hread : codec.ReadsBack a.report)
    {validJson : Bytes → Bool}
    (hvalid : ∀ out, codec.dump a.report = some out → validJson out = true) :
    ∃ out, codec.dump a.report = some out ∧
      settle codec validJson job (executeJob true retryCount replies) rows job.submissionId =
        some (a.verdictRow out) := by
  obtain ⟨out, hdoc, hout⟩ := a.report_of_whole hdump htext hprintable hreceived
  have hjob : executeJob true retryCount replies = some out :=
    executeJob_eq_some.mpr ⟨k, hk, (hreplies k out).mpr ⟨a, ha, hout⟩, hfirst⟩
  have hparse : codec.parse out = .ok a.report := (hread out hdoc).2
  rw [hjob]
  exact ⟨out, hdoc, settle_judgeDoc hparse (hvalid out hdoc) hrow⟩

/-- A first response that is cut off in its body leaves the row alone. -/
theorem settle_of_cut (hdump : codec.DumpsUtf8) (hst : st.Separates) (hprints : codec.Prints st)
    (htext : codec.dump job.payload = some text) {validJson : Bytes → Bool}
    (hcomplete : ∀ out, validJson out = true → Json.Complete out)
    {replies : Nat → Option Bytes} (hreplies : ∀ k out, replies k = some out ↔
      ∃ a, attempts k = some a ∧ a.received.bind sendHttpJson = some (200, out))
    {retryCount : Int} {rows : Submissions} {row : SubmissionRow}
    (hrow : rows job.submissionId = some row) {k : Nat} {a : WireAttempt codec job}
    (ha : attempts k = some a) {part : Bytes} (hcut : a.CutInBody text part) :
    replies k = some part ∧ (k < retryCount.toNat → (∀ j < k, replies j = none) →
      settle codec validJson job (executeJob true retryCount replies) rows job.submissionId =
        some row) := by
  obtain ⟨hread, hpart⟩ := hcut.handed_on hdump hst hprints htext
  have hreply : replies k = some part := (hreplies k part).mpr ⟨a, ha, hread⟩
  refine ⟨hreply, fun hk hfirst => ?_⟩
  have hinvalid : validJson part = false :=
    Bool.eq_false_of_not_eq_true fun hvalid => hpart (hcomplete part hvalid)
  rw [executeJob_eq_some.mpr ⟨k, hk, hreply, hfirst⟩]
  exact settle_invalid hinvalid hrow

/-- **From the payload to the row.**  Each attempt has a connection of its own, on which anything
can happen at any byte.  No exception leaves `ExecuteRemotely`; when `worker_thread` is done with
the job, the row is as it was, or says that there is no worker, or has the verdict on the runs of
the first attempt that has handed anything on.  If that response has arrived as a whole, it is
stored; if it has been cut off in its body, what there is of it passes for a result, but the row
stays as it was. -/
theorem wire_verdict (hdump : codec.DumpsUtf8) (hst : st.Separates) (hprints : codec.Prints st)
    (htext : codec.dump job.payload = some text) (hlength : text.length < 2 ^ 63)
    (hwire : ∀ k a, attempts k = some a → a.OnWire text)
    (hread : ∀ k a, attempts k = some a → codec.ReadsBack a.report)
    {validJson : Bytes → Bool} (hcomplete : ∀ out, validJson out = true → Json.Complete out)
    (retryCount : Int) {rows : Submissions} {row : SubmissionRow}
    (hrow : rows job.submissionId = some row) :
    ∃ replies : Nat → Option Bytes,
      (∀ k, ∃ calls, runAttempt (attempts k) = .ok (calls, replies k)) ∧
      (∃ row', settle codec validJson job (executeJob true retryCount replies) rows
          job.submissionId = some row' ∧
        Settled codec attempts retryCount.toNat replies row row') ∧
      (∀ k < retryCount.toNat, ∀ a, attempts k = some a → (∀ j < k, replies j = none) →
        Printable a.machine (a.dispatch.request a.machine) a.dispatch.testCases →
        a.received = some (a.response text) →
        (∀ out, codec.dump a.report = some out → validJson out = true) →
        ∃ out, codec.dump a.report = some out ∧
          settle codec validJson job (executeJob true retryCount replies) rows job.submissionId =
            some (a.verdictRow out)) ∧
      ∀ k a part, attempts k = some a → a.CutInBody text part → replies k = some part ∧
        (k < retryCount.toNat → (∀ j < k, replies j = none) →
          settle codec validJson job (executeJob true retryCount replies) rows job.submissionId =
            some row) := by
  obtain ⟨replies, hreplies⟩ := exists_replies attempts htext
  have hout : ∀ k out, replies k = some out ↔ ∃ a, attempts k = some a ∧
      a.received.bind sendHttpJson = some (200, out) := fun k => (hreplies k).2
  refine ⟨replies, fun k => (hreplies k).1, ?_, ?_, ?_⟩
  · exact exists_settled hdump hst hprints htext hlength hwire hread hcomplete hout retryCount hrow
  · intro k hk a ha hfirst hprintable hreceived hvalid
    exact exists_verdict hdump htext hout hrow hk ha hfirst hprintable hreceived (hread k a ha)
      hvalid
  · intro k a part ha hcut
    exact settle_of_cut hdump hst hprints htext hcomplete hout hrow ha hcut

end

/-- `nlohmann::json` on documents without fractions. -/
def plainCodec : Json.Codec := .standard (.compact fun _ => [])

/-- The dispatch of submission 7 to worker 0. -/
def plainDispatch : Dispatch plainCodec where
  submission := sampleDispatch.submission
  problem := sampleDispatch.problem
  language := sampleDispatch.language
  testCases := sampleDispatch.testCases
  job := sampleDispatch.job
  worker := 0
  cfg := sampleDispatch.cfg
  payload_eq := rfl
  judgePath_eq := rfl
  parse_dump text htext :=
    (Json.standard_readsBack (v := samplePayload) (Json.separates_compact _) rfl text htext).2

def plainText : Bytes := samplePayload.print (.compact fun _ => [])

/-- The response, from a machine on which the program writes `ok`. -/
def plainReplyText : Bytes :=
  judgeReplyText plainCodec (sampleMachine (ascii "ok")) noFiles plainDispatch.cfg plainText

/-- The attempt in which everything arrives. -/
def plainAttempt : WireAttempt plainCodec sampleDispatch.job where
  dispatch := plainDispatch
  machine := sampleMachine (ascii "ok")
  files := noFiles
  events := [.read (requestText plainDispatch.cfg plainText), .write plainReplyText.length]
  received := some plainReplyText
  job_eq := rfl

theorem length_plainText : plainText ≠ [] ∧ plainText.length < 2 ^ 63 := by decide +kernel

/-- The attempt in which this is received. -/
def receiving (raw : Bytes) : WireAttempt plainCodec sampleDispatch.job :=
  { plainAttempt with received := some raw }

theorem receiving_onWire {raw : Bytes} (h : raw <+: plainReplyText) :
    (receiving raw).OnWire plainText := by
  have hhost : 10 ∉ plainDispatch.cfg.host := by decide
  have hfits : ∀ h ∈ requestHeaders plainDispatch.cfg plainText,
      (WireRequest.headerLine h).length + 2 ≤ maxLine := by decide +kernel
  have hserves : Serves (workerSite plainCodec (sampleMachine (ascii "ok")) noFiles)
      (requestText plainDispatch.cfg plainText) plainReplyText :=
    serves_judge rfl hhost length_plainText.1 length_plainText.2 hfits
  obtain ⟨t, hrun, harrived, hleft⟩ := exists_served hserves
  refine ⟨hhost, hfits, t, hrun, harrived ▸ List.prefix_refl _, fun raw' hraw' => ?_⟩
  obtain rfl : raw = raw' := Option.some.inj hraw'
  exact hleft ▸ h

theorem plainAttempt_onWire : plainAttempt.OnWire plainText :=
  receiving_onWire (List.prefix_refl plainReplyText)

theorem plainAttempt_report : plainAttempt.report.integral = true ∧
    ∀ out, plainCodec.dump plainAttempt.report = some out → Json.Complete out := by
  obtain ⟨members, hmembers, hintegral⟩ := exists_members_judgeDoc plainAttempt.machine
    (plainAttempt.dispatch.request plainAttempt.machine) plainAttempt.dispatch.testCases
  refine ⟨hintegral, fun out hout => ?_⟩
  have hprint := Json.printing_prints _ _ _ _ hout
  rw [WireAttempt.report, hmembers] at hprint
  rw [hmembers] at hintegral
  rw [hprint]
  exact Json.complete_print (Json.separates_compact _) hintegral

/-- What the program leaves can be printed. -/
theorem plainAttempt_printable : Printable plainAttempt.machine
    (plainAttempt.dispatch.request plainAttempt.machine) plainAttempt.dispatch.testCases := by
  have hok : Utf8.wellFormed (actualOutput (ascii "ok")) = true := by decide +kernel
  exact fun _ _ _ => ⟨hok, fun hstatus => absurd rfl hstatus⟩

/-- In the first of three attempts the submission is accepted if the whole response arrives; without
the last byte, or with nothing of the body, it stays as it is. -/
theorem wire_verdict_accepted :
    (∃ replies : Nat → Option Bytes, (∃ calls, plainAttempt.run = .ok (calls, replies 0)) ∧
      ∃ out, plainCodec.dump plainAttempt.report = some out ∧
        settle plainCodec (fun text => decide (Json.Complete text)) sampleDispatch.job
          (executeJob true 3 replies) (fun _ => some ⟨.pending, [], 0, 0⟩) 7 =
            some ⟨.accepted, out, 5, 3000⟩) ∧
      ∃ head out, plainCodec.dump plainAttempt.report = some out ∧ plainReplyText = head ++ out ∧
        ∀ part, part <+: out → part ≠ out → ∃ replies : Nat → Option Bytes,
          (∃ calls, (receiving (head ++ part)).run = .ok (calls, some part)) ∧
          settle plainCodec (fun text => decide (Json.Complete text)) sampleDispatch.job
            (executeJob true 3 replies) (fun _ => some ⟨.pending, [], 0, 0⟩) 7 =
              some ⟨.pending, [], 0, 0⟩ := by
  have hwire := fun (raw : Bytes) (hraw : raw <+: plainReplyText) =>
    @wire_verdict plainCodec (.compact fun _ => [])
      sampleDispatch.job (fun _ => some (receiving raw)) plainText (Json.standard_dumpsUtf8 _)
      (Json.separates_compact _) (Json.printing_prints _ _) rfl length_plainText.2
      (fun k a ha => Option.some.inj ha ▸ receiving_onWire hraw)
      (fun k a ha => Option.some.inj ha ▸
        Json.standard_readsBack (Json.separates_compact _) plainAttempt_report.1)
      (fun text => decide (Json.Complete text)) (fun out => of_decide_eq_true) 3
      (fun _ => some ⟨.pending, [], 0, 0⟩) ⟨.pending, [], 0, 0⟩ rfl
  constructor
  · obtain ⟨replies, hruns, -, hwhole, -⟩ := hwire plainReplyText (List.prefix_refl _)
    refine ⟨replies, hruns 0, ?_⟩
    exact hwhole 0 (by decide) plainAttempt rfl (fun j hj => absurd hj (Nat.not_lt_zero j))
      plainAttempt_printable rfl fun out hout => decide_eq_true (plainAttempt_report.2 out hout)
  · obtain ⟨out, hout⟩ := (Json.standard_dumpsUtf8 (.compact fun _ => [])).exists_dump
      ((plainAttempt.dispatch.judgeDoc_utf8_iff_printable plainAttempt.machine).mpr
        plainAttempt_printable)
    obtain ⟨head, hresponse, -⟩ : ∃ head, plainAttempt.response plainText = head ++ out ∧
        ∀ part, sendHttpJson (head ++ part) = some (200, part) :=
      plainAttempt.read_of_report (Json.standard_dumpsUtf8 _) rfl hout
    refine ⟨head, out, hout, hresponse, fun part hpart hcut => ?_⟩
    have hbegins : head ++ part <+: plainReplyText := by
      rw [show plainReplyText = head ++ out from hresponse]
      exact (List.prefix_append_right_inj head).mpr hpart
    obtain ⟨replies, hruns, -, -, hcuts⟩ := hwire (head ++ part) hbegins
    obtain ⟨hreply, hrow⟩ := hcuts 0 (receiving (head ++ part)) part rfl
      ⟨head, out, hout, hresponse, hpart, hcut, rfl⟩
    exact ⟨replies, hreply ▸ hruns 0, hrow (by decide) fun j hj => absurd hj (Nat.not_lt_zero j)⟩

end OnlineJudge.Judge
