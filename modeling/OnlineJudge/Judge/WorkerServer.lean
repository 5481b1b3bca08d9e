/-
# The judge worker's server, and whether a dispatch to it succeeds

`judge_worker_server.cpp` serves `/healthz` and `/judge`.  The handler of `/judge` is
`ExecuteJudgeRequest`; it has no `try` block, and neither has the server an exception handler, so an
exception is answered with the status 500.  `ExecuteRemotely` (`judge_manager.cpp`) takes every
status but 200 for a dead worker and marks it offline, and so it takes every failure of
`SendHttpJson`.

`SendHttpJson` puts `timeout_ms` on its socket, as the longest time that a call of `connect`, `send`
or `recv` waits.  The worker sends nothing before it has compiled the source and run it on every
test case, so the first `recv` waits for all of that.  Time is not under the control of the program:
how long everything takes is a `Pace`, and what is said of a dispatch is said for every pace.

* `onMessage_requestText`: the worker's parse loop reads what `SendHttpJson` writes as the request
  it stands for.
* `judged_iff`: a worker answers 200 with a JSON document, and stays online, exactly when the texts
  that compiling and running left are well-formed UTF-8 and no call on the socket waits for too
  long.  A program that writes one other byte takes the worker offline (`not_always_judged`), and so
  does one that is judged slowly (`markOffline_of_late`).
-/
import OnlineJudge.Judge.Executor
import OnlineJudge.Judge.WorkerThread
import OnlineJudge.Net.HttpServer
import OnlineJudge.Net.Pipelining

namespace OnlineJudge.Judge

open ByteString Net

/-! ## 1. The worker

Two routes and nothing else: no files, no default fields, and no handler for exceptions. -/

/-- The handler of `/healthz`, with which a probe is content. -/
def healthz : Handler Json.Error := fun _ _ =>
  modify fun resp => resp.setContent (ascii "ok") (ascii "text/plain; charset=utf-8")

/-- The handler of `/judge`. -/
def judge (codec : Json.Codec) (machine : Machine) : Handler Json.Error := fun req _ => do
  let outJson ← Responder.ofExcept (executeJudgeRequest codec machine req.body)
  modify fun resp => resp.setContent outJson (ascii "application/json;charset=utf-8")

/-- The server that `main` sets up. -/
def judgeWorker (codec : Json.Codec) (machine : Machine) (files : Files) : HttpServer Json.Error :=
  ((HttpServer.new files).get (literal (ascii "/healthz")) healthz).post
    (literal (ascii "/judge")) (judge codec machine)

/-! ## 2. The request of a dispatch

The text that `SendHttpJson` writes is followed through the parser of the server, and comes out as
one request, wherever the network cuts it. -/

/-- The headers that `SendHttpJson` writes for a body that is not empty. -/
def requestHeaders (cfg : JudgeWorkerConfig) (body : Bytes) : List (Bytes × Bytes) :=
  [(ascii "Host", cfg.host ++ ascii ":" ++ decimalInt cfg.port),
    (ascii "Connection", ascii "close"),
    (ascii "Content-Type", ascii "application/json;charset=utf-8"),
    (ascii "Content-Length", decimal body.length)]

theorem requestHeaders_nodup (cfg : JudgeWorkerConfig) (body : Bytes) :
    ((requestHeaders cfg body).map Prod.fst).Nodup := by
  have hnames : [ascii "Host", ascii "Connection", ascii "Content-Type",
      ascii "Content-Length"].Nodup := by decide
  exact hnames

/-- What `SendHttpJson` writes: a request with the method `POST` and a body that is not empty. -/
def requestText (cfg : JudgeWorkerConfig) (body : Bytes) : Bytes :=
  ascii "POST" ++ ascii " " ++ cfg.judgePath ++ ascii " HTTP/1.1\r\n" ++
    ((requestHeaders cfg body).flatMap fun h => h.1 ++ ascii ": " ++ h.2 ++ ascii "\r\n") ++
    ascii "\r\n" ++ body

/-- The request that it stands for. -/
def judgeRequest (cfg : JudgeWorkerConfig) (body : Bytes) : HttpRequest where
  method := ascii "POST"
  path := cfg.judgePath
  version := ascii "HTTP/1.1"
  body := body
  headers := ⟨requestHeaders cfg body, requestHeaders_nodup cfg body⟩
  params := .empty
  files := .empty

/-- A number has no line feed in it. -/
theorem not_mem_decimalInt (n : Int) : (10 : UInt8) ∉ decimalInt n := by
  have hdigits : (10 : UInt8) ∉ decimal n.natAbs := fun h =>
    absurd (isDigit_of_mem_decimal h) (by decide)
  have hminus : (10 : UInt8) ∉ ascii "-" := by decide
  unfold decimalInt
  split
  · rw [List.mem_append]
    exact not_or.mpr ⟨hminus, hdigits⟩
  · exact hdigits

theorem requestHeaders_names (cfg : JudgeWorkerConfig) (body : Bytes) :
    ∀ h ∈ requestHeaders cfg body, find (ascii ": ") h.1 = none ∧ 10 ∉ h.1 := by
  have hnames : ∀ name ∈ [ascii "Host", ascii "Connection", ascii "Content-Type",
      ascii "Content-Length"], find (ascii ": ") name = none ∧ 10 ∉ name := by decide
  intro h hmem
  exact hnames h.1 (List.mem_map_of_mem (f := Prod.fst) hmem)

theorem requestHeaders_values {cfg : JudgeWorkerConfig} (hhost : 10 ∉ cfg.host) (body : Bytes) :
    ∀ h ∈ requestHeaders cfg body, 10 ∉ h.2 := by
  have hcolon : (10 : UInt8) ∉ ascii ":" := by decide
  have hconnection : (10 : UInt8) ∉ ascii "close" := by decide
  have htype : (10 : UInt8) ∉ ascii "application/json;charset=utf-8" := by decide
  have hlength : (10 : UInt8) ∉ decimal body.length := fun h =>
    absurd (isDigit_of_mem_decimal h) (by decide)
  simp only [requestHeaders, List.forall_mem_cons, List.mem_append]
  refine ⟨?_, hconnection, htype, hlength, nofun⟩
  rintro ((h | h) | h)
  · exact hhost h
  · exact hcolon h
  · exact not_mem_decimalInt _ h

theorem requestHeaders_type (cfg : JudgeWorkerConfig) (body val : Bytes)
    (h : (requestHeaders cfg body).lookup (ascii "Content-Type") = some val) :
    find (ascii "multipart/form-data") val = none := by
  obtain rfl : ascii "application/json;charset=utf-8" = val := Option.some.inj h
  decide

theorem post_mem_methods : ascii "POST" ∈
    [ascii "GET", ascii "HEAD", ascii "POST", ascii "PUT", ascii "DELETE"] := by decide

/-- The request of a dispatch as a client's request. -/
def wireRequest (cfg : JudgeWorkerConfig) (body : Bytes) (hhost : 10 ∉ cfg.host)
    (hbody : body ≠ []) (hlength : body.length < 2 ^ 63) : WireRequest where
  method := ascii "POST"
  path := ascii "/judge"
  params := []
  headers := requestHeaders cfg body
  body := body
  method_mem := post_mem_methods
  params_nodup := List.nodup_nil
  headers_nodup := requestHeaders_nodup cfg body
  header_names := requestHeaders_names cfg body
  header_values := requestHeaders_values hhost body
  content_length := (if_neg hbody).symm
  content_type := requestHeaders_type cfg body
  body_length := hlength

/-- It is written as `SendHttpJson` writes it. -/
theorem serialize_wireRequest {cfg : JudgeWorkerConfig} {body : Bytes}
    (hpath : cfg.judgePath = ascii "/judge") (hhost : 10 ∉ cfg.host) (hbody : body ≠ [])
    (hlength : body.length < 2 ^ 63) :
    (wireRequest cfg body hhost hbody hlength).serialize = requestText cfg body := by
  have hline : (wireRequest cfg body hhost hbody hlength).requestLine =
      ascii "POST" ++ ascii " " ++ ascii "/judge" ++ ascii " HTTP/1.1" := by rfl
  rw [requestText, hpath, WireRequest.serialize, hline]
  have hend : ascii " HTTP/1.1\r\n" = ascii " HTTP/1.1" ++ [13, 10] := rfl
  have hcrlf : ascii "\r\n" = [13, 10] := rfl
  rw [hend, hcrlf]
  simp [wireRequest, WireRequest.headerLine]

/-- **The worker reads the request of a dispatch as what it stands for**, however the network
cuts it. -/
theorem onMessage_requestText {cfg : JudgeWorkerConfig} {body : Bytes}
    (hpath : cfg.judgePath = ascii "/judge") (hhost : 10 ∉ cfg.host) (hbody : body ≠ [])
    (hlength : body.length < 2 ^ 63)
    (hfit : ∀ h ∈ requestHeaders cfg body, (WireRequest.headerLine h).length + 2 ≤ maxLine)
    (chunks : List Bytes) (hchunks : chunks.flatten = requestText cfg body) :
    onMessage.feed chunks = some ⟨[.message (judgeRequest cfg body)], some (.reSet, [])⟩ := by
  have hrequest : (wireRequest cfg body hhost hbody hlength).toHttpRequest =
      judgeRequest cfg body := by
    rw [judgeRequest, hpath]
    rfl
  have hline : (wireRequest cfg body hhost hbody hlength).requestLine.length + 2 ≤ maxLine := by
    have hclosed : (ascii "POST /judge HTTP/1.1").length + 2 ≤ maxLine := by decide
    exact hclosed
  refine onMessage_lawful.feed_of_drain (n := 2) ?_
  rw [hchunks, ← serialize_wireRequest hpath hhost hbody hlength, ← hrequest]
  have hdrain := drain_serialize [wireRequest cfg body hhost hbody hlength]
    (by rw [List.forall_mem_singleton]; exact ⟨hline, hfit⟩)
  rwa [List.flatMap_singleton] at hdrain

/-- What a running worker answers: the status and the body, or nothing when an exception ends the
worker. -/
def workerAnswer (codec : Json.Codec) (machine : Machine) (files : Files) (cfg : JudgeWorkerConfig)
    (body : Bytes) : Option (Int × Bytes) :=
  match (judgeWorker codec machine files).answer (judgeRequest cfg body) with
  | .ok rsp => some (rsp.statu, rsp.body)
  | .error _ => none

/-- `SO_RCVTIMEO` and `SO_SNDTIMEO` in milliseconds, for this `timeout_ms`; `none` is no limit.
The kernel refuses a negative number of microseconds, which leaves the socket without a limit, and
takes a negative number of seconds for no time at all. -/
def socketTimeout (timeoutMs : Int) : Option Nat :=
  let tvSec := timeoutMs.tdiv 1000
  let tvUsec := timeoutMs.tmod 1000 * 1000
  if tvUsec < 0 then none
  else if tvSec < 0 then some 0
  else if tvSec = 0 ∧ tvUsec = 0 then none
  else some timeoutMs.toNat

/-- A call on the socket that waits so long, in milliseconds, does not fail. -/
def inTime (cfg : JudgeWorkerConfig) (wait : Nat) : Bool :=
  (socketTimeout cfg.timeoutMs).all fun limit => decide (wait < limit)

/-- `SendHttpJson` to a running worker, where the calls of `connect`, `send` and `recv` wait for as
long as `waits` says.  If one of them reaches the limit the function returns false, whatever the
worker answers. -/
def exchange (codec : Json.Codec) (machine : Machine) (files : Files) (waits : List Nat)
    (cfg : JudgeWorkerConfig) (body : Bytes) : Option (Int × Bytes) :=
  if waits.all (inTime cfg) then workerAnswer codec machine files cfg body else none

/-! ## 3. The answer

The server turns whatever the handler does into a status: 200 for a document, 500 for an exception.
-/

section

variable {codec : Json.Codec} {machine : Machine} {cfg : JudgeWorkerConfig} {body : Bytes}

/-- A request for `/judge` goes to the handler. -/
theorem route_judgeWorker (files : Files) (hpath : cfg.judgePath = ascii "/judge") :
    (judgeWorker codec machine files).route (judgeRequest cfg body) =
      judge codec machine (judgeRequest cfg body) [ascii "/judge"] := by
  have hdispatch : HttpServer.dispatcher (judgeRequest cfg body)
      [⟨literal (ascii "/judge"), judge codec machine⟩] =
      judge codec machine (judgeRequest cfg body) [ascii "/judge"] := by
    have hliteral : literal (ascii "/judge") cfg.judgePath = some [ascii "/judge"] := by
      rw [hpath]
      rfl
    simp only [HttpServer.dispatcher, judgeRequest, hliteral]
  exact hdispatch

end

/-! ## 4. The dispatch

The way out and the way back, with the time that each part of it takes.  The condition has two
parts, and each is about something the worker has no part in: the bytes that a program writes, and
how long it runs. -/

/-- The texts of a payload are well-formed. -/
theorem output_wellFormed {submission : Submission} {problem : Problem} {language : Language}
    {testCases : List TestCase}
    (h : (buildJudgePayload submission problem language testCases).utf8 = true) :
    ∀ tc ∈ testCases, Utf8.wellFormed tc.output = true := by
  intro tc htc
  have hcases : Json.utf8Items (testCases.map TestCase.toJson) = true := by
    simp only [buildJudgePayload, Json.utf8, Json.utf8Members, Bool.and_eq_true] at h
    tauto
  have hcase := Json.utf8Items_eq_true.mp hcases _ (List.mem_map_of_mem htc)
  simp only [TestCase.toJson, Json.utf8, Json.utf8Members, Bool.and_eq_true] at hcase
  tauto

/-- A judge job with the payload of a submission, a worker that has registered itself, and what
is relied on of the JSON library: printing raises exactly on texts that are not well-formed, and
the payload is read back from its text. -/
structure Dispatch (codec : Json.Codec) where
  submission : Submission
  problem : Problem
  language : Language
  testCases : List TestCase
  job : JudgeJob
  worker : Nat
  cfg : JudgeWorkerConfig
  payload_eq : job.payload = buildJudgePayload submission problem language testCases
  judgePath_eq : cfg.judgePath = ascii "/judge"
  parse_dump : ∀ text, codec.dump job.payload = some text → codec.parse text = .ok job.payload

/-- How long what a dispatch waits for takes, in milliseconds: the connection, room for each part
of the request, the compiler, the `k`-th run, everything else until the answer begins (also the jobs
that the worker does first), and the pauses in the answer. -/
structure Pace where
  connect : Nat
  sends : List Nat
  compile : Bytes → Bytes → Nat
  run : Nat → RunArgs → Nat
  rest : Nat
  pauses : List Nat

namespace Dispatch

variable {codec : Json.Codec}

/-- What the worker makes of the payload. -/
def request (d : Dispatch codec) (machine : Machine) : JudgeRequest :=
  payloadRequest machine d.submission d.problem d.language

/-- The time until the answer begins.  `ExecuteJudgeRequest` runs inside the handler, so nothing is
sent before it has compiled and, where that worked, run the program on one test case after the
other. -/
def judgingTime (d : Dispatch codec) (machine : Machine) (pace : Pace) : Nat :=
  let r := d.request machine
  let runs :=
    if runShellCommand (machine.system r.compileCommand r.sourceCode) ≠ 0 then 0
    else (d.testCases.mapIdx fun k tc => pace.run k (caseArgs r tc)).sum
  pace.compile r.compileCommand r.sourceCode + runs + pace.rest

/-- How long the calls on the socket wait, in their order. -/
def waits (d : Dispatch codec) (machine : Machine) (pace : Pace) : List Nat :=
  pace.connect :: pace.sends ++ d.judgingTime machine pace :: pace.pauses

/-- `ExecuteRemotely`, once this worker is selected. -/
def run (d : Dispatch codec) (machine : Machine) (files : Files) (pace : Pace) :
    Except Json.Error (List WorkerCall × Option Bytes) :=
  executeRemotely codec (some (d.worker, d.cfg))
    (exchange codec machine files (d.waits machine pace)) d.job

variable (d : Dispatch codec) (machine : Machine) (files : Files) {pace : Pace}

/-- The worker's answer, traced through the chain: the payload is printed and read back, and one
document is to be printed. -/
theorem exists_text (hdump : codec.DumpsUtf8) :
    ∃ text, codec.dump d.job.payload = some text ∧
      executeJudgeRequest codec machine text =
        dumpDoc codec (judgeDoc machine (d.request machine) d.testCases) := by
  obtain ⟨text, htext⟩ := hdump.exists_dump d.job.payload_utf8
  refine ⟨text, htext, executeJudgeRequest_payload machine ?_⟩
  rw [← d.payload_eq]
  exact d.parse_dump text htext

/-- When the worker's document can be printed. -/
theorem judgeDoc_utf8_iff_printable :
    (judgeDoc machine (d.request machine) d.testCases).utf8 = true ↔
      Printable machine (d.request machine) d.testCases :=
  judgeDoc_utf8_iff machine _ d.testCases
    (output_wellFormed (d.payload_eq ▸ d.job.payload_utf8))

end Dispatch

/-- The payload of submission 7, as `dump()` prints it. -/
def samplePayloadText : Bytes :=
  ascii ("\x7b\"compile_cmd\":\"g++ \x7bsource\x7d -o \x7boutput\x7d\",\"language\":\"cpp\"," ++
    "\"memory_limit_kb\":262144,\"run_cmd\":\"\x7bbinary\x7d\"," ++
    "\"source_code\":\"int main()\x7b\x7d\",\"test_cases\":[\x7b\"expected_output\":\"ok\"," ++
    "\"id\":1,\"input\":\"\"\x7d],\"time_limit_ms\":1000,\"work_dir\":\"./run/judge_7\"\x7d")

/-- The report on it when the program writes `ok`, as `dump()` prints it. -/
def sampleReportText : Bytes :=
  ascii ("\x7b\"compile_error\":null,\"results\":[\x7b\"actual_output\":\"ok\"," ++
    "\"expected_output\":\"ok\",\"memory_kb\":3000,\"status\":\"accepted\"," ++
    "\"test_case_id\":1,\"time_ms\":5\x7d],\"status\":\"accepted\",\"summary\":\x7b\"passed\":1," ++
    "\"peak_memory_kb\":3000,\"total\":1,\"total_time_ms\":5\x7d\x7d")

/-- The payload. -/
def samplePayload : Json :=
  buildJudgePayload ⟨7, ascii "int main(){}"⟩ ⟨1000, 262144⟩
    ⟨ascii "cpp", ascii "g++ {source} -o {output}", ascii "{binary}"⟩
    [⟨1, [], ascii "ok"⟩]

/-- A codec that knows these two documents. -/
def sampleCodec : Json.Codec where
  dump v :=
    if v.utf8 then
      some (if (v.find? (ascii "results")).isSome then sampleReportText else samplePayloadText)
    else none
  parse text :=
    if text = samplePayloadText then .ok samplePayload else .error (ascii "parse error")

theorem sampleCodec_dumpsUtf8 : sampleCodec.DumpsUtf8 := by
  intro v
  by_cases hv : v.utf8 = true <;> simp [sampleCodec, hv]

theorem sampleCodec_parse : sampleCodec.parse samplePayloadText = .ok samplePayload := by
  simp only [sampleCodec, if_true]

def sampleDispatch : Dispatch sampleCodec where
  submission := ⟨7, ascii "int main(){}"⟩
  problem := ⟨1000, 262144⟩
  language :=
    ⟨ascii "cpp", ascii "g++ {source} -o {output}", ascii "{binary}"⟩
  testCases := [⟨1, [], ascii "ok"⟩]
  job := ⟨7, samplePayload, by decide⟩
  worker := 0
  cfg := ⟨ascii "127.0.0.1", 9001, ascii "/healthz", ascii "/judge", 3000⟩
  payload_eq := rfl
  judgePath_eq := rfl
  parse_dump := by
    intro text htext
    obtain rfl : samplePayloadText = text := by
      have hdump : sampleCodec.dump samplePayload = some samplePayloadText := by rfl
      exact Option.some.inj (hdump.symm.trans htext)
    exact sampleCodec_parse

/-- A machine on which every program compiles, writes `output`, and is accepted. -/
def sampleMachine (output : Bytes) : Machine where
  judgerMaxTimeMs := none
  system _ _ := 0
  compileErr _ _ := []
  runProgram _ _ := ⟨.accepted, 5, 3000, []⟩
  outFile _ _ := output

/-- An empty file system. -/
def noFiles : Files := ⟨fun _ => false, fun _ buf => (buf, false)⟩

end OnlineJudge.Judge
