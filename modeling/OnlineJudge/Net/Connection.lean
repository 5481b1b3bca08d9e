/-
# A connection of the HTTP server

`OnMessage` (`net/http.hpp`) with what it does to its `Connection` (`net/muduo.hpp`): it answers
the requests in the input buffer one after the other, and shuts the connection down when an
answer does not say `Connection: keep-alive`.  `ShutdownInLoop` only half-closes: it calls the
message callback again for the bytes that are left, so `OnMessage` is entered a second time while
it runs, and it goes on with its own loop after that.

So a request behind a closing one is executed if it is in the buffer by then.  The module keeps a
record of what has been answered and compares it with the rule that a closing request is the last
one to be executed:

* `onMessage_spec`: in spite of the second entry, a call of `OnMessage` answers what one pass of
  the parse loop finds in the buffer, in order.
* `nothing_after_close_iff`: over any run of events the rule is kept exactly when no call of
  `OnMessage` finds a complete request behind a closing one.
-/
import OnlineJudge.Lib.Transition
import OnlineJudge.Net.HttpServer
import OnlineJudge.Net.OnMessage

namespace OnlineJudge.Net

open ByteString Framer

/-! ## 1. Writing a response

Completing the fields and writing the text are two steps, since what becomes of the connection is
decided between the two, by the completed fields. -/

namespace HttpResponse

def hasHeader (rsp : HttpResponse) (key : Bytes) : Bool := (rsp.headers.find? key).isSome

/-- `Close`: whether the connection is shut down after this response. -/
def close (rsp : HttpResponse) : Bool :=
  rsp.headers.find? (ascii "Connection") != some (ascii "keep-alive")

end HttpResponse

/-- An `HttpServer` with its `_default_headers`. -/
structure SiteServer (ε : Type) extends HttpServer ε where
  defaultHeaders : StrMap Bytes

namespace SiteServer

variable {ε : Type}

/-- The first part of `WriteReponse`: the header fields are completed. -/
def completeHeaders (server : SiteServer ε) (req : HttpRequest) (rsp : HttpResponse) :
    HttpResponse :=
  let rsp := server.defaultHeaders.entries.foldl
    (fun rsp head => if rsp.hasHeader head.1 then rsp else rsp.setHeader head.1 head.2) rsp
  -- `SetHeader` inserts: a `Connection` field that is there already stays
  let rsp := rsp.setHeader (ascii "Connection")
    (if req.close then ascii "close" else ascii "keep-alive")
  let rsp :=
    if rsp.body ≠ [] ∧ ¬ rsp.hasHeader (ascii "Content-Length") then
      rsp.setHeader (ascii "Content-Length") (decimal rsp.body.length)
    else rsp
  let rsp :=
    if rsp.body ≠ [] ∧ ¬ rsp.hasHeader (ascii "Content-Type") then
      rsp.setHeader (ascii "Content-Type") (ascii "application/octet-stream")
    else rsp
  if rsp.redirectFlag then rsp.setHeader (ascii "Location") rsp.redirectUrl else rsp

/-- The second part of `WriteReponse`: the text that is sent. -/
def responseText (req : HttpRequest) (rsp : HttpResponse) : Bytes :=
  req.version ++ ascii " " ++ decimalInt rsp.statu ++ ascii " " ++ Util.statuDesc rsp.statu ++
    ascii "\r\n" ++
    (rsp.headers.entries.map fun head => head.1 ++ ascii ": " ++ head.2 ++ ascii "\r\n").flatten ++
    ascii "\r\n" ++ rsp.body

/-- The response to a message that the parser has refused. -/
def refusal (server : SiteServer ε) (statu : Nat) (req : HttpRequest) : Except ε HttpResponse :=
  let (result, rsp) := (server.renderDefaultErrorPage req).run (.ofStatu statu)
  result.map fun _ => rsp

end SiteServer

/-! ## 2. The connection

The functions of `Connection` as far as one connection needs them, in the thread of its loop.  What
the queue of the loop does is in `Muduo.Connection`; here a release is in the queue or not. -/

inductive ConnStatu
  | disconnected
  | connecting
  | connected
  | disconnecting
deriving DecidableEq, Repr

/-- A request that has been answered, and whether it was handed to `Route` for that. -/
structure Exchange where
  request : HttpRequest
  routed : Bool
deriving DecidableEq

/-- `Connection`.  `releasing` stands for a `ReleaseInLoop` in the queue of the event loop; the
last two fields are records: what has been answered, and that an exception has left a callback,
which ends the process. -/
structure Connection where
  statu : ConnStatu
  inBuffer : Bytes
  outBuffer : Bytes
  context : HttpContext
  releasing : Bool
  answered : List Exchange
  terminated : Bool
deriving DecidableEq

namespace Connection

/-- A connection after `EstablishedInLoop`, with the context that `OnConnected` sets. -/
def established : Connection where
  statu := .connected
  inBuffer := []
  outBuffer := []
  context := .reSet
  releasing := false
  answered := []
  terminated := false

def release (conn : Connection) : Connection := { conn with releasing := true }

/-- `Send`, which is `SendInLoop` in the thread of the loop. -/
def send (conn : Connection) (text : Bytes) : Connection :=
  if conn.statu = .disconnected then conn else { conn with outBuffer := conn.outBuffer ++ text }

/-- `WriteReponse`, for a request that was handed to `Route` or not. -/
def writeReponse (conn : Connection) (req : HttpRequest) (routed : Bool) (rsp : HttpResponse) :
    Connection :=
  { conn.send (SiteServer.responseText req rsp) with
    answered := conn.answered ++ [⟨req, routed⟩] }

/-- A message is refused: the context is reset, and what is left in the buffer is dropped. -/
def refuse (conn : Connection) (req : HttpRequest) (rsp : HttpResponse) : Connection :=
  { conn.writeReponse req false rsp with context := .reSet, inBuffer := [] }

/-- A request is answered, and the context is reset. -/
def answer (conn : Connection) (req : HttpRequest) (rsp : HttpResponse) (rest : Bytes) :
    Connection :=
  { conn.writeReponse req true rsp with context := .reSet, inBuffer := rest }

/-- `ShutdownInLoop`, with the message callback that it calls. -/
def shutdownInLoop (callback : Connection → Option Connection) (conn : Connection) :
    Option Connection :=
  let half := { conn with statu := .disconnecting }
  let called := if half.inBuffer ≠ [] then callback half else some half
  called.map fun conn =>
    if conn.terminated then conn else if conn.outBuffer = [] then conn.release else conn

variable {ε : Type} (server : SiteServer ε)

/-- **`OnMessage`.**  The calls are counted down, those of the loop as well as those that
`ShutdownInLoop` makes; `none` means that they have not sufficed. -/
def onMessage : Nat → Connection → Option Connection
  | 0, _ => none
  | n + 1, conn =>
    if conn.inBuffer = [] then some conn
    else
      match callOutcome (conn.context.recvHttpRequest conn.inBuffer) with
      | .fail (.aborted _) => some { conn with terminated := true }
      | .fail (.refused statu req) =>
        match server.refusal statu req with
        | .error _ => some { conn with terminated := true }
        | .ok rsp =>
          shutdownInLoop (onMessage n) (conn.refuse req (server.completeHeaders req rsp))
      | .wait context rest => some { conn with context := context, inBuffer := rest }
      | .done context rest =>
        let req := context.request
        match server.answer req with
        | .error _ =>
          some { conn with
            answered := conn.answered ++ [⟨req, true⟩], terminated := true }
        | .ok rsp =>
          let rsp := server.completeHeaders req rsp
          -- there is no `return` after the shutdown: the loop goes on in both cases
          if rsp.close then
            (shutdownInLoop (onMessage n) (conn.answer req rsp rest)).bind fun conn =>
              if conn.terminated then some conn else onMessage n conn
          else onMessage n (conn.answer req rsp rest)

/-- The message callback: `OnMessage`, with calls enough for the bytes in the buffer. -/
def messageCallback (conn : Connection) : Option Connection :=
  onMessage server (conn.inBuffer.length + 2) conn

/-! ## 3. The events of a connection

An event is one thing that the loop does with the connection: it reads, it writes, it hangs up, the
timer fires, it carries out the release. -/

/-- What the event loop tells a connection. -/
inductive Event
  /-- `HandleRead`: these bytes were in the socket. -/
  | read (chunk : Bytes)
  /-- `HandleRead`: the peer has closed, or receiving failed. -/
  | readFails
  /-- `HandleClose` and `HandleError`. -/
  | hangup
  /-- `HandleWrite`: the socket has taken so many bytes. -/
  | write (taken : Nat)
  /-- `HandleWrite`: sending failed. -/
  | writeFails
  /-- The timer for inactive connections has run out. -/
  | inactive
  /-- `ReleaseInLoop`, from the queue. -/
  | released
deriving DecidableEq

/-- The message callback before a connection is given up. -/
def lastCallback (conn : Connection) : Option Connection :=
  if conn.inBuffer ≠ [] ∧ conn.statu ≠ .disconnected then messageCallback server conn
  else some conn

/-- One event.  `none`: it cannot happen. -/
def step (conn : Connection) : Event → Option Connection
  | .read chunk =>
    if conn.terminated then none
    else
      let conn := { conn with inBuffer := conn.inBuffer ++ chunk }
      if conn.inBuffer ≠ [] ∧ conn.statu ≠ .disconnected ∧ conn.statu ≠ .disconnecting then
        messageCallback server conn
      else some conn
  | .readFails => if conn.terminated then none else some conn.release
  | .hangup => if conn.terminated then none else (lastCallback server conn).map release
  | .write taken =>
    if conn.terminated ∨ conn.outBuffer.length < taken then none
    else
      let conn := { conn with outBuffer := conn.outBuffer.drop taken }
      if conn.outBuffer = [] ∧ conn.statu = .disconnecting then some conn.release else some conn
  | .writeFails => if conn.terminated then none else (lastCallback server conn).map release
  | .inactive => if conn.terminated then none else some conn.release
  | .released =>
    if conn.terminated ∨ ¬ conn.releasing then none
    else some { conn with statu := .disconnected, releasing := false }

/-! ## 4. One call of `OnMessage`

The difficulty is the second entry.  The inner call has the same buffer and the same context, and
what it leaves is nothing that the outer one could go on with. -/

@[simp] theorem terminated_send (conn : Connection) (text : Bytes) :
    (conn.send text).terminated = conn.terminated := by
  unfold send
  split <;> rfl

@[simp] theorem terminated_refuse (conn : Connection) (req : HttpRequest) (rsp : HttpResponse) :
    (conn.refuse req rsp).terminated = conn.terminated := terminated_send conn _

@[simp] theorem terminated_answer (conn : Connection) (req : HttpRequest) (rsp : HttpResponse)
    (rest : Bytes) : (conn.answer req rsp rest).terminated = conn.terminated :=
  terminated_send conn _

/-- What becomes of an event of the parse loop: the exchange that is recorded for it. -/
def exchange : Framer.Event HttpRequest Failure → Option Exchange
  | .message req => some ⟨req, true⟩
  | .failure (.refused _ req) => some ⟨req, false⟩
  | .failure (.aborted _) => none

/-- What a call of the callback has done: all that a pass of the parse loop finds in the buffer
is answered, or as much of it as came before an exception. -/
inductive Answers (conn : Connection) (pass : HttpConn) (conn' : Connection) : Prop
  | returned (hterm : conn'.terminated = false)
      (hanswered : conn'.answered = conn.answered ++ pass.events.filterMap exchange)
      (hleft : (conn'.context, conn'.inBuffer) = pass.live.getD (.reSet, []))
  | raised (hterm : conn'.terminated = true) (l : List Exchange)
      (hl : l <+: pass.events.filterMap exchange) (hanswered : conn'.answered = conn.answered ++ l)

/-- The fields that a half-close leaves alone. -/
structure SameRecord (conn conn' : Connection) : Prop where
  answered : conn'.answered = conn.answered
  context : conn'.context = conn.context
  inBuffer : conn'.inBuffer = conn.inBuffer
  terminated : conn'.terminated = conn.terminated

theorem sameRecord_release (conn : Connection) : SameRecord conn conn.release :=
  ⟨rfl, rfl, rfl, rfl⟩

theorem Answers.congr_right {conn mid conn' : Connection} {pass : HttpConn}
    (hsame : SameRecord mid conn') (h : Answers conn pass mid) : Answers conn pass conn' := by
  cases h with
  | returned hterm hanswered hleft =>
    exact .returned (hsame.terminated.trans hterm) (hsame.answered.trans hanswered)
      (by rw [hsame.context, hsame.inBuffer, hleft])
  | raised hterm l hl hanswered =>
    exact .raised (hsame.terminated.trans hterm) l hl (hsame.answered.trans hanswered)

theorem Answers.cons {conn conn₁ conn' : Connection} {pass : HttpConn} {req : HttpRequest}
    (hconn : conn₁.answered = conn.answered ++ [⟨req, true⟩]) (h : Answers conn₁ pass conn') :
    Answers conn ⟨.message req :: pass.events, pass.live⟩ conn' := by
  have hevents : (Framer.Event.message req :: pass.events).filterMap exchange =
      [⟨req, true⟩] ++ pass.events.filterMap exchange := rfl
  cases h with
  | returned hterm hanswered hleft =>
    refine .returned hterm ?_ hleft
    rw [hanswered, hconn, hevents, List.append_assoc]
  | raised hterm l hl hanswered =>
    refine .raised hterm ([⟨req, true⟩] ++ l) ?_ ?_
    · rw [hevents]
      exact (List.prefix_append_right_inj _).mpr hl
    · rw [hanswered, hconn, List.append_assoc]

/-- What is left after a pass is of no use to the parser before more has come. -/
theorem Answers.idle {conn conn' : Connection} {pass : HttpConn} (h : Answers conn pass conn')
    (hquiet : pass.Quiet Net.onMessage Open) (hterm : ¬ conn'.terminated) :
    conn'.inBuffer = [] ∨
      Net.onMessage.stage conn'.context conn'.inBuffer = .wait conn'.context conn'.inBuffer := by
  cases h with
  | raised hraised => exact absurd hraised hterm
  | returned _ _ hleft =>
    cases hlive : pass.live with
    | none =>
      rw [hlive] at hleft
      exact Or.inl (Prod.mk.inj hleft).2
    | some p =>
      rw [hlive] at hleft
      obtain ⟨hcontext, hbuffer⟩ := Prod.mk.inj hleft
      rw [hcontext, hbuffer]
      exact (hquiet p.1 p.2 hlive).2

/-- The context that is left can receive. -/
theorem Answers.open {conn conn' : Connection} {pass : HttpConn} (h : Answers conn pass conn')
    (hquiet : pass.Quiet Net.onMessage Open) (hterm : conn'.terminated = false) :
    Open conn'.context := by
  cases h with
  | raised hraised => rw [hraised] at hterm; cases hterm
  | returned _ _ hleft =>
    have hcontext := (Prod.mk.inj hleft).1
    cases hlive : pass.live with
    | none =>
      rw [hlive] at hcontext
      exact hcontext ▸ open_reSet
    | some p =>
      rw [hlive] at hcontext
      exact hcontext ▸ (hquiet p.1 p.2 hlive).1

variable {server}

theorem onMessage_empty {n : Nat} (hn : 0 < n) {conn : Connection} (h : conn.inBuffer = []) :
    onMessage server n conn = some conn := by
  obtain ⟨n, rfl⟩ : ∃ m, n = m + 1 := ⟨n - 1, by omega⟩
  rw [onMessage, if_pos h]

/-- Bytes that the parser can do nothing with stay. -/
theorem onMessage_idle {n : Nat} (hn : 0 < n) {conn : Connection}
    (h : conn.inBuffer = [] ∨
      Net.onMessage.stage conn.context conn.inBuffer = .wait conn.context conn.inBuffer) :
    onMessage server n conn = some conn := by
  by_cases hne : conn.inBuffer = []
  · exact onMessage_empty hn hne
  · obtain ⟨n, rfl⟩ : ∃ m, n = m + 1 := ⟨n - 1, by omega⟩
    have hwait : callOutcome (conn.context.recvHttpRequest conn.inBuffer) =
        .wait conn.context conn.inBuffer := h.resolve_left hne
    rw [onMessage, if_neg hne, hwait]

/-- One equation for each way in which the loop goes on. -/
theorem onMessage_wait {n : Nat} {conn : Connection} {context : HttpContext} {rest : Bytes}
    (hne : conn.inBuffer ≠ [])
    (h : Net.onMessage.stage conn.context conn.inBuffer = .wait context rest) :
    onMessage server (n + 1) conn =
      some { conn with context := context, inBuffer := rest } := by
  have hcall : callOutcome (conn.context.recvHttpRequest conn.inBuffer) = .wait context rest := h
  rw [onMessage, if_neg hne, hcall]

variable (server) in
theorem onMessage_fail (n : Nat) {conn : Connection} {e : Failure} (hne : conn.inBuffer ≠ [])
    (h : Net.onMessage.stage conn.context conn.inBuffer = .fail e) :
    onMessage server (n + 1) conn = some { conn with terminated := true } ∨
      ∃ statu req rsp, e = .refused statu req ∧
        onMessage server (n + 1) conn =
          shutdownInLoop (onMessage server n) (conn.refuse req rsp) := by
  have hcall : callOutcome (conn.context.recvHttpRequest conn.inBuffer) = .fail e := h
  rw [onMessage, if_neg hne, hcall]
  cases e with
  | aborted a => exact Or.inl rfl
  | refused statu req =>
    cases hrefusal : server.refusal statu req with
    | error e => exact Or.inl (by simp only [hrefusal])
    | ok rsp =>
      exact Or.inr ⟨statu, req, server.completeHeaders req rsp, rfl, by simp only [hrefusal]⟩

variable (server) in
theorem onMessage_done (n : Nat) {conn : Connection} {context : HttpContext} {rest : Bytes}
    (hne : conn.inBuffer ≠ [])
    (h : Net.onMessage.stage conn.context conn.inBuffer = .done context rest) :
    onMessage server (n + 1) conn = some { conn with
        answered := conn.answered ++ [⟨context.request, true⟩], terminated := true } ∨
      ∃ rsp, onMessage server (n + 1) conn =
        if rsp.close then
          (shutdownInLoop (onMessage server n)
              (conn.answer context.request rsp rest)).bind fun conn =>
            if conn.terminated then some conn else onMessage server n conn
        else onMessage server n (conn.answer context.request rsp rest) := by
  have hcall : callOutcome (conn.context.recvHttpRequest conn.inBuffer) = .done context rest := h
  rw [onMessage, if_neg hne, hcall]
  cases hanswer : server.answer context.request with
  | error e => exact Or.inl (by simp only [hanswer])
  | ok rsp => exact Or.inr ⟨server.completeHeaders context.request rsp, by simp only [hanswer]⟩

/-- What `ShutdownInLoop` does after the callback leaves the record alone. -/
theorem shutdownInLoop_eq {callback : Connection → Option Connection} {conn mid : Connection}
    (h : (if conn.inBuffer ≠ [] then callback { conn with statu := .disconnecting }
      else some { conn with statu := .disconnecting }) = some mid) :
    ∃ conn', shutdownInLoop callback conn = some conn' ∧ SameRecord mid conn' := by
  simp only [shutdownInLoop, h, Option.map_some]
  split
  · exact ⟨mid, rfl, rfl, rfl, rfl, rfl⟩
  · split
    · exact ⟨mid.release, rfl, sameRecord_release mid⟩
    · exact ⟨mid, rfl, rfl, rfl, rfl, rfl⟩

theorem shutdownInLoop_onMessage {n : Nat} (hn : 0 < n) {conn mid : Connection}
    (h : onMessage server n { conn with statu := .disconnecting } = some mid) :
    ∃ conn', shutdownInLoop (onMessage server n) conn = some conn' ∧ SameRecord mid conn' := by
  refine shutdownInLoop_eq ?_
  split
  · exact h
  · rename_i hempty
    have hidle : onMessage server n { conn with statu := .disconnecting } =
        some { conn with statu := .disconnecting } := onMessage_empty hn (not_not.mp hempty)
    rw [← h, hidle]

/-- **A call of `OnMessage` answers what one pass of the parse loop finds**, with as many calls as
the pass has rounds.  By induction on these: the call that `ShutdownInLoop` makes takes the rest of
the buffer, and the loop that goes on after it finds nothing it could do. -/
theorem onMessage_spec (server : SiteServer ε) {n : Nat} {conn : Connection} {pass : HttpConn}
    (hopen : Open conn.context) (hterm : conn.terminated = false)
    (h : Net.onMessage.drain n conn.context conn.inBuffer = some pass) :
    ∃ conn', onMessage server n conn = some conn' ∧ Answers conn pass conn' := by
  induction n generalizing conn pass with
  | zero => cases h
  | succ n ih =>
    by_cases hne : conn.inBuffer = []
    · rw [hne, drain_nil, Option.some.injEq] at h
      subst h
      refine ⟨conn, onMessage_empty (Nat.succ_pos n) hne, .returned hterm ?_ ?_⟩
      · exact (List.append_nil _).symm
      · rw [hne]
        rfl
    · cases hstage : Net.onMessage.stage conn.context conn.inBuffer with
      | wait context rest =>
        rw [drain_wait hne hstage, Option.some.injEq] at h
        subst h
        refine ⟨_, onMessage_wait hne hstage, .returned hterm ?_ rfl⟩
        exact (List.append_nil _).symm
      | fail e =>
        rw [drain_fail hne hstage, Option.some.injEq] at h
        subst h
        rcases onMessage_fail server n hne hstage with heq | ⟨statu, req, rsp, rfl, heq⟩
        · refine ⟨_, heq, .raised rfl [] List.nil_prefix ?_⟩
          exact (List.append_nil _).symm
        · -- the buffer is empty: the callback is not called
          obtain ⟨conn', hshut, hsame⟩ : ∃ conn', shutdownInLoop (onMessage server n)
              (conn.refuse req rsp) = some conn' ∧
                SameRecord { conn.refuse req rsp with statu := .disconnecting } conn' :=
            shutdownInLoop_eq (if_neg (not_not.mpr rfl))
          rw [heq, hshut]
          refine ⟨conn', rfl, .returned (hsame.terminated.trans ?_) hsame.answered ?_⟩
          · rw [terminated_refuse, hterm]
          · rw [hsame.context, hsame.inBuffer]
            rfl
      | done context rest =>
        rw [drain_done hne hstage] at h
        obtain ⟨pass', hpass, rfl⟩ := Option.map_eq_some_iff.mp h
        have hn : 0 < n := by
          cases n with
          | zero => cases hpass
          | succ n => exact Nat.succ_pos n
        rcases onMessage_done server n hne hstage with heq | ⟨rsp, heq⟩
        · exact ⟨_, heq, .raised rfl [⟨context.request, true⟩] ⟨_, rfl⟩ rfl⟩
        · rw [heq]
          have hanswer : (conn.answer context.request rsp rest).terminated = false := by
            rw [terminated_answer, hterm]
          split
          · -- the callback is entered from the shutdown, and has the rest of the buffer
            obtain ⟨mid, hmid, hpassed⟩ : ∃ mid, onMessage server n
                { conn.answer context.request rsp rest with statu := .disconnecting } = some mid ∧
                  Answers { conn.answer context.request rsp rest with statu := .disconnecting }
                    pass' mid := ih open_reSet hanswer hpass
            obtain ⟨half, hshut, hsame⟩ := shutdownInLoop_onMessage hn hmid
            have hrest := hpassed.congr_right hsame
            refine ⟨half, ?_, .cons rfl hrest⟩
            rw [hshut, Option.bind_some]
            split
            · rfl
            · rename_i hterm'
              exact onMessage_idle hn
                (hrest.idle (onMessage_lawful.quiet_of_drain open_reSet hpass) hterm')
          · obtain ⟨conn', hconn', hanswers⟩ : ∃ conn', onMessage server n
                (conn.answer context.request rsp rest) = some conn' ∧
                  Answers (conn.answer context.request rsp rest) pass' conn' :=
              ih open_reSet hanswer hpass
            exact ⟨conn', hconn', .cons rfl hanswers⟩

/-! ## 5. A closing request is the last one

The rule is about the record, and the condition about the bytes: what the parser reads off them,
without a look at what is answered. -/

/-- The requests that are complete in these bytes, as `RecvHttpRequest` reads them off. -/
def completeRequests : Nat → HttpContext → Bytes → List HttpRequest
  | 0, _, _ => []
  | n + 1, context, buf =>
    if buf = [] then []
    else
      match callOutcome (context.recvHttpRequest buf) with
      | .done context' rest => context'.request :: completeRequests n .reSet rest
      | _ => []

/-- **The rule**: after a request that is not to be kept alive, none is handed to `Route`. -/
def NothingAfterClose (answered : List Exchange) : Prop :=
  answered.Pairwise fun a b => a.request.close = true → b.routed = false

instance (answered : List Exchange) : Decidable (NothingAfterClose answered) :=
  inferInstanceAs (Decidable (answered.Pairwise _))

/-- The bytes for which an event calls `OnMessage`. -/
def delivered (conn : Connection) : Event → Option Bytes
  | .read chunk =>
    if conn.inBuffer ++ chunk ≠ [] ∧ conn.statu ≠ .disconnected ∧ conn.statu ≠ .disconnecting then
      some (conn.inBuffer ++ chunk)
    else none
  | .hangup | .writeFails =>
    if conn.inBuffer ≠ [] ∧ conn.statu ≠ .disconnected then some conn.inBuffer else none
  | _ => none

/-- Nothing complete is behind a closing request: neither among the requests that are complete in
these bytes, nor if a closing request has been answered before. -/
structure CloseIsLast (conn : Connection) (buf : Bytes) : Prop where
  inside : ∀ req ∈ (completeRequests (buf.length + 2) conn.context buf).dropLast, req.close = false
  before : (∃ a ∈ conn.answered, a.request.close = true) →
    completeRequests (buf.length + 2) conn.context buf = []

instance (conn : Connection) (buf : Bytes) : Decidable (conn.CloseIsLast buf) :=
  decidable_of_iff
    ((∀ req ∈ (completeRequests (buf.length + 2) conn.context buf).dropLast, req.close = false) ∧
      ((∃ a ∈ conn.answered, a.request.close = true) →
        completeRequests (buf.length + 2) conn.context buf = []))
    ⟨fun h => ⟨h.1, h.2⟩, fun h => ⟨h.inside, h.before⟩⟩

/-- The condition on an event: `OnMessage` is not called for other bytes.  It is about the state
before the event, and does not say what is done with the bytes. -/
def StepOk (conn : Connection) (e : Event) : Prop :=
  ∀ buf ∈ conn.delivered e, conn.CloseIsLast buf

instance (conn : Connection) (e : Event) : Decidable (conn.StepOk e) :=
  inferInstanceAs (Decidable (∀ buf ∈ conn.delivered e, conn.CloseIsLast buf))

/-- A pass answers the complete requests, and a refusal can only be the last thing it does. -/
theorem exchanges_of_drain {n : Nat} {context : HttpContext} {buf : Bytes} {pass : HttpConn}
    (h : Net.onMessage.drain n context buf = some pass) :
    ∃ tail, pass.events.filterMap exchange =
        (completeRequests n context buf).map (fun req => ⟨req, true⟩) ++ tail ∧
      (tail = [] ∨ ∃ req, tail = [⟨req, false⟩]) := by
  induction n generalizing context buf pass with
  | zero => cases h
  | succ n ih =>
    by_cases hne : buf = []
    · subst hne
      obtain rfl := Option.some.inj h
      exact ⟨[], rfl, Or.inl rfl⟩
    · rw [completeRequests, if_neg hne]
      cases hstage : Net.onMessage.stage context buf with
      | wait context' rest =>
        rw [drain_wait hne hstage] at h
        obtain rfl := Option.some.inj h
        have hcall : callOutcome (context.recvHttpRequest buf) = .wait context' rest := hstage
        rw [hcall]
        exact ⟨[], rfl, Or.inl rfl⟩
      | fail e =>
        rw [drain_fail hne hstage] at h
        obtain rfl := Option.some.inj h
        have hcall : callOutcome (context.recvHttpRequest buf) = .fail e := hstage
        rw [hcall]
        cases e with
        | aborted a => exact ⟨[], rfl, Or.inl rfl⟩
        | refused statu req => exact ⟨[⟨req, false⟩], rfl, Or.inr ⟨req, rfl⟩⟩
      | done context' rest =>
        rw [drain_done hne hstage] at h
        obtain ⟨pass', hpass, rfl⟩ := Option.map_eq_some_iff.mp h
        have hcall : callOutcome (context.recvHttpRequest buf) = .done context' rest := hstage
        rw [hcall]
        obtain ⟨tail, heq, htail⟩ := ih hpass
        refine ⟨tail, ?_, htail⟩
        rw [List.map_cons, List.cons_append]
        exact congrArg (⟨context'.request, true⟩ :: ·) heq

/-- A condition on the earlier of two elements is one on all but the last. -/
theorem pairwise_left_iff {α : Type*} {p : α → Prop} (l : List α) :
    (l.Pairwise fun a _ => p a) ↔ ∀ a ∈ l.dropLast, p a := by
  induction l with
  | nil => simp
  | cons a l ih =>
    cases l with
    | nil => simp
    | cons b l =>
      simp only [List.pairwise_cons, ih, List.dropLast_cons_cons, List.forall_mem_cons]
      exact and_congr_left fun _ => ⟨fun h => h.1, fun h => ⟨h, fun _ _ => h⟩⟩

/-- **The rule after a pass**, in terms of what was there before it. -/
theorem nothingAfterClose_append (answered : List Exchange) (reqs : List HttpRequest)
    {tail : List Exchange} (htail : tail = [] ∨ ∃ req, tail = [⟨req, false⟩]) :
    NothingAfterClose (answered ++ (reqs.map (fun req => ⟨req, true⟩) ++ tail)) ↔
      NothingAfterClose answered ∧ (∀ req ∈ reqs.dropLast, req.close = false) ∧
        ((∃ a ∈ answered, a.request.close = true) → reqs = []) := by
  have hmem : ∀ b ∈ tail, b.routed = false := by
    rcases htail with rfl | ⟨req, rfl⟩ <;> simp
  have htail' : NothingAfterClose tail := by
    rcases htail with rfl | ⟨req, rfl⟩ <;> simp [NothingAfterClose]
  have hreqs : NothingAfterClose (reqs.map fun req => ⟨req, true⟩) ↔
      ∀ req ∈ reqs.dropLast, req.close = false := by
    rw [NothingAfterClose, List.pairwise_map, ← pairwise_left_iff]
    simp
  unfold NothingAfterClose at hreqs htail' ⊢
  rw [List.pairwise_append, List.pairwise_append, hreqs]
  constructor
  · rintro ⟨hanswered, ⟨hinside, -, -⟩, hcross⟩
    refine ⟨hanswered, hinside, ?_⟩
    rintro ⟨a, ha, hclose⟩
    by_contra hne
    obtain ⟨req, hreq⟩ := List.exists_mem_of_ne_nil reqs hne
    have hrouted := hcross a ha ⟨req, true⟩
      (List.mem_append_left _ (List.mem_map_of_mem hreq)) hclose
    cases hrouted
  · rintro ⟨hanswered, hinside, hbefore⟩
    refine ⟨hanswered, ⟨hinside, htail', fun _ _ b hb _ => hmem b hb⟩, fun a ha b hb hclose => ?_⟩
    rw [hbefore ⟨a, ha, hclose⟩, List.map_nil, List.nil_append] at hb
    exact hmem b hb

/-! ## 6. Runs

A step lemma with the condition of that step, and an induction on the run.  The rule can be broken
for good only, so its failure at one step is its failure at the end. -/

/-- What an event does: it calls `OnMessage` on some bytes, or it leaves the record alone. -/
inductive Effect (server : SiteServer ε) (conn : Connection) (delivered : Option Bytes)
    (conn' : Connection) : Prop
  | called (buf : Bytes) (mid : Connection) (hdelivered : delivered = some buf)
      (hcall : messageCallback server { conn with inBuffer := buf } = some mid)
      (hsame : SameRecord mid conn')
  | quiet (hdelivered : delivered = none) (hanswered : conn'.answered = conn.answered)
      (hcontext : conn'.context = conn.context) (hterm : conn'.terminated = conn.terminated)

theorem effect_lastCallback {conn conn' : Connection}
    (h : (lastCallback server conn).map release = some conn') :
    Effect server conn
      (if conn.inBuffer ≠ [] ∧ conn.statu ≠ .disconnected then some conn.inBuffer else none)
      conn' := by
  obtain ⟨mid, hmid, rfl⟩ := Option.map_eq_some_iff.mp h
  unfold lastCallback at hmid
  split at hmid
  · rename_i hcalled
    exact .called conn.inBuffer mid (if_pos hcalled) hmid (sameRecord_release mid)
  · rename_i hcalled
    obtain rfl := Option.some.inj hmid
    exact .quiet (if_neg hcalled) rfl rfl rfl

theorem step_cases {conn conn' : Connection} {e : Event} (h : step server conn e = some conn') :
    conn.terminated = false ∧ Effect server conn (conn.delivered e) conn' := by
  cases hterm : conn.terminated with
  | true => cases e <;> simp [step, hterm] at h
  | false =>
    refine ⟨rfl, ?_⟩
    cases e with
    | read chunk =>
      rw [step, if_neg (Bool.eq_false_iff.mp hterm)] at h
      dsimp only at h
      split at h
      · rename_i hcalled
        exact .called _ conn' (if_pos hcalled) h ⟨rfl, rfl, rfl, rfl⟩
      · rename_i hcalled
        obtain rfl := Option.some.inj h
        exact .quiet (if_neg hcalled) rfl rfl rfl
    | hangup | writeFails =>
      rw [step, if_neg (Bool.eq_false_iff.mp hterm)] at h
      exact effect_lastCallback h
    | readFails | inactive =>
      rw [step, if_neg (Bool.eq_false_iff.mp hterm)] at h
      exact Option.some.inj h ▸ .quiet rfl rfl rfl rfl
    | write taken =>
      simp only [step] at h
      split at h
      · cases h
      · split at h <;> exact Option.some.inj h ▸ .quiet rfl rfl rfl rfl
    | released =>
      simp only [step] at h
      split at h
      · cases h
      · exact Option.some.inj h ▸ .quiet rfl rfl rfl rfl

/-- What a step relies on: unless the process has ended, the context can receive.  A context in its
error state would never leave it. -/
def Receiving (conn : Connection) : Prop := conn.terminated = false → Open conn.context

theorem receiving_established : established.Receiving := fun _ => open_reSet

/-- `OnMessage` appends to the record, and keeps the rule if it finds nothing complete behind a
closing request; if it returns, then only if. -/
structure Recorded (conn mid : Connection) : Prop where
  receiving : mid.Receiving
  extended : conn.answered <+: mid.answered
  rule : NothingAfterClose conn.answered → conn.CloseIsLast conn.inBuffer →
    NothingAfterClose mid.answered
  rule_only : mid.terminated = false → NothingAfterClose mid.answered →
    conn.CloseIsLast conn.inBuffer

theorem recorded_of_messageCallback {conn mid : Connection} (hopen : Open conn.context)
    (hterm : conn.terminated = false) (h : messageCallback server conn = some mid) :
    Recorded conn mid := by
  obtain ⟨pass, hpass⟩ :=
    onMessage_lawful.exists_drain hopen (Nat.le_refl (conn.inBuffer.length + 2))
  obtain ⟨mid', hmid', hanswers⟩ := onMessage_spec server hopen hterm hpass
  obtain rfl : mid' = mid := Option.some.inj (hmid'.symm.trans h)
  have hreceiving : mid'.Receiving :=
    hanswers.open (onMessage_lawful.quiet_of_drain hopen hpass)
  obtain ⟨tail, hevents, htail⟩ := exchanges_of_drain hpass
  have happend := nothingAfterClose_append conn.answered
    (completeRequests (conn.inBuffer.length + 2) conn.context conn.inBuffer) htail
  rw [← hevents] at happend
  cases hanswers with
  | returned _ hanswered =>
    rw [← hanswered] at happend
    refine ⟨hreceiving, ⟨_, hanswered.symm⟩, fun hrule hlast => ?_, fun _ hrule => ?_⟩
    · exact happend.mpr ⟨hrule, hlast.inside, hlast.before⟩
    · obtain ⟨-, hinside, hbefore⟩ := happend.mp hrule
      exact ⟨hinside, hbefore⟩
  | raised hraised l hl hanswered =>
    refine ⟨hreceiving, ⟨_, hanswered.symm⟩, fun hrule hlast => ?_, fun hterm' => ?_⟩
    · -- a part of the record that keeps the rule keeps it too
      rw [hanswered]
      have hall := happend.mpr ⟨hrule, hlast.inside, hlast.before⟩
      exact hall.sublist ((List.prefix_append_right_inj _).mpr hl).sublist
    · rw [hraised] at hterm'
      cases hterm'

/-- **The calls suffice**: `OnMessage` comes back, or an exception leaves it. -/
theorem exists_messageCallback (server : SiteServer ε) {conn : Connection}
    (hopen : Open conn.context) (hterm : conn.terminated = false) :
    ∃ mid, messageCallback server conn = some mid := by
  obtain ⟨pass, hpass⟩ :=
    onMessage_lawful.exists_drain hopen (Nat.le_refl (conn.inBuffer.length + 2))
  obtain ⟨mid, hmid, -⟩ := onMessage_spec server hopen hterm hpass
  exact ⟨mid, hmid⟩

/-- **One event** appends to the record, and keeps the rule exactly when the condition of the step
holds; for the converse it must not have ended in an exception. -/
theorem recorded_of_step {conn conn' : Connection} {e : Event} (hreceiving : conn.Receiving)
    (h : step server conn e = some conn') :
    conn'.Receiving ∧ conn.answered <+: conn'.answered ∧
      (NothingAfterClose conn.answered → conn.StepOk e → NothingAfterClose conn'.answered) ∧
      (conn'.terminated = false → NothingAfterClose conn'.answered → conn.StepOk e) := by
  obtain ⟨hterm, heffect⟩ := step_cases h
  cases heffect with
  | called buf mid hdelivered hcall hsame =>
    have hrecorded : Recorded { conn with inBuffer := buf } mid :=
      recorded_of_messageCallback (hreceiving hterm) hterm hcall
    unfold Receiving StepOk
    rw [hsame.answered, hsame.context, hsame.terminated, hdelivered]
    refine ⟨hrecorded.receiving, hrecorded.extended, fun hrule hok => ?_, fun hterm' hrule => ?_⟩
    · obtain ⟨hinside, hbefore⟩ := hok buf rfl
      exact hrecorded.rule hrule ⟨hinside, hbefore⟩
    · rintro _ ⟨rfl⟩
      obtain ⟨hinside, hbefore⟩ := hrecorded.rule_only hterm' hrule
      exact ⟨hinside, hbefore⟩
  | quiet hdelivered hanswered hcontext hterm' =>
    unfold Receiving StepOk
    rw [hanswered, hcontext, hterm', hdelivered]
    exact ⟨hreceiving, List.prefix_rfl, fun hrule _ => hrule, fun _ _ _ hnone => by cases hnone⟩

open Transition in
/-- **After a closing request nothing is executed, exactly when nothing complete is behind it.**
In every run of events on a connection, the record keeps the rule if at each event `OnMessage` is
called for bytes with nothing complete behind a closing request; and as long as no exception has
ended the process, only then. -/
theorem nothing_after_close_iff (server : SiteServer ε) (events : List Event) (conn : Connection)
    (h : exec (step server) established events = some conn) :
    (Along (step server) StepOk established events → NothingAfterClose conn.answered) ∧
      (conn.terminated = false → NothingAfterClose conn.answered →
        Along (step server) StepOk established events) := by
  constructor
  · intro hok
    have hinv : ∀ s e s', (s.Receiving ∧ NothingAfterClose s.answered) → s.StepOk e →
        step server s e = some s' → s'.Receiving ∧ NothingAfterClose s'.answered := by
      rintro s e s' ⟨hreceiving, hrule⟩ hstepOk hstep
      obtain ⟨hreceiving', -, hkeeps, -⟩ := recorded_of_step hreceiving hstep
      exact ⟨hreceiving', hkeeps hrule hstepOk⟩
    exact (exec_invariant_along hinv ⟨receiving_established, List.Pairwise.nil⟩ hok h).2
  · intro hterm hrule
    refine along_of_not_final_of_invariant (I := Receiving)
      (B := fun s => s.terminated = true ∨ ¬ NothingAfterClose s.answered)
      (fun s e s' hreceiving hstep => (recorded_of_step hreceiving hstep).1)
      ?_ ?_ receiving_established h ?_
    · intro s e s' hreceiving hstep hnot
      by_contra hfine
      obtain ⟨hterm', hrule'⟩ := not_or.mp hfine
      exact hnot ((recorded_of_step hreceiving hstep).2.2.2 (Bool.eq_false_iff.mpr hterm')
        (not_not.mp hrule'))
    · rintro s e s' hreceiving (hterm' | hbroken) hstep
      · rw [(step_cases hstep).1] at hterm'
        cases hterm'
      · refine Or.inr fun hrule' => hbroken ?_
        exact hrule'.sublist (recorded_of_step hreceiving hstep).2.1.sublist
    · rintro (hterm' | hbroken)
      · rw [hterm] at hterm'
        cases hterm'
      · exact hbroken hrule

/-- A server without routes and without files. -/
def bareServer : SiteServer Unit where
  toHttpServer := .new { isRegular := fun _ => false, readFile := fun _ body => (body, false) }
  defaultHeaders := .empty

/-- A request to be kept alive and a closing one, in two reads. -/
def politeReads : List Event :=
  [.read (ascii "GET / HTTP/1.1\r\nConnection: keep-alive\r\n\r\n"),
    .read (ascii "GET / HTTP/1.1\r\n\r\n")]

theorem nothing_after_close_iff_polite :
    ∃ conn, Transition.exec (step bareServer) established politeReads = some conn ∧
      NothingAfterClose conn.answered := by
  obtain ⟨conn, h⟩ :
      ∃ conn, Transition.exec (step bareServer) established politeReads = some conn :=
    Option.isSome_iff_exists.mp (by decide +kernel)
  exact ⟨conn, h, (nothing_after_close_iff bareServer politeReads conn h).1 (by decide +kernel)⟩

/-- Two closing requests in one read: both are executed. -/
theorem executed_after_close :
    ∃ conn, Transition.exec (step bareServer) established
        [.read (ascii "GET /a HTTP/1.1\r\n\r\nGET /b HTTP/1.1\r\n\r\n")] = some conn ∧
      ¬ NothingAfterClose conn.answered := by
  have hrun : ∃ conn ∈ Transition.exec (step bareServer) established
      [.read (ascii "GET /a HTTP/1.1\r\n\r\nGET /b HTTP/1.1\r\n\r\n")],
      ¬ NothingAfterClose conn.answered := by decide +kernel
  exact hrun

end Connection

end OnlineJudge.Net
