/-
# `Connection` and the loop that runs it

A `Connection` (`net/muduo.hpp`) has six operations that any thread may call.  All of them are
carried out in the thread of its event loop: `RunInLoop` runs an operation at once when the loop's
thread calls it and queues it otherwise, and `Release` is always queued.  Besides, the poller
reports events of its socket, and the timer wheel may release it.

Any of this may run a callback of the user in the middle of a function, and the callback may call
the operations again.  So the state has an explicit stack: what is left to do of the functions that
are running, with `user` on top of it while a callback runs.

* `resume`: the event handlers, and the second halves of the functions that call a callback.
* `inLoop`: the operations, in the loop's thread.
* `ConnLoop.step`: one atomic step of the connection, its loop and the other threads.

The buffers are their readable bytes (`buffer_refines`).

Nothing is proved here but the inversion lemma.  The modules on output, release and half-closed
connections are about this one system, and each has an invariant of its own.
-/
import OnlineJudge.Lib.Transition
import OnlineJudge.Muduo.EventLoop
import OnlineJudge.Net.Connection

namespace OnlineJudge.Muduo

open Net (ConnStatu)

/-! ## 1. The state

The fields of the source, with records where a statement has to speak of the past: the bytes that
the socket has accepted, the calls of the callbacks. -/

/-- `Channel`, and whether the poller has it in `_channels`. -/
structure Channel where
  readAble : Bool
  writeAble : Bool
  registered : Bool
deriving DecidableEq, Repr

namespace Channel

/-- `EnableRead`.  `Update` adds a channel that the poller does not have. -/
def enableRead (channel : Channel) : Channel :=
  { channel with readAble := true, registered := true }

def enableWrite (channel : Channel) : Channel :=
  { channel with writeAble := true, registered := true }

def disableWrite (channel : Channel) : Channel :=
  { channel with writeAble := false, registered := true }

/-- `Remove`, which keeps `_events`. -/
def remove (channel : Channel) : Channel := { channel with registered := false }

end Channel

structure REvents where
  epollin : Bool
  epollout : Bool
  epollerr : Bool
  epollhup : Bool
  epollrdhup : Bool
  epollpri : Bool
deriving DecidableEq, Repr

/-- What the timer wheel has under the id of the connection.  A canceled task stays there until
its slot is cleared. -/
inductive InactiveTimer
  | absent
  | pending
  | canceled
deriving DecidableEq, Repr

/-- `Socket`: whether it has been closed, and a record of the bytes that it has accepted. -/
structure Socket where
  isOpen : Bool
  accepted : Bytes
deriving DecidableEq

/-- `Connection`.  The last two fields are records. -/
structure Connection where
  enableInactiveRelease : Bool
  statu : ConnStatu
  socket : Socket
  channel : Channel
  inBuffer : Bytes
  outBuffer : Bytes
  timer : InactiveTimer
  closedCalls : Nat
  serverClosedCalls : Nat
deriving DecidableEq

/-- What a function that is running has still to do. -/
inductive Frame
  | handleRead
  | handleWrite
  | handleError
  | handleClose
  | handleEvent
  /-- A callback of the user is running. -/
  | user
  /-- `HandleWrite` and `HandleClose`, after the message callback. -/
  | release
  /-- `ShutdownInLoop`, after the message callback. -/
  | shutdownRest
  /-- `ReleaseInLoop`, after the closed callback. -/
  | serverClosed
deriving DecidableEq, Repr

/-- What a function has done: the connection, the frames it leaves, and whether it has called
`Release`. -/
structure Effect where
  conn : Connection
  frames : List Frame
  release : Bool
deriving DecidableEq

/-- The operations. -/
inductive Op
  | established
  | send (data : Bytes)
  | shutdown
  | release
  | enableInactiveRelease
  | cancelInactiveRelease
deriving DecidableEq

/-- What the system calls of a function return: for `NonBlockRecv` the bytes, for `NonBlockSend`
their number, `none` for -1. -/
inductive Io
  | nothing
  | recv (received : Option Bytes)
  | send (sent : Option Nat)
deriving DecidableEq

/-! ## 2. The functions of `Connection`

A function runs up to a callback and leaves the rest of itself on the stack.  What it has done by
then is an `Effect`. -/

/-- `HandleEvent` of the channel: what it has to do depends on `_revents` alone. -/
def Channel.handleEvent (revents : REvents) : List Frame :=
  (if revents.epollin ∨ revents.epollrdhup ∨ revents.epollpri then [.handleRead] else []) ++
  (if revents.epollout then [.handleWrite]
    else if revents.epollerr then [.handleError]
    else if revents.epollhup then [.handleClose]
    else []) ++
  [.handleEvent]

namespace Connection

/-- `Connection(loop, conn_id, sockfd)`. -/
def new : Connection where
  enableInactiveRelease := false
  statu := .connecting
  socket := ⟨true, []⟩
  channel := ⟨false, false, false⟩
  inBuffer := []
  outBuffer := []
  timer := .absent
  closedCalls := 0
  serverClosedCalls := 0

/-- `HandleRead`: what has come goes into the buffer, and the message callback is called unless the
connection is being closed; an error or the end of the input asks for the release. -/
def handleRead (conn : Connection) : Option Bytes → Effect
  | none => ⟨conn, [], true⟩
  | some buf =>
    let conn := { conn with inBuffer := conn.inBuffer ++ buf }
    if conn.inBuffer ≠ [] ∧ conn.statu ≠ .disconnected ∧ conn.statu ≠ .disconnecting then
      ⟨conn, [.user], false⟩
    else ⟨conn, [], false⟩

/-- `HandleWrite`: the front of the buffer goes to the socket, and an empty buffer ends the writing,
and a connection that is being shut down. -/
def handleWrite (conn : Connection) : Option Nat → Effect
  | none =>
    if conn.inBuffer ≠ [] ∧ conn.statu ≠ .disconnected then ⟨conn, [.user, .release], false⟩
    else ⟨conn, [], true⟩
  | some ret =>
    let conn := { conn with
      socket := { conn.socket with accepted := conn.socket.accepted ++ conn.outBuffer.take ret }
      outBuffer := conn.outBuffer.drop ret }
    if conn.outBuffer = [] then
      ⟨{ conn with channel := conn.channel.disableWrite }, [], conn.statu = .disconnecting⟩
    else ⟨conn, [], false⟩

def handleClose (conn : Connection) : Effect :=
  if conn.inBuffer ≠ [] ∧ conn.statu ≠ .disconnected then ⟨conn, [.user, .release], false⟩
  else ⟨conn, [], true⟩

def handleError (conn : Connection) : Effect := conn.handleClose

/-- `HandleEvent`: the timer that it refreshes stays what it is. -/
def handleEvent (conn : Connection) : Effect := ⟨conn, [.user], false⟩

/-- `EstablishedInLoop`, which asserts the state. -/
def establishedInLoop (conn : Connection) : Option Effect :=
  if conn.statu = .connecting then
    some ⟨{ conn with statu := .connected, channel := conn.channel.enableRead }, [.user], false⟩
  else none

def hasTimer (conn : Connection) : Bool := conn.timer ≠ .absent

def cancelInactiveReleaseInLoop (conn : Connection) : Connection :=
  { conn with
    enableInactiveRelease := false
    timer := if conn.hasTimer then .canceled else conn.timer }

def enableInactiveReleaseInLoop (conn : Connection) : Connection :=
  { conn with
    enableInactiveRelease := true
    timer := if conn.hasTimer then conn.timer else .pending }

/-- `ReleaseInLoop`, which does nothing the second time. -/
def releaseInLoop (conn : Connection) : Effect :=
  if conn.statu = .disconnected then ⟨conn, [], false⟩
  else
    let conn := { conn with
      statu := .disconnected
      channel := conn.channel.remove
      socket := { conn.socket with isOpen := false } }
    let conn := if conn.hasTimer then conn.cancelInactiveReleaseInLoop else conn
    ⟨{ conn with closedCalls := conn.closedCalls + 1 }, [.user, .serverClosed], false⟩

/-- `SendInLoop`: the data goes into the buffer, unless the connection has been released. -/
def sendInLoop (conn : Connection) (buf : Bytes) : Connection :=
  if conn.statu = .disconnected then conn
  else
    let conn := { conn with outBuffer := conn.outBuffer ++ buf }
    if conn.channel.writeAble = false then { conn with channel := conn.channel.enableWrite }
    else conn

/-- `ShutdownInLoop`, after the message callback. -/
def shutdownRest (conn : Connection) : Effect :=
  if conn.outBuffer ≠ [] then
    if conn.channel.writeAble = false then
      ⟨{ conn with channel := conn.channel.enableWrite }, [], false⟩
    else ⟨conn, [], false⟩
  else ⟨conn, [], true⟩

/-- `ShutdownInLoop`.  The state is set before it is looked at. -/
def shutdownInLoop (conn : Connection) : Effect :=
  -- the state is not looked at before it is set, so the second condition is always true
  let conn := { conn with statu := .disconnecting }
  if conn.inBuffer ≠ [] ∧ conn.statu ≠ .disconnected then ⟨conn, [.user, .shutdownRest], false⟩
  else conn.shutdownRest

/-- What the loop does for an operation. -/
def inLoop (conn : Connection) : Op → Option Effect
  | .established => conn.establishedInLoop
  | .send data => some ⟨conn.sendInLoop data, [], false⟩
  | .shutdown => some conn.shutdownInLoop
  | .release => some conn.releaseInLoop
  | .enableInactiveRelease => some ⟨conn.enableInactiveReleaseInLoop, [], false⟩
  | .cancelInactiveRelease => some ⟨conn.cancelInactiveReleaseInLoop, [], false⟩

/-- What the system calls can return.  `NonBlockSend` makes none for no bytes, and a socket that
has been closed transfers nothing. -/
def Possible (conn : Connection) : Io → Prop
  | .nothing => True
  | .recv none => True
  | .recv (some received) => conn.socket.isOpen = true ∧ received.length ≤ 65535
  | .send none => conn.outBuffer ≠ []
  | .send (some sent) =>
    sent ≤ conn.outBuffer.length ∧ (conn.outBuffer = [] ∨ conn.socket.isOpen = true)

instance (conn : Connection) : ∀ io : Io, Decidable (conn.Possible io)
  | .nothing => inferInstanceAs (Decidable True)
  | .recv none => inferInstanceAs (Decidable True)
  | .recv (some received) =>
    inferInstanceAs (Decidable (conn.socket.isOpen = true ∧ received.length ≤ 65535))
  | .send none => inferInstanceAs (Decidable (conn.outBuffer ≠ []))
  | .send (some sent) => inferInstanceAs (Decidable
      (sent ≤ conn.outBuffer.length ∧ (conn.outBuffer = [] ∨ conn.socket.isOpen = true)))

/-- The frame on top of the stack runs.  A callback of the user is not resumed: it runs until it
returns. -/
def resume (conn : Connection) : Frame → Io → Option Effect
  | .handleRead, .recv received => some (conn.handleRead received)
  | .handleWrite, .send sent => some (conn.handleWrite sent)
  | .handleError, .nothing => some conn.handleError
  | .handleClose, .nothing => some conn.handleClose
  | .handleEvent, .nothing => some conn.handleEvent
  | .release, .nothing => some ⟨conn, [], true⟩
  | .shutdownRest, .nothing => some conn.shutdownRest
  | .serverClosed, .nothing =>
    some ⟨{ conn with serverClosedCalls := conn.serverClosedCalls + 1 }, [], false⟩
  | _, _ => none

end Connection

/-! ## 3. The loop and the threads

The loop is at one of a few places, and what it may do next depends on the stack: a frame is
finished before another event is handled. -/

/-- A connection with the loop that runs it.  `sent` is a record: the data of the `Send` calls, in
the order of the calls. -/
structure ConnLoop where
  conn : Connection
  stack : List Frame
  tasks : List Op
  functor : List Op
  sent : Bytes
deriving DecidableEq

/-- The atomic actions: of the loop, of the user within a callback, and of other threads. -/
inductive Action
  /-- `HandleEvent` of the channel is called, after `Poll` has reported these events. -/
  | ready (revents : REvents)
  /-- The frame on top of the stack runs. -/
  | resume (io : Io)
  /-- The user's callback takes bytes from the input buffer. -/
  | consume (len : Nat)
  /-- The user's callback returns. -/
  | finish
  /-- An operation is called. -/
  | call (caller : Caller) (op : Op)
  /-- The timer wheel drops the task that it has for the connection. -/
  | expire
  /-- The swap in `RunAllTask`. -/
  | swap
  /-- The next call in `RunAllTask`. -/
  | execute
deriving DecidableEq

/-- The data of a `Send`. -/
def Op.data : Op → Bytes
  | .send data => data
  | _ => []

namespace ConnLoop

/-- The connection is new. -/
def initial : ConnLoop where
  conn := .new
  stack := []
  tasks := []
  functor := []
  sent := []

/-- The tasks that have not been executed, in order. -/
def queued (s : ConnLoop) : List Op := s.functor ++ s.tasks

/-- A function of the connection has run, over these frames. -/
def apply (s : ConnLoop) (e : Effect) (rest : List Frame) : ConnLoop :=
  { s with
    conn := e.conn
    stack := e.frames ++ rest
    tasks := if e.release then s.tasks ++ [.release] else s.tasks }

/-- No function of the connection is running, or a callback of the user: the places where the
loop's thread may call an operation. -/
def atUser : List Frame → Bool
  | [] => true
  | .user :: _ => true
  | _ => false

/-- The loop handles events: no function of the connection is running, and no task of the queue. -/
def Idle (s : ConnLoop) : Prop := s.stack = [] ∧ s.functor = []

instance (s : ConnLoop) : Decidable s.Idle :=
  inferInstanceAs (Decidable (s.stack = [] ∧ s.functor = []))

/-- `QueueInLoop`. -/
def queue (s : ConnLoop) (op : Op) : ConnLoop :=
  { s with tasks := s.tasks ++ [op], sent := s.sent ++ op.data }

def step (s : ConnLoop) : Action → Option ConnLoop
  | .ready revents =>
    if s.Idle ∧ s.conn.channel.registered = true then
      some { s with stack := Channel.handleEvent revents }
    else none
  | .resume io =>
    match s.stack with
    | frame :: rest =>
      if s.conn.Possible io then (s.conn.resume frame io).map fun e => s.apply e rest else none
    | [] => none
  | .consume len =>
    match s.stack with
    | .user :: _ =>
      if len ≤ s.conn.inBuffer.length then
        some { s with conn := { s.conn with inBuffer := s.conn.inBuffer.drop len } }
      else none
    | _ => none
  | .finish =>
    match s.stack with
    | .user :: rest => some { s with stack := rest }
    | _ => none
  | .call .loop op =>
    if atUser s.stack then
      if op = .release then some (s.queue op)
      else (s.conn.inLoop op).map fun e => { s with sent := s.sent ++ op.data }.apply e s.stack
    else none
  | .call (.other _) op => some (s.queue op)
  | .expire =>
    if s.Idle then
      match s.conn.timer with
      | .absent => none
      -- the destructor of the task calls `Release`
      | .pending => some (({ s with conn := { s.conn with timer := .absent } }).queue .release)
      | .canceled => some { s with conn := { s.conn with timer := .absent } }
    else none
  | .swap => if s.Idle then some { s with functor := s.tasks, tasks := [] } else none
  | .execute =>
    match s.stack, s.functor with
    | [], op :: functor =>
      (s.conn.inLoop op).map fun e => { s with functor := functor }.apply e []
    | _, _ => none

/-! ## 4. What one action does

Each constructor has the conditions under which an action can be taken and the state after it.  The
proofs about runs split on it and never unfold `step`. -/

/-- Every way the actions move the state. -/
inductive Moves (s : ConnLoop) : Action → ConnLoop → Prop
  | ready (revents) (hidle : s.Idle) (hregistered : s.conn.channel.registered = true) :
      Moves s (.ready revents) { s with stack := Channel.handleEvent revents }
  | resume (io frame rest e) (hstack : s.stack = frame :: rest) (hio : s.conn.Possible io)
      (he : s.conn.resume frame io = some e) : Moves s (.resume io) (s.apply e rest)
  | consume (len rest) (hstack : s.stack = .user :: rest) (hlen : len ≤ s.conn.inBuffer.length) :
      Moves s (.consume len)
        { s with conn := { s.conn with inBuffer := s.conn.inBuffer.drop len } }
  | finish (rest) (hstack : s.stack = .user :: rest) : Moves s .finish { s with stack := rest }
  | call (op e) (huser : atUser s.stack = true) (hop : op ≠ .release)
      (he : s.conn.inLoop op = some e) :
      Moves s (.call .loop op) ({ s with sent := s.sent ++ op.data }.apply e s.stack)
  | callRelease (huser : atUser s.stack = true) : Moves s (.call .loop .release) (s.queue .release)
  | callOther (thread op) : Moves s (.call (.other thread) op) (s.queue op)
  | expire (hidle : s.Idle) (htimer : s.conn.timer = .pending) :
      Moves s .expire (({ s with conn := { s.conn with timer := .absent } }).queue .release)
  | expireCanceled (hidle : s.Idle) (htimer : s.conn.timer = .canceled) :
      Moves s .expire { s with conn := { s.conn with timer := .absent } }
  | swap (hidle : s.Idle) : Moves s .swap { s with functor := s.tasks, tasks := [] }
  | execute (op functor e) (hstack : s.stack = []) (hfunctor : s.functor = op :: functor)
      (he : s.conn.inLoop op = some e) :
      Moves s .execute ({ s with functor := functor }.apply e [])

/-- **The inversion lemma of the system**: whatever an action does is one of the listed moves, with
what it was found in. -/
theorem step_moves {s s' : ConnLoop} {a : Action} (h : s.step a = some s') : s.Moves a s' := by
  cases a with
  | ready revents =>
    simp only [step] at h
    split at h
    · rename_i hready
      obtain rfl := Option.some.inj h
      exact .ready revents hready.1 hready.2
    · cases h
  | resume io =>
    simp only [step] at h
    split at h
    · rename_i frame rest hstack
      split at h
      · rename_i hio
        obtain ⟨e, he, rfl⟩ := Option.map_eq_some_iff.mp h
        exact .resume io frame rest e hstack hio he
      · cases h
    · cases h
  | consume len =>
    simp only [step] at h
    split at h
    · rename_i rest hstack
      split at h
      · rename_i hlen
        obtain rfl := Option.some.inj h
        exact .consume len rest hstack hlen
      · cases h
    · cases h
  | finish =>
    simp only [step] at h
    split at h
    · rename_i rest hstack
      obtain rfl := Option.some.inj h
      exact .finish rest hstack
    · cases h
  | call caller op =>
    cases caller with
    | loop =>
      simp only [step] at h
      split at h
      · rename_i huser
        split at h
        · rename_i hop
          obtain rfl := Option.some.inj h
          subst hop
          exact .callRelease huser
        · rename_i hop
          obtain ⟨e, he, rfl⟩ := Option.map_eq_some_iff.mp h
          exact .call op e huser hop he
      · cases h
    | other thread =>
      obtain rfl := Option.some.inj h
      exact .callOther thread op
  | expire =>
    simp only [step] at h
    split at h
    · rename_i hidle
      split at h
      · cases h
      · rename_i htimer
        obtain rfl := Option.some.inj h
        exact .expire hidle htimer
      · rename_i htimer
        obtain rfl := Option.some.inj h
        exact .expireCanceled hidle htimer
    · cases h
  | swap =>
    simp only [step] at h
    split at h
    · rename_i hidle
      obtain rfl := Option.some.inj h
      exact .swap hidle
    · cases h
  | execute =>
    simp only [step] at h
    split at h
    · rename_i op functor hstack hfunctor
      obtain ⟨e, he, rfl⟩ := Option.map_eq_some_iff.mp h
      exact .execute op functor e hstack hfunctor he
    · cases h

end ConnLoop

end OnlineJudge.Muduo
