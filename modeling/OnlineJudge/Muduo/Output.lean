/-
# The output of a connection is in order, and a shutdown waits for it

`Send` appends to `_out_buffer` in the loop's thread, at once or as a task; `HandleWrite` hands the
front of the buffer to the socket, which takes any part of it.  `ShutdownInLoop` releases the
connection when the buffer is empty, and otherwise leaves that to the `HandleWrite` that empties
it.

A byte is at one of three places on its way: in a task, in the buffer, or accepted by the socket.

* `InOrder`: while the socket is open, the three together are what was sent, in the order of the
  calls.
* `Draining`: after the last `Send`, a release is requested only when nothing is left on the way.
* `output_in_order`: both, over every run in which one thread makes the calls.
-/
import OnlineJudge.Muduo.Disconnected

namespace OnlineJudge.Muduo

/-! ## 1. What the functions do to the output

Each function is looked at for the one thing that matters here: whether it moves bytes, and where
to. -/

/-- The data of tasks, in order. -/
def dataOf (ops : List Op) : Bytes := (ops.map Op.data).flatten

@[simp] theorem dataOf_nil : dataOf [] = [] := rfl

@[simp] theorem dataOf_cons (op : Op) (ops : List Op) :
    dataOf (op :: ops) = op.data ++ dataOf ops := rfl

@[simp] theorem dataOf_append (ops ops' : List Op) :
    dataOf (ops ++ ops') = dataOf ops ++ dataOf ops' := by
  simp [dataOf]

namespace Connection

/-- The socket is as open as before, and what has left the buffer has been accepted. -/
structure SameOutput (conn : Connection) (e : Effect) : Prop where
  isOpen : e.conn.socket.isOpen = conn.socket.isOpen
  stream : e.conn.socket.accepted ++ e.conn.outBuffer = conn.socket.accepted ++ conn.outBuffer
  accepted : conn.socket.accepted <+: e.conn.socket.accepted
  closed : conn.socket.isOpen = false → e.conn.socket.accepted = conn.socket.accepted

theorem sameOutput_of_eq {conn : Connection} {e : Effect} (hsocket : e.conn.socket = conn.socket)
    (hout : e.conn.outBuffer = conn.outBuffer) : conn.SameOutput e where
  isOpen := by rw [hsocket]
  stream := by rw [hsocket, hout]
  accepted := by rw [hsocket]
  closed _ := by rw [hsocket]

theorem sameOutput_handleClose (conn : Connection) : conn.SameOutput conn.handleClose := by
  unfold handleClose
  split
  · exact sameOutput_of_eq rfl rfl
  · exact sameOutput_of_eq rfl rfl

theorem sameOutput_handleRead (conn : Connection) (received : Option Bytes) :
    conn.SameOutput (conn.handleRead received) := by
  cases received with
  | none => exact sameOutput_of_eq rfl rfl
  | some buf =>
    simp only [handleRead]
    split
    · exact sameOutput_of_eq rfl rfl
    · exact sameOutput_of_eq rfl rfl

theorem sameOutput_shutdownRest (conn : Connection) : conn.SameOutput conn.shutdownRest := by
  unfold shutdownRest
  split
  · split
    · exact sameOutput_of_eq rfl rfl
    · exact sameOutput_of_eq rfl rfl
  · exact sameOutput_of_eq rfl rfl

/-- `HandleWrite` moves bytes from the buffer to the socket. -/
theorem sameOutput_handleWrite {conn : Connection} {sent : Option Nat}
    (hio : conn.Possible (.send sent)) : conn.SameOutput (conn.handleWrite sent) := by
  cases sent with
  | none => exact sameOutput_handleClose conn
  | some ret =>
    have hmoved : conn.SameOutput ⟨{ conn with
        socket := { conn.socket with accepted := conn.socket.accepted ++ conn.outBuffer.take ret }
        outBuffer := conn.outBuffer.drop ret }, [], false⟩ := by
      refine ⟨rfl, ?_, List.prefix_append _ _, fun hclosed => ?_⟩
      · simp only [List.append_assoc, List.take_append_drop]
      · rcases hio.2 with hempty | hopen
        · simp [hempty]
        · rw [hclosed] at hopen
          cases hopen
    simp only [handleWrite]
    split
    · exact ⟨hmoved.isOpen, hmoved.stream, hmoved.accepted, hmoved.closed⟩
    · exact ⟨hmoved.isOpen, hmoved.stream, hmoved.accepted, hmoved.closed⟩

theorem sameOutput_resume {conn : Connection} {frame : Frame} {io : Io} {e : Effect}
    (hio : conn.Possible io) (h : conn.resume frame io = some e) : conn.SameOutput e := by
  unfold resume at h
  split at h
  · exact Option.some.inj h ▸ sameOutput_handleRead conn _
  · exact Option.some.inj h ▸ sameOutput_handleWrite hio
  · exact Option.some.inj h ▸ sameOutput_handleClose conn
  · exact Option.some.inj h ▸ sameOutput_handleClose conn
  · exact Option.some.inj h ▸ sameOutput_of_eq rfl rfl
  · exact Option.some.inj h ▸ sameOutput_of_eq rfl rfl
  · exact Option.some.inj h ▸ sameOutput_shutdownRest conn
  · exact Option.some.inj h ▸ sameOutput_of_eq rfl rfl
  · cases h

/-- Every operation but `Release`: a connection that has not been released takes the data of a
`Send` into its buffer. -/
theorem output_inLoop {conn : Connection} {op : Op} {e : Effect} (h : conn.inLoop op = some e)
    (hop : op ≠ .release) :
    e.conn.socket = conn.socket ∧
      (conn.statu ≠ .disconnected → e.conn.outBuffer = conn.outBuffer ++ op.data) := by
  cases op with
  | established =>
    simp only [inLoop, establishedInLoop] at h
    split at h
    · exact Option.some.inj h ▸ ⟨rfl, fun _ => (List.append_nil _).symm⟩
    · cases h
  | send data =>
    obtain rfl := Option.some.inj h
    simp only [sendInLoop]
    split
    · rename_i hgone
      exact ⟨rfl, fun hlive => absurd hgone hlive⟩
    · split
      · exact ⟨rfl, fun _ => rfl⟩
      · exact ⟨rfl, fun _ => rfl⟩
  | shutdown =>
    obtain rfl := Option.some.inj h
    simp only [shutdownInLoop, Op.data, List.append_nil]
    split
    · exact ⟨rfl, fun _ => rfl⟩
    · unfold shutdownRest
      split
      · split
        · exact ⟨rfl, fun _ => rfl⟩
        · exact ⟨rfl, fun _ => rfl⟩
      · exact ⟨rfl, fun _ => rfl⟩
  | release => exact absurd rfl hop
  | enableInactiveRelease =>
    exact Option.some.inj h ▸ ⟨rfl, fun _ => (List.append_nil _).symm⟩
  | cancelInactiveRelease =>
    exact Option.some.inj h ▸ ⟨rfl, fun _ => (List.append_nil _).symm⟩

theorem output_releaseInLoop {conn : Connection}
    (hgone : conn.statu = .disconnected → conn.socket.isOpen = false) :
    conn.releaseInLoop.conn.socket.accepted = conn.socket.accepted ∧
      conn.releaseInLoop.conn.socket.isOpen = false := by
  simp only [releaseInLoop]
  split
  · rename_i hstatu
    exact ⟨rfl, hgone hstatu⟩
  · split
    · exact ⟨rfl, rfl⟩
    · exact ⟨rfl, rfl⟩

/-- A connection that is released has its socket closed, also behind any operation. -/
theorem gone_inLoop {conn : Connection} {op : Op} {e : Effect} (h : conn.inLoop op = some e)
    (hgone : conn.statu = .disconnected → conn.socket.isOpen = false) :
    e.conn.statu = .disconnected → e.conn.socket.isOpen = false := by
  intro hstatu
  by_cases hop : op = .release
  · subst hop
    exact Option.some.inj h ▸ (output_releaseInLoop hgone).2
  · rw [(output_inLoop h hop).1]
    by_contra hopen
    exact (inLoop_of_live h hop fun hdisc => hopen (hgone hdisc)).1 hstatu

/-- What an effect is that goes on undisturbed: it calls the user at most. -/
structure CallsUser (conn : Connection) (e : Effect) : Prop where
  frames : ∀ frame ∈ e.frames, frame = .user
  release : e.release = false
  statu : e.conn.statu = .disconnecting → conn.statu = .disconnecting

theorem callsUser_handleRead (conn : Connection) (buf : Bytes) :
    conn.CallsUser (conn.handleRead (some buf)) := by
  simp only [handleRead]
  split
  · exact ⟨by simp, rfl, id⟩
  · exact ⟨by simp, rfl, id⟩

theorem callsUser_inLoop {conn : Connection} {op : Op} {e : Effect} (h : conn.inLoop op = some e)
    (hshutdown : op ≠ .shutdown) (hrelease : op ≠ .release) : conn.CallsUser e := by
  cases op with
  | established =>
    simp only [inLoop, establishedInLoop] at h
    split at h
    · exact Option.some.inj h ▸ ⟨by simp, rfl, by simp⟩
    · cases h
  | send data =>
    obtain rfl := Option.some.inj h
    refine ⟨by simp, rfl, ?_⟩
    simp only [sendInLoop]
    split
    · exact id
    · split
      · exact id
      · exact id
  | shutdown => exact absurd rfl hshutdown
  | release => exact absurd rfl hrelease
  | enableInactiveRelease => exact Option.some.inj h ▸ ⟨by simp, rfl, id⟩
  | cancelInactiveRelease => exact Option.some.inj h ▸ ⟨by simp, rfl, id⟩

end Connection

/-! ## 2. Nothing is lost or repeated on the way

The bytes in the three places, in this order, are those that were sent.  One thread makes the calls:
if it is the loop's own, none of its data is ever in a task, and nothing is overtaken. -/

namespace Action

/-- The data that an action sends. -/
def data : Action → Bytes
  | .call _ op => op.data
  | _ => []

/-- The action is not a `Send` of another thread than `caller`. -/
def SentBy (caller : Caller) : Action → Prop
  | .call c (.send _) => c = caller
  | _ => True

end Action

namespace ConnLoop

open Connection

/-- What is on its way to the socket. -/
def owed (s : ConnLoop) : Bytes := s.conn.outBuffer ++ dataOf s.queued

/-- What has been accepted and what is on its way is what was sent, in order. -/
structure InOrder (caller : Caller) (s : ConnLoop) : Prop where
  live : s.conn.socket.isOpen = true → s.conn.socket.accepted ++ s.owed = s.sent
  accepted : s.conn.socket.accepted <+: s.sent
  gone : s.conn.statu = .disconnected → s.conn.socket.isOpen = false
  atOnce : caller = .loop → dataOf s.queued = []

theorem inOrder_initial (caller : Caller) : initial.InOrder caller :=
  ⟨fun _ => rfl, List.prefix_rfl, nofun, fun _ => rfl⟩

theorem InOrder.congr {caller : Caller} {s s' : ConnLoop} (h : s.InOrder caller)
    (hsocket : s'.conn.socket = s.conn.socket) (howed : s'.owed = s.owed)
    (hsent : s'.sent = s.sent) (hstatu : s'.conn.statu = s.conn.statu)
    (hqueued : dataOf s'.queued = dataOf s.queued) : s'.InOrder caller where
  live := by rw [hsocket, howed, hsent]; exact h.live
  accepted := by rw [hsocket, hsent]; exact h.accepted
  gone := by rw [hsocket, hstatu]; exact h.gone
  atOnce := by rw [hqueued]; exact h.atOnce

@[simp] theorem dataOf_queued_apply (s : ConnLoop) (e : Effect) (rest : List Frame) :
    dataOf (s.apply e rest).queued = dataOf s.queued := by
  simp only [apply, queued]
  split
  · simp [Op.data]
  · rfl

theorem dataOf_queued_queue (s : ConnLoop) (op : Op) :
    dataOf (s.queue op).queued = dataOf s.queued ++ op.data := by
  simp [queue, queued]

/-- A task that is queued, by the thread that sends or without data. -/
theorem InOrder.queue {caller : Caller} {s : ConnLoop} (h : s.InOrder caller) (op : Op)
    (hop : caller = .loop → op.data = []) : (s.queue op).InOrder caller where
  live hopen := by
    have hlive : s.conn.socket.accepted ++ s.owed = s.sent := h.live hopen
    rw [owed, dataOf_queued_queue, ← List.append_assoc (s.queue op).conn.outBuffer,
      ← List.append_assoc]
    exact congrArg (· ++ op.data) hlive
  accepted := h.accepted.trans (List.prefix_append _ _)
  gone := h.gone
  atOnce hcaller := by rw [dataOf_queued_queue, h.atOnce hcaller, hop hcaller, List.append_nil]

/-- An operation that is carried out, when its data comes first of what is on its way. -/
theorem inOrder_inLoop {caller : Caller} {s : ConnLoop} {op : Op} {e : Effect}
    {rest : List Frame} (he : s.conn.inLoop op = some e)
    (hlive : s.conn.socket.isOpen = true →
      s.conn.socket.accepted ++ (s.conn.outBuffer ++ op.data ++ dataOf s.queued) = s.sent)
    (haccepted : s.conn.socket.accepted <+: s.sent)
    (hgone : s.conn.statu = .disconnected → s.conn.socket.isOpen = false)
    (hatOnce : caller = .loop → dataOf s.queued = []) : (s.apply e rest).InOrder caller := by
  have hqueued : dataOf (s.apply e rest).queued = dataOf s.queued := dataOf_queued_apply s e rest
  by_cases hop : op = .release
  · subst hop
    obtain rfl := Option.some.inj he
    obtain ⟨hsame, hclosed⟩ := output_releaseInLoop hgone
    refine ⟨fun hopen => ?_, hsame ▸ haccepted, fun _ => hclosed, hqueued ▸ hatOnce⟩
    rw [show (s.apply s.conn.releaseInLoop rest).conn.socket.isOpen = false from hclosed] at hopen
    cases hopen
  · obtain ⟨hsocket, hout⟩ := output_inLoop he hop
    refine ⟨fun hopen => ?_, hsocket ▸ haccepted, gone_inLoop he hgone, hqueued ▸ hatOnce⟩
    have hopen' : s.conn.socket.isOpen = true := hsocket ▸ hopen
    have hstatu : s.conn.statu ≠ .disconnected := by
      intro hstatu
      rw [hgone hstatu] at hopen'
      cases hopen'
    rw [owed, hqueued]
    change e.conn.socket.accepted ++ (e.conn.outBuffer ++ dataOf s.queued) = s.sent
    rw [hsocket, hout hstatu]
    exact hlive hopen'

theorem statu_resume {conn : Connection} {frame : Frame} {io : Io} {e : Effect}
    (h : conn.resume frame io = some e) : e.conn.statu = conn.statu := by
  by_cases hframe : frame = .serverClosed
  · subst hframe
    cases io with
    | nothing => exact Option.some.inj h ▸ rfl
    | recv | send => cases h
  · exact (sameLife_resume h hframe).statu

theorem InOrder.resume {caller : Caller} {s : ConnLoop} {frame : Frame} {rest : List Frame}
    {io : Io} {e : Effect} (h : s.InOrder caller) (hio : s.conn.Possible io)
    (he : s.conn.resume frame io = some e) : (s.apply e rest).InOrder caller := by
  have hsame := sameOutput_resume hio he
  have hqueued : dataOf (s.apply e rest).queued = dataOf s.queued := dataOf_queued_apply s e rest
  have hlive : s.conn.socket.isOpen = true →
      e.conn.socket.accepted ++ (e.conn.outBuffer ++ dataOf s.queued) = s.sent := by
    intro hopen
    rw [← List.append_assoc, hsame.stream, List.append_assoc]
    exact h.live hopen
  refine ⟨fun hopen => ?_, ?_, fun hstatu => ?_, hqueued ▸ h.atOnce⟩
  · rw [owed, hqueued]
    exact hlive (hsame.isOpen ▸ hopen)
  · cases hopen : s.conn.socket.isOpen with
    | true => exact hlive hopen ▸ List.prefix_append _ _
    | false => exact (hsame.closed hopen).symm ▸ h.accepted
  · exact hsame.isOpen.trans (h.gone ((statu_resume he).symm.trans hstatu))

theorem InOrder.step {caller : Caller} {s s' : ConnLoop} {a : Action} (h : s.InOrder caller)
    (ha : a.SentBy caller) (hs : s.step a = some s') : s'.InOrder caller := by
  cases step_moves hs with
  | ready | consume | finish => exact h.congr rfl rfl rfl rfl rfl
  | resume io frame rest e hstack hio he => exact h.resume hio he
  | call op e huser hop he =>
    have hdata : op.data = [] ∨ dataOf s.queued = [] := by
      cases op with
      | send data => exact Or.inr (h.atOnce (Eq.symm ha))
      | _ => exact Or.inl rfl
    refine inOrder_inLoop he (fun hopen => ?_) (h.accepted.trans (List.prefix_append _ _))
      h.gone h.atOnce
    change s.conn.socket.accepted ++ (s.conn.outBuffer ++ op.data ++ dataOf s.queued) =
      s.sent ++ op.data
    rw [← h.live hopen, owed]
    rcases hdata with hdata | hdata
    · rw [hdata, List.append_nil, List.append_nil]
    · rw [hdata, List.append_nil, List.append_nil, List.append_assoc]
  | callRelease => exact h.queue .release fun _ => rfl
  | callOther thread op =>
    refine h.queue op fun hcaller => ?_
    cases op with
    | send data => exact absurd (Eq.trans ha hcaller) nofun
    | _ => rfl
  | expire =>
    have hmid : ({ s with conn := { s.conn with timer := .absent } } : ConnLoop).InOrder caller :=
      h.congr rfl rfl rfl rfl rfl
    exact hmid.queue .release fun _ => rfl
  | expireCanceled => exact h.congr rfl rfl rfl rfl rfl
  | swap hidle =>
    have hqueued : ({ s with functor := s.tasks, tasks := [] } : ConnLoop).queued = s.queued := by
      simp [queued, hidle.2]
    refine h.congr rfl ?_ rfl rfl (by rw [hqueued])
    rw [owed, owed, hqueued]
  | execute op functor e hstack hfunctor he =>
    have hqueued : dataOf s.queued =
        op.data ++ dataOf ({ s with functor := functor } : ConnLoop).queued := by
      simp [queued, hfunctor]
    refine inOrder_inLoop he (fun hopen => ?_) h.accepted h.gone fun hcaller => ?_
    · rw [List.append_assoc, ← hqueued]
      exact h.live hopen
    · have hnil := h.atOnce hcaller
      rw [hqueued] at hnil
      exact (List.append_eq_nil_iff.mp hnil).2

/-! ## 3. A shutdown waits for the output

Before a shutdown nothing asks for a release.  After it a release is asked for when the buffer is
empty, and a task with data would come first. -/

end ConnLoop

namespace Action

/-- The action is not a call of `Send`. -/
def NoSend : Action → Prop
  | .call _ (.send _) => False
  | _ => True

/-- The action is not a call of `Shutdown`. -/
def NoShutdown : Action → Prop
  | .call _ .shutdown => False
  | _ => True

end Action

namespace ConnLoop

open Connection

/-- No error, no end of the input, no hang-up and no timer, and no call that releases the
connection without a shutdown.  The thread that shuts it down is not behind the sending one: the
loop's thread, which queues nothing, does so only if it also sends. -/
def Undisturbed (caller : Caller) (s : ConnLoop) : Action → Prop
  | .ready revents => revents.epollerr = false ∧ revents.epollhup = false
  | .resume (.recv none) => False
  | .resume (.send none) => False
  | .call _ .release => False
  | .call .loop .shutdown => caller = .loop
  | .expire => s.conn.timer ≠ .pending
  | _ => True

instance (caller : Caller) (s : ConnLoop) : ∀ a, Decidable (s.Undisturbed caller a)
  | .ready revents =>
    inferInstanceAs (Decidable (revents.epollerr = false ∧ revents.epollhup = false))
  | .resume (.recv none) | .resume (.send none) => isFalse id
  | .resume .nothing | .resume (.recv (some _)) | .resume (.send (some _)) => isTrue trivial
  | .call .loop .shutdown => inferInstanceAs (Decidable (caller = .loop))
  | .call .loop .release | .call (.other _) .release => isFalse id
  | .call .loop .established | .call .loop (.send _) | .call .loop .enableInactiveRelease
  | .call .loop .cancelInactiveRelease => isTrue trivial
  | .call (.other _) .established | .call (.other _) (.send _) | .call (.other _) .shutdown
  | .call (.other _) .enableInactiveRelease | .call (.other _) .cancelInactiveRelease =>
    isTrue trivial
  | .expire => inferInstanceAs (Decidable (s.conn.timer ≠ .pending))
  | .consume _ | .finish | .swap | .execute => isTrue trivial

/-- The frames of an undisturbed connection that has not been shut down: no error, no hang-up and no
release among them. -/
def Quiet (frame : Frame) : Prop :=
  frame ≠ .handleError ∧ frame ≠ .handleClose ∧ frame ≠ .release

/-- There is no data behind a shutdown. -/
def NothingBehind : List Op → Prop
  | [] => True
  | op :: ops => (op = .shutdown → dataOf ops = []) ∧ NothingBehind ops

theorem nothingBehind_append {ops : List Op} (h : NothingBehind ops) {op : Op}
    (hop : op.data = []) : NothingBehind (ops ++ [op]) := by
  induction ops with
  | nil => exact ⟨fun _ => rfl, trivial⟩
  | cons op' ops ih =>
    refine ⟨fun hshutdown => ?_, ih h.2⟩
    change dataOf (ops ++ [op]) = []
    rw [dataOf_append, h.1 hshutdown, dataOf_cons, hop]
    rfl

theorem nothingBehind_of_notMem {ops : List Op} (h : .shutdown ∉ ops) : NothingBehind ops := by
  induction ops with
  | nil => trivial
  | cons op ops ih =>
    exact ⟨fun hop => absurd (hop ▸ List.mem_cons_self) h,
      ih fun hmem => h (List.mem_cons_of_mem _ hmem)⟩

/-- Nobody has called `Shutdown`, or `Release`: neither is in the queue nor on the stack, and the
socket is open. -/
structure Running (s : ConnLoop) : Prop where
  statu : s.conn.statu ≠ .disconnecting
  isOpen : s.conn.socket.isOpen = true
  queued : ∀ op ∈ s.queued, op ≠ .shutdown ∧ op ≠ .release
  stack : ∀ frame ∈ s.stack, Quiet frame ∧ frame ≠ .shutdownRest

/-- Nobody calls `Send` any more: a release is on its way only when no output is. -/
structure Draining (s : ConnLoop) : Prop where
  ending : s.conn.statu = .disconnecting ∨ .shutdownRest ∈ s.stack → dataOf s.queued = []
  behind : NothingBehind s.queued
  released : .release ∈ s.queued ∨ s.conn.socket.isOpen = false →
    s.conn.socket.accepted = s.sent
  stack : ∀ frame ∈ s.stack, Quiet frame

theorem running_initial : initial.Running := ⟨nofun, rfl, nofun, nofun⟩

theorem Running.draining {s : ConnLoop} (h : s.Running) : s.Draining where
  ending hending := by
    rcases hending with hstatu | hmem
    · exact absurd hstatu h.statu
    · exact absurd rfl (h.stack _ hmem).2
  behind := nothingBehind_of_notMem fun hmem => (h.queued _ hmem).1 rfl
  released hreleased := by
    rcases hreleased with hmem | hclosed
    · exact absurd rfl (h.queued _ hmem).2
    · rw [h.isOpen] at hclosed
      cases hclosed
  stack frame hmem := (h.stack frame hmem).1

theorem quiet_of_callsUser {conn : Connection} {e : Effect} (h : conn.CallsUser e) {frame : Frame}
    (hmem : frame ∈ e.frames) : Quiet frame ∧ frame ≠ .shutdownRest := by
  rw [h.frames frame hmem]
  exact ⟨⟨nofun, nofun, nofun⟩, nofun⟩

theorem quiet_handleEvent {revents : REvents}
    (h : revents.epollerr = false ∧ revents.epollhup = false) :
    ∀ frame ∈ Channel.handleEvent revents, Quiet frame ∧ frame ≠ .shutdownRest := by
  unfold Channel.handleEvent Quiet
  simp only [h.1, h.2, Bool.false_eq_true, if_false]
  split_ifs <;> simp

/-- The frames of a stack under an effect that calls the user at most. -/
theorem Running.apply {s : ConnLoop} {e : Effect} {rest : List Frame} (h : s.Running)
    (he : s.conn.CallsUser e) (hopen : e.conn.socket.isOpen = s.conn.socket.isOpen)
    (hrest : rest ⊆ s.stack) : (s.apply e rest).Running where
  statu hstatu := h.statu (he.statu hstatu)
  isOpen := hopen.trans h.isOpen
  queued := by
    simp only [ConnLoop.apply, he.release, Bool.false_eq_true, if_false]
    exact h.queued
  stack frame hmem := by
    rcases List.mem_append.mp hmem with hmem | hmem
    · exact quiet_of_callsUser he hmem
    · exact h.stack frame (hrest hmem)

/-- Before a shutdown, a frame that runs calls the user at most. -/
theorem Running.callsUser {s : ConnLoop} {frame : Frame} {rest : List Frame} {io : Io} {e : Effect}
    (h : s.Running) (hstack : s.stack = frame :: rest)
    (hio : io ≠ .recv none ∧ io ≠ .send none) (he : s.conn.resume frame io = some e) :
    s.conn.CallsUser e := by
  obtain ⟨⟨herror, hclose, hrelease⟩, hshutdown⟩ := h.stack frame (hstack ▸ List.mem_cons_self)
  unfold Connection.resume at he
  split at he
  · rename_i received
    obtain rfl := Option.some.inj he
    cases received with
    | none => exact absurd rfl hio.1
    | some buf => exact callsUser_handleRead s.conn buf
  · rename_i sent
    obtain rfl := Option.some.inj he
    cases sent with
    | none => exact absurd rfl hio.2
    | some ret =>
      simp only [handleWrite]
      split
      · exact ⟨by simp, decide_eq_false h.statu, id⟩
      · exact ⟨by simp, rfl, id⟩
  · exact absurd rfl herror
  · exact absurd rfl hclose
  · exact Option.some.inj he ▸ ⟨by simp [handleEvent], rfl, id⟩
  · exact absurd rfl hrelease
  · exact absurd rfl hshutdown
  · exact Option.some.inj he ▸ ⟨by simp, rfl, id⟩
  · cases he

theorem Undisturbed.io {caller : Caller} {s : ConnLoop} {io : Io}
    (h : s.Undisturbed caller (.resume io)) : io ≠ .recv none ∧ io ≠ .send none := by
  constructor
  · rintro rfl
    exact h
  · rintro rfl
    exact h

theorem Running.queue {s : ConnLoop} (h : s.Running) {op : Op}
    (hop : op ≠ .shutdown ∧ op ≠ .release) : (s.queue op).Running := by
  refine ⟨h.statu, h.isOpen, fun op' hmem => ?_, h.stack⟩
  rw [ConnLoop.queued, ConnLoop.queue, ← List.append_assoc] at hmem
  rcases List.mem_append.mp hmem with hmem | hmem
  · exact h.queued op' hmem
  · exact List.mem_singleton.mp hmem ▸ hop

theorem Running.step {caller : Caller} {s s' : ConnLoop} {a : Action} (h : s.Running)
    (ha : s.Undisturbed caller a) (hshutdown : a.NoShutdown) (hs : s.step a = some s') :
    s'.Running := by
  cases step_moves hs with
  | ready revents => exact ⟨h.statu, h.isOpen, h.queued, quiet_handleEvent ha⟩
  | resume io frame rest e hstack hio he =>
    exact h.apply (h.callsUser hstack ha.io he) (sameOutput_resume hio he).isOpen
      (hstack ▸ List.subset_cons_self frame rest)
  | consume => exact ⟨h.statu, h.isOpen, h.queued, h.stack⟩
  | finish rest hstack =>
    exact ⟨h.statu, h.isOpen, h.queued,
      fun frame hmem => h.stack frame (hstack ▸ List.mem_cons_of_mem _ hmem)⟩
  | call op e huser hop he =>
    have hmid : ({ s with sent := s.sent ++ op.data } : ConnLoop).Running :=
      ⟨h.statu, h.isOpen, h.queued, h.stack⟩
    have hnot : op ≠ .shutdown := by
      rintro rfl
      exact hshutdown
    exact hmid.apply (callsUser_inLoop he hnot hop) (by rw [(output_inLoop he hop).1])
      (List.Subset.refl _)
  | callRelease => exact ha.elim
  | callOther thread op =>
    refine h.queue ⟨?_, ?_⟩
    · rintro rfl
      exact hshutdown
    · rintro rfl
      exact ha
  | expire hidle htimer => exact absurd htimer ha
  | expireCanceled => exact ⟨h.statu, h.isOpen, h.queued, h.stack⟩
  | swap hidle =>
    refine ⟨h.statu, h.isOpen, fun op hmem => h.queued op ?_, h.stack⟩
    simpa [ConnLoop.queued, hidle.2] using hmem
  | execute op functor e hstack hfunctor he =>
    have hqueued : s.queued = op :: ({ s with functor := functor } : ConnLoop).queued := by
      simp [ConnLoop.queued, hfunctor]
    have hmid : ({ s with functor := functor } : ConnLoop).Running :=
      ⟨h.statu, h.isOpen, fun op' hmem => h.queued op' (hqueued ▸ List.mem_cons_of_mem _ hmem),
        h.stack⟩
    obtain ⟨hshut, hrel⟩ := h.queued op (hqueued ▸ List.mem_cons_self)
    exact hmid.apply (callsUser_inLoop he hshut hrel) (by rw [(output_inLoop he hrel).1])
      (List.nil_subset _)

/-- An effect keeps the rule when it releases with nothing on the way, and only a connection with
nothing in the tasks is ending. -/
theorem Draining.apply {s : ConnLoop} {e : Effect} {rest : List Frame} (h : s.Draining)
    (hrest : rest ⊆ s.stack) (hframes : ∀ frame ∈ e.frames, Quiet frame)
    (hending : e.conn.statu = .disconnecting ∨ .shutdownRest ∈ e.frames → dataOf s.queued = [])
    (hgrows : s.conn.socket.accepted <+: e.conn.socket.accepted)
    (hsent : e.conn.socket.accepted <+: s.sent)
    (hreleased : e.release = true ∨ e.conn.socket.isOpen = false →
      s.conn.socket.isOpen = false ∨ e.conn.socket.accepted = s.sent) :
    (s.apply e rest).Draining := by
  have hkeep : s.conn.socket.accepted = s.sent → e.conn.socket.accepted = s.sent := by
    intro hall
    exact hsent.eq_of_length_le (hall ▸ hgrows.length_le)
  refine ⟨fun hend => ?_, ?_, fun hrel => ?_, fun frame hmem => ?_⟩
  · rw [dataOf_queued_apply]
    rcases hend with hstatu | hmem
    · exact hending (Or.inl hstatu)
    · rcases List.mem_append.mp hmem with hmem | hmem
      · exact hending (Or.inr hmem)
      · exact h.ending (Or.inr (hrest hmem))
  · simp only [ConnLoop.apply, queued]
    split
    · rw [← List.append_assoc]
      exact nothingBehind_append h.behind rfl
    · exact h.behind
  · have hcases : e.release = true ∨ e.conn.socket.isOpen = false ∨ .release ∈ s.queued := by
      cases hr : e.release with
      | true => exact Or.inl rfl
      | false =>
        simp only [ConnLoop.apply, hr, queued] at hrel
        rcases hrel with hmem | hclosed
        · exact Or.inr (Or.inr hmem)
        · exact Or.inr (Or.inl hclosed)
    rcases hcases with hr | hclosed | hmem
    · rcases hreleased (Or.inl hr) with hclosed | hall
      · exact hkeep (h.released (Or.inr hclosed))
      · exact hall
    · rcases hreleased (Or.inr hclosed) with hclosed | hall
      · exact hkeep (h.released (Or.inr hclosed))
      · exact hall
    · exact hkeep (h.released (Or.inl hmem))
  · rcases List.mem_append.mp hmem with hmem | hmem
    · exact hframes frame hmem
    · exact h.stack frame (hrest hmem)

/-- A frame that runs undisturbed calls the user at most, and releases the connection when the
buffer is empty and a shutdown waits for that. -/
theorem Draining.of_resume {s : ConnLoop} {frame : Frame} {rest : List Frame} {io : Io} {e : Effect}
    (h : s.Draining) (hstack : s.stack = frame :: rest)
    (hio : io ≠ .recv none ∧ io ≠ .send none) (he : s.conn.resume frame io = some e) :
    (∀ frame ∈ e.frames, frame = .user) ∧
      (e.release = true → e.conn.outBuffer = [] ∧ dataOf s.queued = []) := by
  have hmem : frame ∈ s.stack := hstack ▸ List.mem_cons_self
  obtain ⟨herror, hclose, hrelease⟩ := h.stack frame hmem
  unfold Connection.resume at he
  split at he
  · rename_i received
    obtain rfl := Option.some.inj he
    cases received with
    | none => exact absurd rfl hio.1
    | some buf =>
      have hcalls := callsUser_handleRead s.conn buf
      exact ⟨hcalls.frames, fun hr => absurd (hcalls.release.symm.trans hr) Bool.false_ne_true⟩
  · rename_i sent
    obtain rfl := Option.some.inj he
    cases sent with
    | none => exact absurd rfl hio.2
    | some ret =>
      simp only [handleWrite]
      split
      · rename_i hempty
        refine ⟨by simp, fun hr => ⟨hempty, h.ending (Or.inl ?_)⟩⟩
        exact of_decide_eq_true hr
      · exact ⟨by simp, by simp⟩
  · exact absurd rfl herror
  · exact absurd rfl hclose
  · exact Option.some.inj he ▸ ⟨by simp [handleEvent], by simp [handleEvent]⟩
  · exact absurd rfl hrelease
  · obtain rfl := Option.some.inj he
    unfold shutdownRest
    split
    · split
      · exact ⟨by simp, by simp⟩
      · exact ⟨by simp, by simp⟩
    · rename_i hempty
      exact ⟨by simp, fun _ => ⟨not_not.mp hempty, h.ending (Or.inr hmem)⟩⟩
  · exact Option.some.inj he ▸ ⟨by simp, by simp⟩
  · cases he

theorem quiet_user : Quiet .user := ⟨nofun, nofun, nofun⟩

theorem Draining.resume {caller : Caller} {s : ConnLoop} {frame : Frame} {rest : List Frame}
    {io : Io} {e : Effect} (h : s.Draining) (hord : s.InOrder caller)
    (hstack : s.stack = frame :: rest) (hpossible : s.conn.Possible io)
    (hio : io ≠ .recv none ∧ io ≠ .send none) (he : s.conn.resume frame io = some e) :
    (s.apply e rest).Draining := by
  have hsame := sameOutput_resume hpossible he
  have hord' : (s.apply e rest).InOrder caller := hord.resume hpossible he
  obtain ⟨hframes, hrelease⟩ := h.of_resume hstack hio he
  refine h.apply (hstack ▸ List.subset_cons_self frame rest)
    (fun frame hmem => hframes frame hmem ▸ quiet_user) ?_ hsame.accepted hord'.accepted ?_
  · rintro (hstatu | hmem)
    · exact h.ending (Or.inl ((statu_resume he).symm.trans hstatu))
    · cases hframes _ hmem
  · rintro (hr | hclosed)
    · cases hopen : s.conn.socket.isOpen with
      | false => exact Or.inl rfl
      | true =>
        obtain ⟨hout, hqueued⟩ := hrelease hr
        have hlive := hord'.live (hsame.isOpen.trans hopen)
        rw [owed, dataOf_queued_apply, hqueued, List.append_nil] at hlive
        rw [show (s.apply e rest).conn.outBuffer = [] from hout, List.append_nil] at hlive
        exact Or.inr hlive
    · exact Or.inl (hsame.isOpen.symm.trans hclosed)

/-- `ShutdownInLoop` releases the connection when the buffer is empty. -/
theorem shutdownInLoop_spec (conn : Connection) :
    (∀ frame ∈ conn.shutdownInLoop.frames, Quiet frame) ∧
      (conn.shutdownInLoop.release = true → conn.shutdownInLoop.conn.outBuffer = []) := by
  simp only [shutdownInLoop]
  split
  · exact ⟨by simp [Quiet], by simp⟩
  · unfold shutdownRest
    split
    · split
      · exact ⟨by simp, by simp⟩
      · exact ⟨by simp, by simp⟩
    · rename_i hempty
      exact ⟨by simp, fun _ => not_not.mp hempty⟩

theorem releaseInLoop_spec (conn : Connection) :
    (∀ frame ∈ conn.releaseInLoop.frames, Quiet frame ∧ frame ≠ .shutdownRest) ∧
      conn.releaseInLoop.release = false ∧ conn.releaseInLoop.conn.statu = .disconnected := by
  simp only [releaseInLoop]
  split
  · rename_i hgone
    exact ⟨by simp, rfl, hgone⟩
  · split
    · exact ⟨by simp [Quiet], rfl, rfl⟩
    · exact ⟨by simp [Quiet], rfl, rfl⟩

theorem Draining.inLoop {caller : Caller} {s : ConnLoop} {op : Op} {e : Effect}
    {rest : List Frame} (h : s.Draining) (he : s.conn.inLoop op = some e)
    (hord : (s.apply e rest).InOrder caller) (hrest : rest ⊆ s.stack)
    (hshutdown : op = .shutdown → dataOf s.queued = [])
    (hrelease : op = .release → s.conn.socket.accepted = s.sent)
    (hgone : s.conn.statu = .disconnected → s.conn.socket.isOpen = false) :
    (s.apply e rest).Draining := by
  by_cases hrel : op = .release
  · subst hrel
    obtain rfl := Option.some.inj he
    obtain ⟨hframes, hnone, hstatu⟩ := releaseInLoop_spec s.conn
    have hsame := (output_releaseInLoop hgone).1
    refine h.apply hrest (fun frame hmem => (hframes frame hmem).1) ?_ (hsame ▸ List.prefix_rfl)
      hord.accepted fun _ => Or.inr (hsame.trans (hrelease rfl))
    rintro (hending | hmem)
    · rw [hstatu] at hending
      cases hending
    · exact absurd rfl (hframes _ hmem).2
  · obtain ⟨hsocket, -⟩ := output_inLoop he hrel
    have hgrows : s.conn.socket.accepted <+: e.conn.socket.accepted := hsocket ▸ List.prefix_rfl
    by_cases hshut : op = .shutdown
    · subst hshut
      obtain rfl := Option.some.inj he
      obtain ⟨hframes, hempty⟩ := shutdownInLoop_spec s.conn
      refine h.apply hrest hframes (fun _ => hshutdown rfl) hgrows hord.accepted ?_
      rintro (hr | hclosed)
      · cases hopen : s.conn.socket.isOpen with
        | false => exact Or.inl rfl
        | true =>
          have hlive := hord.live ((congrArg Socket.isOpen hsocket).trans hopen)
          rw [owed, dataOf_queued_apply, hshutdown rfl, List.append_nil] at hlive
          rw [show (s.apply s.conn.shutdownInLoop rest).conn.outBuffer = [] from hempty hr,
            List.append_nil] at hlive
          exact Or.inr hlive
      · exact Or.inl (hsocket ▸ hclosed)
    · have hcalls := callsUser_inLoop he hshut hrel
      refine h.apply hrest (fun frame hmem => hcalls.frames frame hmem ▸ quiet_user) ?_ hgrows
        hord.accepted ?_
      · rintro (hstatu | hmem)
        · exact h.ending (Or.inl (hcalls.statu hstatu))
        · cases hcalls.frames _ hmem
      · rintro (hr | hclosed)
        · rw [hcalls.release] at hr
          cases hr
        · exact Or.inl (hsocket ▸ hclosed)

theorem Draining.queue {s : ConnLoop} (h : s.Draining) {op : Op} (hdata : op.data = [])
    (hop : op ≠ .release) : (s.queue op).Draining := by
  have hsent : (s.queue op).sent = s.sent := by rw [ConnLoop.queue, hdata, List.append_nil]
  have hqueued : (s.queue op).queued = s.queued ++ [op] := by
    simp only [ConnLoop.queue, ConnLoop.queued, List.append_assoc]
  refine ⟨fun hending => ?_, ?_, fun hreleased => ?_, h.stack⟩
  · rw [dataOf_queued_queue, h.ending hending, hdata]
    rfl
  · rw [hqueued]
    exact nothingBehind_append h.behind hdata
  · rw [hsent]
    rw [hqueued, List.mem_append, List.mem_singleton] at hreleased
    rcases hreleased with (hmem | hmem) | hclosed
    · exact h.released (Or.inl hmem)
    · exact absurd hmem.symm hop
    · exact h.released (Or.inr hclosed)

theorem Draining.step {caller : Caller} {s s' : ConnLoop} {a : Action} (h : s.Draining)
    (hord : s.InOrder caller) (ha : s.Undisturbed caller a) (hsend : a.NoSend)
    (hs : s.step a = some s') : s'.Draining := by
  have hsent : a.SentBy caller := by
    cases a with
    | call c op =>
      cases op with
      | send data => exact hsend.elim
      | _ => trivial
    | _ => trivial
  have hord' : s'.InOrder caller := hord.step hsent hs
  cases step_moves hs with
  | ready revents =>
    have hquiet := quiet_handleEvent ha
    refine ⟨?_, h.behind, h.released, fun frame hmem => (hquiet frame hmem).1⟩
    rintro (hstatu | hmem)
    · exact h.ending (Or.inl hstatu)
    · exact absurd rfl (hquiet _ hmem).2
  | resume io frame rest e hstack hio he => exact h.resume hord hstack hio ha.io he
  | consume => exact ⟨h.ending, h.behind, h.released, h.stack⟩
  | finish rest hstack =>
    refine ⟨?_, h.behind, h.released,
      fun frame hmem => h.stack frame (hstack ▸ List.mem_cons_of_mem _ hmem)⟩
    rintro (hstatu | hmem)
    · exact h.ending (Or.inl hstatu)
    · exact h.ending (Or.inr (hstack ▸ List.mem_cons_of_mem _ hmem))
  | call op e huser hop he =>
    have hdata : op.data = [] := by
      cases op with
      | send data => exact hsend.elim
      | _ => rfl
    have hmid : ({ s with sent := s.sent ++ op.data } : ConnLoop).Draining :=
      ⟨h.ending, h.behind, fun hr => by rw [hdata, List.append_nil]; exact h.released hr, h.stack⟩
    refine hmid.inLoop he hord' (List.Subset.refl _) ?_ (fun hr => absurd hr hop) hord.gone
    rintro rfl
    exact hord.atOnce ha
  | callRelease => exact ha.elim
  | callOther thread op =>
    refine h.queue ?_ ?_
    · cases op with
      | send data => exact hsend.elim
      | _ => rfl
    · rintro rfl
      exact ha
  | expire hidle htimer => exact absurd htimer ha
  | expireCanceled => exact ⟨h.ending, h.behind, h.released, h.stack⟩
  | swap hidle =>
    have hqueued : ({ s with functor := s.tasks, tasks := [] } : ConnLoop).queued = s.queued := by
      simp [ConnLoop.queued, hidle.2]
    exact ⟨hqueued ▸ h.ending, hqueued ▸ h.behind, hqueued ▸ h.released, h.stack⟩
  | execute op functor e hstack hfunctor he =>
    have hqueued : s.queued = op :: ({ s with functor := functor } : ConnLoop).queued := by
      simp [ConnLoop.queued, hfunctor]
    have hbehind : NothingBehind (op :: ({ s with functor := functor } : ConnLoop).queued) :=
      hqueued ▸ h.behind
    have hmid : ({ s with functor := functor } : ConnLoop).Draining := by
      refine ⟨fun hending => ?_, hbehind.2, fun hr => h.released ?_, h.stack⟩
      · have hnil := h.ending hending
        rw [hqueued] at hnil
        exact (List.append_eq_nil_iff.mp hnil).2
      · rcases hr with hmem | hclosed
        · exact Or.inl (hqueued ▸ List.mem_cons_of_mem _ hmem)
        · exact Or.inr hclosed
    refine hmid.inLoop he hord' (List.nil_subset _) hbehind.1 ?_ hord.gone
    rintro rfl
    exact h.released (Or.inl (hqueued ▸ List.mem_cons_self))

/-! ## 4. Over every run

The run is cut at the last `Send`: up to there nobody has shut the connection down, and from there
on nobody sends. -/

/-- The data of the `Send` calls of a run, in the order of the calls. -/
def sentData (as : List Action) : Bytes := (as.map Action.data).flatten

theorem sent_step {s s' : ConnLoop} {a : Action} (hs : s.step a = some s') :
    s'.sent = s.sent ++ a.data := by
  cases step_moves hs with
  | call | callRelease | callOther => rfl
  | expire => rfl
  | _ => exact (List.append_nil _).symm

theorem sent_exec {s t : ConnLoop} {as : List Action}
    (hrun : Transition.exec step s as = some t) : t.sent = s.sent ++ sentData as := by
  induction as generalizing s with
  | nil =>
    obtain rfl := Option.some.inj hrun
    exact (List.append_nil _).symm
  | cons a as ih =>
    obtain ⟨s', hs', hrest⟩ := (Transition.exec_cons_eq_some step).mp hrun
    rw [ih hrest, sent_step hs', List.append_assoc]
    rfl

theorem inOrder_of_run {caller : Caller} {as : List Action} {s : ConnLoop}
    (hsent : ∀ a ∈ as, a.SentBy caller) (hrun : Transition.exec step initial as = some s) :
    s.InOrder caller := by
  have halong := (Transition.along_of_forall step (C := fun _ _ => True) (fun _ _ => trivial)
    initial as).and_forall step hsent
  exact Transition.exec_invariant_along (fun _ _ _ hi ha hs => InOrder.step hi ha.2 hs)
    (inOrder_initial caller) halong hrun

/-- The two parts of a run: until the last `Send` nothing is released, and after it a release waits
for the output. -/
theorem draining_of_run {caller : Caller} {before after : List Action} {s : ConnLoop}
    (hrun : Transition.exec step initial (before ++ after) = some s)
    (hsent : ∀ a ∈ before ++ after, a.SentBy caller) (hbefore : ∀ a ∈ before, a.NoShutdown)
    (hafter : ∀ a ∈ after, a.NoSend)
    (halong : Transition.Along step (Undisturbed caller) initial (before ++ after)) :
    s.Draining := by
  obtain ⟨hfirst, hsecond⟩ := (Transition.along_append step).mp halong
  rw [Transition.exec_append] at hrun
  obtain ⟨mid, hmid, hrun⟩ := Option.bind_eq_some_iff.mp hrun
  have hrunning : mid.Running :=
    Transition.exec_invariant_along (fun _ _ _ hi ha hs => Running.step hi ha.1 ha.2 hs)
      running_initial (hfirst.and_forall step hbefore) hmid
  have hordered : mid.InOrder caller :=
    inOrder_of_run (fun a ha => hsent a (List.mem_append_left _ ha)) hmid
  have hboth : s.InOrder caller ∧ s.Draining :=
    Transition.exec_invariant_along
      (I := fun s : ConnLoop => s.InOrder caller ∧ s.Draining)
      (C := fun s a => (s.Undisturbed caller a ∧ a.NoSend) ∧ a.SentBy caller)
      (fun _ _ _ hi ha hs =>
        ⟨hi.1.step ha.2 hs, hi.2.step hi.1 ha.1.1 ha.1.2 hs⟩)
      ⟨hordered, hrunning.draining⟩
      (((hsecond mid hmid).and_forall step hafter).and_forall step
        fun a ha => hsent a (List.mem_append_right _ ha)) hrun
  exact hboth.2

/-- **Output is in order, and complete when the connection is shut down.**  Over every run in which
one thread makes the calls: the bytes that the socket has accepted are a prefix of the data sent,
and while the socket is open the buffer and the tasks hold the rest; and if `Shutdown` is called
after the last `Send` and nothing disturbs the connection, the socket is closed only when it has
accepted all of it. -/
theorem output_in_order (caller : Caller) (as : List Action) (s : ConnLoop)
    (hrun : Transition.exec step initial as = some s) (hsent : ∀ a ∈ as, a.SentBy caller) :
    s.conn.socket.accepted <+: sentData as ∧
      (s.conn.socket.isOpen = true → s.conn.socket.accepted ++ s.owed = sentData as) ∧
      (∀ before after, as = before ++ after → (∀ a ∈ before, a.NoShutdown) →
        (∀ a ∈ after, a.NoSend) → Transition.Along step (Undisturbed caller) initial as →
        s.conn.socket.isOpen = false → s.conn.socket.accepted = sentData as) := by
  have hordered := inOrder_of_run hsent hrun
  have hdata : s.sent = sentData as := sent_exec hrun
  refine ⟨hdata ▸ hordered.accepted, fun hopen => hdata ▸ hordered.live hopen, ?_⟩
  rintro before after rfl hbefore hafter halong hclosed
  have hdraining := draining_of_run hrun hsent hbefore hafter halong
  exact hdata ▸ hdraining.released (Or.inr hclosed)

/-- Another thread sends five bytes and shuts the connection down; the socket takes them in two
parts. -/
def twoParts : List Action :=
  [.call (.other 0) .established, .call (.other 0) (.send [1, 2, 3, 4, 5]), .swap, .execute,
    .finish, .execute, .ready ⟨false, true, false, false, false, false⟩, .resume (.send (some 2)),
    .resume .nothing, .finish, .call (.other 0) .shutdown, .swap, .execute,
    .ready ⟨false, true, false, false, false, false⟩, .resume (.send (some 3)), .resume .nothing,
    .finish, .swap, .execute, .finish, .resume .nothing]

theorem output_in_order_twoParts :
    ∃ s, Transition.exec step initial twoParts = some s ∧ s.conn.socket.isOpen = false ∧
      s.conn.socket.accepted = sentData twoParts := by
  refine ⟨_, rfl, rfl, ?_⟩
  exact (output_in_order (.other 0) twoParts _ rfl (by simp [twoParts, Action.SentBy])).2.2
    (twoParts.take 10) (twoParts.drop 10) rfl (by simp [twoParts, Action.NoShutdown])
    (by simp [twoParts, Action.NoSend]) (by decide) rfl

end ConnLoop

end OnlineJudge.Muduo
