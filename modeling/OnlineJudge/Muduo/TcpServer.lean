/-
# `TcpServer` with one loop: whose `ReleaseInLoop` is in the queue

`TcpServer` (`net/muduo.hpp`) owns its connections: `_conns` holds a shared pointer to each, and
while a callback runs the function that calls it holds another.  `Release` queues a
`ReleaseInLoop` that has nothing but the raw pointer.  The first one that runs for a connection
closes it and takes it out of `_conns`, and with that the connection is gone; so a second one,
still in the queue, runs on memory that has been freed.

With one loop there is no other thread: an operation is called by the user's callbacks, and runs
at once.  What is queued is `ReleaseInLoop` and nothing else.

* `Owned`: the invariant, as long as each connection is released once.
* `release_finds_connection`: over every run in which no step releases a connection for the second
  time, every `ReleaseInLoop` in the queue finds its connection.
* `second_release_finds_nothing`: an ordinary reset by the peer reports two events, and each of
  them releases the connection.
-/
import Mathlib.Logic.Function.Basic
import OnlineJudge.Muduo.Output

namespace OnlineJudge.Muduo

/-! ## 1. The server

Ownership is what the model is about: who has a shared pointer to a connection, the map of the
server or a function that is running.  A pointer that is followed after the last owner is gone has
no next state. -/

/-- What is left to do on the stack: for a connection, or `NewConnection` from the insertion into
`_conns` on. -/
inductive Job
  | frame (frame : Frame)
  | insert
deriving DecidableEq, Repr

/-- Whether the function has a shared pointer to the connection: `conn` of `NewConnection`, or the
`conn_ptr` that is made for a callback. -/
def Job.holds : Job → Bool
  | .insert => true
  | .frame .user => true
  | .frame .serverClosed => true
  | .frame _ => false

/-- `TcpServer`.  `conns` are the objects by their ids, and `managed` the keys of `_conns`. -/
structure TcpServer where
  enableInactiveRelease : Bool
  nextId : Nat
  conns : Nat → Connection
  managed : List Nat
  stack : List (Nat × Job)
  tasks : List Nat
  functor : List Nat

/-- The atomic actions of the server's loop. -/
inductive ServerAction
  /-- A connection is accepted. -/
  | accept
  /-- `HandleEvent` of a channel is called. -/
  | ready (id : Nat) (revents : REvents)
  /-- What is on top of the stack runs. -/
  | resume (io : Io)
  /-- The user's callback takes bytes from the input buffer. -/
  | consume (len : Nat)
  /-- The user's callback returns. -/
  | finish
  /-- The user's callback calls an operation of its connection. -/
  | call (op : Op)
  /-- The timer wheel drops the task that it has for a connection. -/
  | expire (id : Nat)
  /-- The swap in `RunAllTask`. -/
  | swap
  /-- The next call in `RunAllTask`. -/
  | execute
deriving DecidableEq

namespace TcpServer

open Connection

/-- The server after its constructor. -/
def initial (enableInactiveRelease : Bool) : TcpServer where
  enableInactiveRelease := enableInactiveRelease
  nextId := 0
  conns _ := .new
  managed := []
  stack := []
  tasks := []
  functor := []

/-- The connections whose `ReleaseInLoop` has not been executed. -/
def queued (s : TcpServer) : List Nat := s.functor ++ s.tasks

/-- A shared pointer to the connection is left, in the map of the server or in a function that is
running. -/
def Exists (s : TcpServer) (id : Nat) : Prop :=
  id ∈ s.managed ∨ ∃ job ∈ s.stack, job.1 = id ∧ job.2.holds = true

instance (s : TcpServer) (id : Nat) : Decidable (s.Exists id) :=
  inferInstanceAs (Decidable (_ ∨ ∃ job ∈ s.stack, job.1 = id ∧ job.2.holds = true))

/-- The loop handles events. -/
def Idle (s : TcpServer) : Prop := s.stack = [] ∧ s.functor = []

instance (s : TcpServer) : Decidable s.Idle :=
  inferInstanceAs (Decidable (s.stack = [] ∧ s.functor = []))

/-- A function of a connection has run, over these jobs. -/
def apply (s : TcpServer) (id : Nat) (e : Effect) (rest : List (Nat × Job)) : TcpServer :=
  { s with
    conns := Function.update s.conns id e.conn
    stack := e.frames.map (fun frame => (id, .frame frame)) ++ rest
    tasks := if e.release then s.tasks ++ [id] else s.tasks }

/-- A connection before `Established`. -/
def newConnection (s : TcpServer) : Connection :=
  if s.enableInactiveRelease then Connection.new.enableInactiveReleaseInLoop else .new

/-- One action.  Where the pointer that is followed is to a connection that is gone, there is no
next state. -/
def step (s : TcpServer) : ServerAction → Option TcpServer
  | .accept =>
    if s.Idle then
      s.newConnection.establishedInLoop.map fun e =>
        { s with nextId := s.nextId + 1 }.apply (s.nextId + 1) e [(s.nextId + 1, .insert)]
    else none
  | .ready id revents =>
    if s.Idle ∧ (s.conns id).channel.registered = true ∧ s.Exists id then
      some { s with
        stack := (Channel.handleEvent revents).map fun frame => (id, .frame frame) }
    else none
  | .resume io =>
    match s.stack with
    | (id, .frame .serverClosed) :: rest =>
      -- `RemoveConnection`, in the thread of the loop
      ((s.conns id).resume .serverClosed io).map fun e =>
        { s with managed := s.managed.filter (· ≠ id) }.apply id e rest
    | (id, .frame frame) :: rest =>
      if (s.conns id).Possible io then
        ((s.conns id).resume frame io).map fun e => s.apply id e rest
      else none
    | (id, .insert) :: rest =>
      if io = .nothing then some { s with managed := id :: s.managed, stack := rest } else none
    | [] => none
  | .consume len =>
    match s.stack with
    | (id, .frame .user) :: _ =>
      let conn := s.conns id
      if len ≤ conn.inBuffer.length then
        some { s with
          conns := Function.update s.conns id { conn with inBuffer := conn.inBuffer.drop len } }
      else none
    | _ => none
  | .finish =>
    match s.stack with
    | (_, .frame .user) :: rest => some { s with stack := rest }
    | _ => none
  | .call op =>
    match s.stack with
    | (id, .frame .user) :: _ =>
      if op = .release then some { s with tasks := s.tasks ++ [id] }
      else ((s.conns id).inLoop op).map fun e => s.apply id e s.stack
    | _ => none
  | .expire id =>
    if s.Idle then
      let expired := { s.conns id with timer := .absent }
      match (s.conns id).timer with
      | .absent => none
      | .pending =>
        if s.Exists id then
          some { s with conns := Function.update s.conns id expired, tasks := s.tasks ++ [id] }
        else none
      | .canceled => some { s with conns := Function.update s.conns id expired }
    else none
  | .swap => if s.Idle then some { s with functor := s.tasks, tasks := [] } else none
  | .execute =>
    match s.stack, s.functor with
    | [], id :: functor =>
      if s.Exists id then
        some ({ s with functor := functor }.apply id (s.conns id).releaseInLoop [])
      else none
    | _, _ => none

end TcpServer

/-! ## 2. Who releases a connection

The condition on a step is read off the functions: each calls `Release` in certain cases, and these
are listed here. -/

namespace Connection

/-- Whether a frame calls `Release` when it runs. -/
def releases (conn : Connection) : Frame → Io → Bool
  | .handleRead, .recv none => true
  | .handleWrite, .send none => conn.inBuffer = [] ∨ conn.statu = .disconnected
  | .handleWrite, .send (some sent) =>
    conn.outBuffer.drop sent = [] ∧ conn.statu = .disconnecting
  | .handleError, .nothing => conn.inBuffer = [] ∨ conn.statu = .disconnected
  | .handleClose, .nothing => conn.inBuffer = [] ∨ conn.statu = .disconnected
  | .release, .nothing => true
  | .shutdownRest, .nothing => conn.outBuffer = []
  | _, _ => false

theorem release_handleClose (conn : Connection) :
    conn.handleClose.release = decide (conn.inBuffer = [] ∨ conn.statu = .disconnected) := by
  unfold handleClose
  split
  · rename_i h
    exact (decide_eq_false (by tauto)).symm
  · rename_i h
    exact (decide_eq_true (by tauto)).symm

theorem release_shutdownRest (conn : Connection) :
    conn.shutdownRest.release = decide (conn.outBuffer = []) := by
  unfold shutdownRest
  split
  · rename_i h
    split
    · exact (decide_eq_false h).symm
    · exact (decide_eq_false h).symm
  · rename_i h
    exact (decide_eq_true (not_not.mp h)).symm

/-- The condition is read off the functions. -/
theorem release_resume {conn : Connection} {frame : Frame} {io : Io} {e : Effect}
    (h : conn.resume frame io = some e) : e.release = conn.releases frame io := by
  unfold resume at h
  split at h
  · rename_i received
    obtain rfl := Option.some.inj h
    cases received with
    | none => rfl
    | some buf => exact (callsUser_handleRead conn buf).release
  · rename_i sent
    obtain rfl := Option.some.inj h
    cases sent with
    | none => exact release_handleClose conn
    | some ret =>
      simp only [handleWrite, releases]
      split
      · rename_i hempty
        simp [hempty]
      · rename_i hleft
        simp [hleft]
  · exact Option.some.inj h ▸ release_handleClose conn
  · exact Option.some.inj h ▸ release_handleClose conn
  · exact Option.some.inj h ▸ rfl
  · exact Option.some.inj h ▸ rfl
  · exact Option.some.inj h ▸ release_shutdownRest conn
  · exact Option.some.inj h ▸ rfl
  · cases h

theorem release_shutdownInLoop (conn : Connection) :
    conn.shutdownInLoop.release = decide (conn.inBuffer = [] ∧ conn.outBuffer = []) := by
  simp only [shutdownInLoop]
  split
  · rename_i h
    simp [h.1]
  · rename_i h
    rw [release_shutdownRest]
    have hempty : conn.inBuffer = [] := by
      by_contra hne
      exact h ⟨hne, by simp⟩
    simp [hempty]

end Connection

namespace TcpServer

open Connection

/-- The connection that an action calls `Release` of. -/
def releasing (s : TcpServer) : ServerAction → Option Nat
  | .resume io =>
    match s.stack with
    | (id, .frame frame) :: _ => if (s.conns id).releases frame io then some id else none
    | _ => none
  | .call op =>
    match s.stack with
    | (id, .frame .user) :: _ =>
      if op = .release ∨
          (op = .shutdown ∧ (s.conns id).inBuffer = [] ∧ (s.conns id).outBuffer = []) then some id
      else none
    | _ => none
  | .expire id => if (s.conns id).timer = .pending then some id else none
  | _ => none

/-- **The condition**: the connection has not been released before, neither is its `ReleaseInLoop`
in the queue nor has it closed the socket. -/
def FirstRelease (s : TcpServer) (a : ServerAction) : Prop :=
  ∀ id ∈ s.releasing a, id ∉ s.queued ∧ (s.conns id).socket.isOpen = true

instance (s : TcpServer) (a : ServerAction) : Decidable (s.FirstRelease a) :=
  inferInstanceAs (Decidable (∀ id ∈ s.releasing a, _ ∧ _))

/-! ## 3. What one action does

The inversion lemma.  A step that follows a pointer to nothing is not among them. -/

/-- Every way the actions move the server. -/
inductive Moves (s : TcpServer) : ServerAction → TcpServer → Prop
  | accept (e) (hidle : s.Idle) (he : s.newConnection.establishedInLoop = some e) :
      Moves s .accept ({ s with nextId := s.nextId + 1 }.apply (s.nextId + 1) e
        [(s.nextId + 1, .insert)])
  | ready (id revents) (hidle : s.Idle) (hexists : s.Exists id) :
      Moves s (.ready id revents)
        { s with stack := (Channel.handleEvent revents).map fun frame => (id, .frame frame) }
  | resume (io id frame rest e) (hstack : s.stack = (id, .frame frame) :: rest)
      (hframe : frame ≠ .serverClosed) (hio : (s.conns id).Possible io)
      (he : (s.conns id).resume frame io = some e) : Moves s (.resume io) (s.apply id e rest)
  | serverClosed (io id rest e) (hstack : s.stack = (id, .frame .serverClosed) :: rest)
      (he : (s.conns id).resume .serverClosed io = some e) :
      Moves s (.resume io)
        ({ s with managed := s.managed.filter (· ≠ id) }.apply id e rest)
  | insert (id rest) (hstack : s.stack = (id, .insert) :: rest) :
      Moves s (.resume .nothing) { s with managed := id :: s.managed, stack := rest }
  | consume (len id rest) (hstack : s.stack = (id, .frame .user) :: rest) :
      Moves s (.consume len) { s with
        conns := Function.update s.conns id
          { s.conns id with inBuffer := (s.conns id).inBuffer.drop len } }
  | finish (id rest) (hstack : s.stack = (id, .frame .user) :: rest) :
      Moves s .finish { s with stack := rest }
  | call (op id rest e) (hstack : s.stack = (id, .frame .user) :: rest) (hop : op ≠ .release)
      (he : (s.conns id).inLoop op = some e) : Moves s (.call op) (s.apply id e s.stack)
  | callRelease (id rest) (hstack : s.stack = (id, .frame .user) :: rest) :
      Moves s (.call .release) { s with tasks := s.tasks ++ [id] }
  | expire (id) (hidle : s.Idle) (htimer : (s.conns id).timer = .pending) (hexists : s.Exists id) :
      Moves s (.expire id) { s with
        conns := Function.update s.conns id { s.conns id with timer := .absent }
        tasks := s.tasks ++ [id] }
  | expireCanceled (id) (hidle : s.Idle) (htimer : (s.conns id).timer = .canceled) :
      Moves s (.expire id) { s with
        conns := Function.update s.conns id { s.conns id with timer := .absent } }
  | swap (hidle : s.Idle) : Moves s .swap { s with functor := s.tasks, tasks := [] }
  | execute (id functor) (hstack : s.stack = []) (hfunctor : s.functor = id :: functor)
      (hexists : s.Exists id) :
      Moves s .execute ({ s with functor := functor }.apply id (s.conns id).releaseInLoop [])

theorem step_moves {s s' : TcpServer} {a : ServerAction} (h : s.step a = some s') :
    s.Moves a s' := by
  cases a with
  | accept =>
    simp only [step] at h
    split at h
    · rename_i hidle
      obtain ⟨e, he, rfl⟩ := Option.map_eq_some_iff.mp h
      exact .accept e hidle he
    · cases h
  | ready id revents =>
    simp only [step] at h
    split at h
    · rename_i hready
      obtain rfl := Option.some.inj h
      exact .ready id revents hready.1 hready.2.2
    · cases h
  | resume io =>
    simp only [step] at h
    split at h
    · rename_i id rest hstack
      obtain ⟨e, he, rfl⟩ := Option.map_eq_some_iff.mp h
      exact .serverClosed io id rest e hstack he
    · rename_i id frame rest hframe hstack
      split at h
      · rename_i hio
        obtain ⟨e, he, rfl⟩ := Option.map_eq_some_iff.mp h
        exact .resume io id frame rest e hstack (fun hclosed => hframe hclosed) hio he
      · cases h
    · rename_i id rest hstack
      split at h
      · rename_i hio
        obtain rfl := Option.some.inj h
        exact hio ▸ .insert id rest hstack
      · cases h
    · cases h
  | consume len =>
    simp only [step] at h
    split at h
    · rename_i id rest hstack
      split at h
      · obtain rfl := Option.some.inj h
        exact .consume len id rest hstack
      · cases h
    · cases h
  | finish =>
    simp only [step] at h
    split at h
    · rename_i id rest hstack
      obtain rfl := Option.some.inj h
      exact .finish id rest hstack
    · cases h
  | call op =>
    simp only [step] at h
    split at h
    · rename_i id rest hstack
      split at h
      · rename_i hop
        obtain rfl := Option.some.inj h
        exact hop ▸ .callRelease id rest hstack
      · rename_i hop
        obtain ⟨e, he, rfl⟩ := Option.map_eq_some_iff.mp h
        exact .call op id rest e hstack hop he
    · cases h
  | expire id =>
    simp only [step] at h
    split at h
    · rename_i hidle
      split at h
      · cases h
      · rename_i htimer
        split at h
        · rename_i hexists
          obtain rfl := Option.some.inj h
          exact .expire id hidle htimer hexists
        · cases h
      · rename_i htimer
        obtain rfl := Option.some.inj h
        exact .expireCanceled id hidle htimer
    · cases h
  | swap =>
    simp only [step] at h
    split at h
    · rename_i hidle
      obtain rfl := Option.some.inj h
      exact .swap hidle
    · cases h
  | execute =>
    simp only [step] at h
    split at h
    · rename_i id functor hstack hfunctor
      split at h
      · rename_i hexists
        obtain rfl := Option.some.inj h
        exact .execute id functor hstack hfunctor hexists
      · cases h
    · cases h

/-! ## 4. The invariant

While a connection is in the queue its socket is open, and while its socket is open somebody owns
it.  The two together are what a task needs that has the raw pointer only. -/

/-- The id has been given to a connection. -/
def Known (s : TcpServer) (id : Nat) : Prop := 0 < id ∧ id ≤ s.nextId

/-- A connection with an open socket is owned by the server, or by the `NewConnection` that is
running; and the queue has one `ReleaseInLoop` for a connection at most, with the socket open. -/
structure Owned (s : TcpServer) : Prop where
  once : s.queued.Nodup
  queued : ∀ id ∈ s.queued, s.Known id ∧ (s.conns id).socket.isOpen = true
  owner : ∀ id, s.Known id → (s.conns id).socket.isOpen = true →
    id ∈ s.managed ∨ (id, .insert) ∈ s.stack
  managed : ∀ id ∈ s.managed, s.Known id
  stack : ∀ job ∈ s.stack, s.Known job.1
  closing : ∀ id, (id, .frame .serverClosed) ∈ s.stack → (s.conns id).socket.isOpen = false
  fresh : ∀ id, s.nextId < id → s.conns id = .new

theorem owned_initial (enableInactiveRelease : Bool) : (initial enableInactiveRelease).Owned where
  once := List.nodup_nil
  queued := nofun
  owner _ hknown := absurd hknown.2 (Nat.not_le.mpr hknown.1)
  managed := nofun
  stack := nofun
  closing := nofun
  fresh _ _ := rfl

theorem Owned.known_of_exists {s : TcpServer} (h : s.Owned) {id : Nat} (hexists : s.Exists id) :
    s.Known id := by
  rcases hexists with hmem | ⟨job, hmem, rfl, -⟩
  · exact h.managed id hmem
  · exact h.stack job hmem

/-- What is queued has an owner, when no function is running. -/
theorem Owned.exists {s : TcpServer} (h : s.Owned) {id : Nat} (hmem : id ∈ s.queued) :
    s.Exists id := by
  obtain ⟨hknown, hopen⟩ := h.queued id hmem
  rcases h.owner id hknown hopen with hmanaged | hinsert
  · exact Or.inl hmanaged
  · exact Or.inr ⟨_, hinsert, rfl, rfl⟩

theorem conns_apply_self (s : TcpServer) (id : Nat) (e : Effect) (rest : List (Nat × Job)) :
    (s.apply id e rest).conns id = e.conn := Function.update_self _ _ _

theorem conns_apply_of_ne (s : TcpServer) {id id' : Nat} (hid : id' ≠ id) (e : Effect)
    (rest : List (Nat × Job)) : (s.apply id e rest).conns id' = s.conns id' :=
  Function.update_of_ne hid _ _

theorem queued_apply (s : TcpServer) (id : Nat) (e : Effect) (rest : List (Nat × Job)) :
    (s.apply id e rest).queued = if e.release then s.queued ++ [id] else s.queued := by
  simp only [apply, queued]
  split
  · rw [List.append_assoc]
  · rfl

/-- A connection that is released for the first time is a new entry of the queue. -/
theorem nodup_queue {l : List Nat} {id : Nat} (h : l.Nodup) (hid : id ∉ l) :
    (l ++ [id]).Nodup := by
  rw [List.nodup_append]
  refine ⟨h, List.nodup_singleton id, fun a ha b hb hab => ?_⟩
  rw [List.mem_singleton] at hb
  exact hid (hb ▸ hab ▸ ha)

/-- The effect of a function of a connection that is known. -/
theorem Owned.apply {s : TcpServer} {id : Nat} {e : Effect} {rest : List (Nat × Job)}
    (h : s.Owned) (hknown : s.Known id) (hrest : rest ⊆ s.stack)
    (hinsert : ∀ id', (id', .insert) ∈ s.stack → (id', .insert) ∈ rest)
    (hopen : e.conn.socket.isOpen = true → (s.conns id).socket.isOpen = true)
    (hqueued : id ∈ s.queued ∨ e.release = true → e.conn.socket.isOpen = true)
    (hrelease : e.release = true → id ∉ s.queued)
    (hframes : .serverClosed ∈ e.frames → e.conn.socket.isOpen = false) :
    (s.apply id e rest).Owned := by
  have hconns : ∀ id', ((s.apply id e rest).conns id').socket.isOpen = true →
      (s.conns id').socket.isOpen = true := by
    intro id' hopen'
    by_cases hid : id' = id
    · subst hid
      rw [conns_apply_self] at hopen'
      exact hopen hopen'
    · rwa [conns_apply_of_ne s hid] at hopen'
  refine ⟨?_, fun id' hmem => ?_, fun id' hknown' hopen' => ?_, h.managed, fun job hmem => ?_,
    fun id' hmem => ?_, fun id' hfresh => ?_⟩
  · rw [queued_apply]
    split
    · rename_i hr
      exact nodup_queue h.once (hrelease hr)
    · exact h.once
  · have hcases : id' ∈ s.queued ∨ (e.release = true ∧ id' = id) := by
      rw [queued_apply] at hmem
      split at hmem
      · rename_i hr
        rcases List.mem_append.mp hmem with hmem | hmem
        · exact Or.inl hmem
        · exact Or.inr ⟨hr, List.mem_singleton.mp hmem⟩
      · exact Or.inl hmem
    by_cases hid : id' = id
    · subst hid
      rw [conns_apply_self]
      exact ⟨hknown, hqueued (hcases.imp id And.left)⟩
    · rw [conns_apply_of_ne s hid]
      exact h.queued id' (hcases.resolve_right fun hr => hid hr.2)
  · rcases h.owner id' hknown' (hconns id' hopen') with hmanaged | hinsert'
    · exact Or.inl hmanaged
    · exact Or.inr (List.mem_append_right _ (hinsert id' hinsert'))
  · rcases List.mem_append.mp hmem with hmem | hmem
    · obtain ⟨frame, -, rfl⟩ := List.mem_map.mp hmem
      exact hknown
    · exact h.stack job (hrest hmem)
  · rcases List.mem_append.mp hmem with hmem | hmem
    · obtain ⟨frame, hframe, heq⟩ := List.mem_map.mp hmem
      obtain ⟨rfl, hframe'⟩ := Prod.mk.inj heq
      obtain rfl := Job.frame.inj hframe'
      rw [conns_apply_self]
      exact hframes hframe
    · have hclosed := h.closing id' (hrest hmem)
      by_contra hopen'
      rw [hconns id' (by simpa using hopen')] at hclosed
      cases hclosed
  · have hid : id' ≠ id := by
      rintro rfl
      exact absurd hknown.2 (Nat.not_le.mpr hfresh)
    rw [conns_apply_of_ne s hid]
    exact h.fresh id' hfresh

theorem Owned.update {s : TcpServer} (h : s.Owned) {id : Nat} {conn : Connection}
    (hid : id ≤ s.nextId) (hopen : conn.socket.isOpen = (s.conns id).socket.isOpen) :
    ({ s with conns := Function.update s.conns id conn } : TcpServer).Owned := by
  have hconns : ∀ id', (Function.update s.conns id conn id').socket.isOpen =
      (s.conns id').socket.isOpen := by
    intro id'
    by_cases heq : id' = id
    · subst heq
      rw [Function.update_self, hopen]
    · rw [Function.update_of_ne heq]
  refine ⟨h.once, fun id' hmem => ?_, fun id' hknown hopen' => ?_, h.managed, h.stack,
    fun id' hmem => (hconns id').trans (h.closing id' hmem), fun id' hfresh => ?_⟩
  · exact ⟨(h.queued id' hmem).1, (hconns id').trans (h.queued id' hmem).2⟩
  · exact h.owner id' hknown ((hconns id').symm.trans hopen')
  · have hne : id' ≠ id := by
      rintro rfl
      exact absurd hid (Nat.not_le.mpr hfresh)
    exact (Function.update_of_ne hne _ _).trans (h.fresh id' hfresh)

/-- A `ReleaseInLoop` is queued, the first one for its connection. -/
theorem Owned.queue {s : TcpServer} (h : s.Owned) {id : Nat} (hknown : s.Known id)
    (hfirst : id ∉ s.queued ∧ (s.conns id).socket.isOpen = true) :
    ({ s with tasks := s.tasks ++ [id] } : TcpServer).Owned := by
  have hqueued : ({ s with tasks := s.tasks ++ [id] } : TcpServer).queued = s.queued ++ [id] := by
    simp only [TcpServer.queued, List.append_assoc]
  refine ⟨?_, fun id' hmem => ?_, h.owner, h.managed, h.stack, h.closing, h.fresh⟩
  · rw [hqueued]
    exact nodup_queue h.once hfirst.1
  · rw [hqueued] at hmem
    rcases List.mem_append.mp hmem with hmem | hmem
    · exact h.queued id' hmem
    · rw [List.mem_singleton.mp hmem]
      exact ⟨hknown, hfirst.2⟩

/-- The rest of a `NewConnection` stays when something else is taken from the stack. -/
theorem insert_mem_rest {s : TcpServer} {job : Nat × Job} {rest : List (Nat × Job)} {id : Nat}
    (hstack : s.stack = job :: rest) (hjob : job.2 ≠ .insert) (hmem : (id, .insert) ∈ s.stack) :
    (id, .insert) ∈ rest := by
  rw [hstack] at hmem
  rcases List.mem_cons.mp hmem with heq | hmem
  · exact absurd (congrArg Prod.snd heq).symm hjob
  · exact hmem

/-- Something is taken from the stack that is not the rest of a `NewConnection`. -/
theorem Owned.pop {s : TcpServer} (h : s.Owned) {job : Nat × Job} {rest : List (Nat × Job)}
    (hstack : s.stack = job :: rest) (hjob : job.2 ≠ .insert) :
    ({ s with stack := rest } : TcpServer).Owned := by
  have hsub : rest ⊆ s.stack := hstack ▸ List.subset_cons_self job rest
  refine ⟨h.once, h.queued, fun id hknown hopen => ?_, h.managed,
    fun job hmem => h.stack job (hsub hmem), fun id hmem => h.closing id (hsub hmem), h.fresh⟩
  exact (h.owner id hknown hopen).imp_right (insert_mem_rest hstack hjob)

/-- The effect of a function that leaves the socket as it is. -/
theorem Owned.apply_of_isOpen {s : TcpServer} {id : Nat} {e : Effect} {rest : List (Nat × Job)}
    (h : s.Owned) (hknown : s.Known id) (hrest : rest ⊆ s.stack)
    (hinsert : ∀ id', (id', .insert) ∈ s.stack → (id', .insert) ∈ rest)
    (hopen : e.conn.socket.isOpen = (s.conns id).socket.isOpen)
    (hfirst : e.release = true → id ∉ s.queued ∧ (s.conns id).socket.isOpen = true)
    (hframes : .serverClosed ∉ e.frames) : (s.apply id e rest).Owned := by
  refine h.apply hknown hrest hinsert (fun h' => hopen.symm.trans h') ?_
    (fun hr => (hfirst hr).1) (fun hmem => absurd hmem hframes)
  rintro (hmem | hr)
  · exact hopen.trans (h.queued id hmem).2
  · exact hopen.trans (hfirst hr).2

/-- `ReleaseInLoop` goes on to the server's callback only with the socket closed. -/
theorem closed_of_releaseInLoop {conn : Connection}
    (h : .serverClosed ∈ conn.releaseInLoop.frames) :
    conn.releaseInLoop.conn.socket.isOpen = false := by
  by_cases hgone : conn.statu = .disconnected
  · simp [releaseInLoop, hgone] at h
  · simp only [releaseInLoop, if_neg hgone]
    split
    · rfl
    · rfl

theorem serverClosed_notMem_inLoop {conn : Connection} {op : Op} {e : Effect}
    (he : conn.inLoop op = some e) (hop : op ≠ .release) : .serverClosed ∉ e.frames := by
  by_cases hshutdown : op = .shutdown
  · subst hshutdown
    obtain rfl := Option.some.inj he
    simp only [shutdownInLoop, shutdownRest]
    split_ifs <;> simp
  · intro hmem
    cases (callsUser_inLoop he hshutdown hop).frames _ hmem

/-- An operation other than `Release` releases the connection when it is a `Shutdown` with both
buffers empty. -/
theorem release_inLoop {conn : Connection} {op : Op} {e : Effect} (he : conn.inLoop op = some e)
    (hop : op ≠ .release) (hr : e.release = true) :
    op = .shutdown ∧ conn.inBuffer = [] ∧ conn.outBuffer = [] := by
  by_cases hshutdown : op = .shutdown
  · subst hshutdown
    obtain rfl := Option.some.inj he
    rw [release_shutdownInLoop] at hr
    exact ⟨rfl, of_decide_eq_true hr⟩
  · rw [(callsUser_inLoop he hshutdown hop).release] at hr
    cases hr

theorem Owned.accept {s : TcpServer} (h : s.Owned) (hidle : s.Idle) {e : Effect}
    (he : s.newConnection.establishedInLoop = some e) :
    ({ s with nextId := s.nextId + 1 }.apply (s.nextId + 1) e
      [(s.nextId + 1, .insert)]).Owned := by
  have hmid : ({ s with
      nextId := s.nextId + 1, stack := [(s.nextId + 1, .insert)] } : TcpServer).Owned := by
    have hlater : ∀ id, s.Known id → 0 < id ∧ id ≤ s.nextId + 1 :=
      fun id hknown => ⟨hknown.1, Nat.le_succ_of_le hknown.2⟩
    refine ⟨h.once, fun id hmem => ⟨hlater id (h.queued id hmem).1, (h.queued id hmem).2⟩,
      fun id hknown hopen => ?_, fun id hmem => hlater id (h.managed id hmem), fun job hmem => ?_,
      fun id hmem => ?_, fun id hfresh => h.fresh id (Nat.lt_of_succ_lt hfresh)⟩
    · by_cases hid : id = s.nextId + 1
      · exact Or.inr (List.mem_singleton.mpr (by rw [hid]))
      · have hold : s.Known id := ⟨hknown.1, Nat.le_of_lt_succ (lt_of_le_of_ne hknown.2 hid)⟩
        rcases h.owner id hold hopen with hmanaged | hinsert
        · exact Or.inl hmanaged
        · rw [hidle.1] at hinsert
          cases hinsert
    · rw [List.mem_singleton.mp hmem]
      exact ⟨Nat.succ_pos _, Nat.le_refl _⟩
    · cases List.mem_singleton.mp hmem
  have heffect : e.frames = [.user] ∧ e.release = false := by
    simp only [establishedInLoop] at he
    split at he
    · exact Option.some.inj he ▸ ⟨rfl, rfl⟩
    · cases he
  have hfresh : s.nextId + 1 ∉ s.queued := by
    intro hmem
    exact absurd (h.queued _ hmem).1.2 (Nat.not_le.mpr (Nat.lt_succ_self _))
  have hnew : ({ s with
      nextId := s.nextId + 1
      stack := [(s.nextId + 1, .insert)] } : TcpServer).Known (s.nextId + 1) :=
    ⟨Nat.succ_pos _, Nat.le_refl _⟩
  refine hmid.apply hnew (List.Subset.refl _)
    (fun _ hmem => hmem) (fun _ => ?_) ?_ (fun hr => ?_) ?_
  · rw [h.fresh _ (Nat.lt_succ_self _)]
    rfl
  · rintro (hmem | hr)
    · exact absurd hmem hfresh
    · rw [heffect.2] at hr
      cases hr
  · rw [heffect.2] at hr
    cases hr
  · rw [heffect.1]
    simp

theorem Owned.ready {s : TcpServer} (h : s.Owned) {id : Nat} (hidle : s.Idle)
    (hexists : s.Exists id) (revents : REvents) :
    ({ s with
      stack := (Channel.handleEvent revents).map fun frame => (id, .frame frame) } :
        TcpServer).Owned := by
  refine ⟨h.once, h.queued, fun id' hknown hopen => ?_, h.managed, fun job hmem => ?_,
    fun id' hmem => ?_, h.fresh⟩
  · rcases h.owner id' hknown hopen with hmanaged | hinsert
    · exact Or.inl hmanaged
    · rw [hidle.1] at hinsert
      cases hinsert
  · obtain ⟨frame, -, rfl⟩ := List.mem_map.mp hmem
    exact h.known_of_exists hexists
  · obtain ⟨frame, hframe, heq⟩ := List.mem_map.mp hmem
    obtain rfl := Job.frame.inj (Prod.mk.inj heq).2
    exact absurd hframe (ConnLoop.serverClosed_notMem_handleEvent revents)

/-- The server drops a connection whose socket is closed. -/
theorem Owned.erase {s : TcpServer} (h : s.Owned) {id : Nat}
    (hclosed : (s.conns id).socket.isOpen = false) :
    ({ s with managed := s.managed.filter (· ≠ id) } : TcpServer).Owned := by
  refine ⟨h.once, h.queued, fun id' hknown hopen => ?_,
    fun id' hmem => h.managed id' (List.mem_of_mem_filter hmem), h.stack, h.closing, h.fresh⟩
  have hne : id' ≠ id := by
    rintro rfl
    rw [hclosed] at hopen
    cases hopen
  refine (h.owner id' hknown hopen).imp_left fun hmanaged => ?_
  exact List.mem_filter.mpr ⟨hmanaged, decide_eq_true hne⟩

/-- The rest of a `NewConnection`: the server becomes the owner. -/
theorem Owned.insert {s : TcpServer} (h : s.Owned) {id : Nat} {rest : List (Nat × Job)}
    (hstack : s.stack = (id, .insert) :: rest) :
    ({ s with managed := id :: s.managed, stack := rest } : TcpServer).Owned := by
  have hsub : rest ⊆ s.stack := hstack ▸ List.subset_cons_self _ _
  refine ⟨h.once, h.queued, fun id' hknown hopen => ?_, fun id' hmem => ?_,
    fun job hmem => h.stack job (hsub hmem), fun id' hmem => h.closing id' (hsub hmem), h.fresh⟩
  · rcases h.owner id' hknown hopen with hmanaged | hinsert
    · exact Or.inl (List.mem_cons_of_mem _ hmanaged)
    · rw [hstack] at hinsert
      rcases List.mem_cons.mp hinsert with heq | hmem
      · rw [(Prod.mk.inj heq).1]
        exact Or.inl List.mem_cons_self
      · exact Or.inr hmem
  · rcases List.mem_cons.mp hmem with rfl | hmem
    · exact h.stack _ (hstack ▸ List.mem_cons_self)
    · exact h.managed id' hmem

theorem Owned.swap {s : TcpServer} (h : s.Owned) (hidle : s.Idle) :
    ({ s with functor := s.tasks, tasks := [] } : TcpServer).Owned := by
  have hqueued : ({ s with functor := s.tasks, tasks := [] } : TcpServer).queued = s.queued := by
    simp [TcpServer.queued, hidle.2]
  exact ⟨hqueued ▸ h.once, hqueued ▸ h.queued, h.owner, h.managed, h.stack, h.closing, h.fresh⟩

/-- The next `ReleaseInLoop` runs: it is out of the queue, and no second one is behind it. -/
theorem Owned.execute {s : TcpServer} (h : s.Owned) {id : Nat} {functor : List Nat}
    (hstack : s.stack = []) (hfunctor : s.functor = id :: functor) :
    ({ s with functor := functor }.apply id (s.conns id).releaseInLoop []).Owned := by
  have hqueued : s.queued = id :: ({ s with functor := functor } : TcpServer).queued := by
    simp [TcpServer.queued, hfunctor]
  have honce := h.once
  rw [hqueued] at honce
  have hmid : ({ s with functor := functor } : TcpServer).Owned :=
    ⟨(List.nodup_cons.mp honce).2,
      fun id' hmem => h.queued id' (hqueued ▸ List.mem_cons_of_mem _ hmem), h.owner, h.managed,
      h.stack, h.closing, h.fresh⟩
  obtain ⟨hknown, hopen⟩ := h.queued id (hqueued ▸ List.mem_cons_self)
  obtain ⟨-, hnone, -⟩ := ConnLoop.releaseInLoop_spec (s.conns id)
  refine hmid.apply hknown (List.nil_subset _) (fun id' hmem => ?_) (fun _ => hopen) ?_
    (fun hr => ?_) closed_of_releaseInLoop
  · rw [show s.stack = [] from hstack] at hmem
    cases hmem
  · rintro (hmem | hr)
    · exact absurd hmem (List.nodup_cons.mp honce).1
    · rw [hnone] at hr
      cases hr
  · rw [hnone] at hr
    cases hr

/-- **The step lemma**, with the condition that the step releases a connection for the first time
only. -/
theorem Owned.step {s s' : TcpServer} {a : ServerAction} (h : s.Owned) (ha : s.FirstRelease a)
    (hs : s.step a = some s') : s'.Owned := by
  cases step_moves hs with
  | accept e hidle he => exact h.accept hidle he
  | ready id revents hidle hexists => exact h.ready hidle hexists revents
  | resume io id frame rest e hstack hframe hio he =>
    have hfirst : e.release = true → id ∉ s.queued ∧ (s.conns id).socket.isOpen = true := by
      intro hr
      rw [release_resume he] at hr
      exact ha id (by simp [releasing, hstack, hr])
    exact h.apply_of_isOpen (h.stack _ (hstack ▸ List.mem_cons_self))
      (hstack ▸ List.subset_cons_self _ _)
      (fun _ => insert_mem_rest hstack Job.noConfusion) (sameOutput_resume hio he).isOpen hfirst
      (sameLife_resume he hframe).frames
  | serverClosed io id rest e hstack he =>
    have hmem : (id, .frame .serverClosed) ∈ s.stack := hstack ▸ List.mem_cons_self
    cases io with
    | nothing =>
      obtain rfl := Option.some.inj he
      exact (h.erase (h.closing id hmem)).apply_of_isOpen (h.stack _ hmem)
        (hstack ▸ List.subset_cons_self _ _)
        (fun _ => insert_mem_rest hstack Job.noConfusion) rfl
        Bool.noConfusion List.not_mem_nil
    | recv | send => cases he
  | insert id rest hstack => exact h.insert hstack
  | consume len id rest hstack => exact h.update (h.stack _ (hstack ▸ List.mem_cons_self)).2 rfl
  | finish id rest hstack => exact h.pop hstack Job.noConfusion
  | call op id rest e hstack hop he =>
    have hopen : e.conn.socket.isOpen = (s.conns id).socket.isOpen := by
      rw [(output_inLoop he hop).1]
    have hfirst : e.release = true → id ∉ s.queued ∧ (s.conns id).socket.isOpen = true := by
      intro hr
      exact ha id (by simp [releasing, hstack, release_inLoop he hop hr])
    exact h.apply_of_isOpen (h.stack _ (hstack ▸ List.mem_cons_self)) (List.Subset.refl _)
      (fun _ hmem => hmem) hopen hfirst (serverClosed_notMem_inLoop he hop)
  | callRelease id rest hstack =>
    exact h.queue (h.stack _ (hstack ▸ List.mem_cons_self)) (ha id (by simp [releasing, hstack]))
  | expire id hidle htimer hexists =>
    have hknown := h.known_of_exists hexists
    have hfirst := ha id (by simp [releasing, htimer])
    have hopen : ({ s.conns id with timer := .absent } : Connection).socket.isOpen =
        (s.conns id).socket.isOpen := rfl
    have hmid := h.update hknown.2 hopen
    refine hmid.queue hknown ⟨hfirst.1, ?_⟩
    exact (congrArg (fun conn : Connection => conn.socket.isOpen)
      (Function.update_self id _ s.conns)).trans hfirst.2
  | expireCanceled id hidle htimer =>
    refine h.update ?_ rfl
    by_contra hlt
    rw [h.fresh id (Nat.not_le.mp hlt)] at htimer
    cases htimer
  | swap hidle => exact h.swap hidle
  | execute id functor hstack hfunctor hexists => exact h.execute hstack hfunctor

/-! ## 5. Over every run

By the rule for runs under a condition on the steps. -/

/-- **Every `ReleaseInLoop` finds its connection**, in every run in which each connection is
released once.  The task has a raw pointer; what it points to is still there, as the map of the
server or a running function has a shared one. -/
theorem release_finds_connection (enableInactiveRelease : Bool) (as : List ServerAction)
    (s : TcpServer) (hrun : Transition.exec step (initial enableInactiveRelease) as = some s)
    (hfirst : Transition.Along step FirstRelease (initial enableInactiveRelease) as) :
    ∀ id ∈ s.queued, s.Exists id := by
  have howned : s.Owned := Transition.exec_invariant_along
    (fun _ _ _ hi ha hs => Owned.step hi ha hs) (owned_initial enableInactiveRelease) hfirst hrun
  exact fun id hmem => howned.exists hmem

/-- A connection is accepted, the peer closes it, and `ReleaseInLoop` is about to be called. -/
def peerCloses : List ServerAction :=
  [.accept, .finish, .resume .nothing, .ready 1 ⟨true, false, false, false, true, false⟩,
    .resume (.recv none), .resume .nothing, .finish, .swap]

theorem release_finds_connection_peerCloses :
    ∃ s, Transition.exec step (initial true) peerCloses = some s ∧ s.functor = [1] ∧
      s.Exists 1 := by
  refine ⟨_, rfl, rfl, ?_⟩
  exact release_finds_connection true peerCloses _ rfl (by decide) 1 (by decide)

/-- The peer resets the connection: `EPOLLIN`, which was asked for, and `EPOLLERR` and `EPOLLHUP`,
which are always reported, come together, and `recv` fails. -/
def peerResets : List ServerAction :=
  [.accept, .finish, .resume .nothing, .ready 1 ⟨true, false, true, true, false, false⟩,
    .resume (.recv none), .resume .nothing, .resume .nothing, .finish, .swap, .execute, .finish,
    .resume .nothing]

/-- `HandleRead` and `HandleError` have each queued a `ReleaseInLoop`; the second is called when the
first has released the connection. -/
theorem second_release_finds_nothing :
    ∃ s, Transition.exec step (initial true) peerResets = some s ∧ s.stack = [] ∧
      s.functor = [1] ∧ ¬ s.Exists 1 :=
  ⟨_, rfl, rfl, rfl, by decide⟩

end TcpServer

end OnlineJudge.Muduo
