/-
# The connection pool

`MySqlPool` (`mysql_pool.cpp`) hands out database connections, at most `max_connections` at a
time, wrapped in handles (`PooledMySqlConnection`) that give them back.  `Acquire` drops the lock
to ping an idle connection or to connect, and takes it again when that fails; any number of
threads are in it at once, and `Release`, the handles and `Shutdown` run in between.

Every stretch of code that runs under the lock is one action, and so is every call of the client
library that runs outside it.  What the library answers (a ping, a connect) is a label of the
action.  A `MYSQL*` is identified by the number of its creation.

* Section 3, `pool_conserves`: until shutdown `total_` counts exactly the connections that are
  idle, owned by a handle, or in transit in an `Acquire`; it stays within `max_connections`; and
  no connection is in two of these places.
* Section 4, `closed_exactly_once`: no connection is closed twice or used after it is closed, and
  none is left open once the pool is shut down, the handles are gone and no `Acquire` is running.
-/
import Mathlib.Data.List.Nodup
import OnlineJudge.Lib.Counting
import OnlineJudge.Lib.Transition

namespace OnlineJudge.Db

open Counting

/-! ## 1. The system

A call of `Acquire` is where it is in its text.  Between two of its actions any other action may
come, which is what the lock leaves open; within an action nothing does. -/

/-- A `MYSQL*`, by the number of its creation.  Numbers are not used again, while an address may be.
-/
abbrev Conn := Nat

/-- Where a call of `Acquire` is.  It gives the lock up between two of these places, and the other
threads work on the pool there. -/
inductive AcquireCall
  /-- about to take the lock, at the start or for the retry -/
  | locking
  /-- in `cv_.wait` -/
  | waiting
  /-- has popped this connection and pings it -/
  | pinging (c : Conn)
  /-- has closed this dead connection, about to take the lock -/
  | dropping (c : Conn)
  /-- in `CreateConnection` -/
  | connecting
  /-- in the `catch` block, about to take the lock -/
  | failing
  /-- has returned or thrown -/
  | ended
deriving DecidableEq, Repr

namespace AcquireCall

/-- The next thing is a look at the pool under the lock. -/
def atLock : AcquireCall → Bool
  | locking | waiting => true
  | _ => false

/-- The call has a connection that `total_` counts, or is making one. -/
def inTransit : AcquireCall → Bool
  | pinging _ | dropping _ | connecting | failing => true
  | _ => false

/-- The connection the call has. -/
def holds (c : Conn) : AcquireCall → Bool
  | pinging d | dropping d => d == c
  | _ => false

end AcquireCall

/-- What happens to connections.  The log of these is what the statement about closing is read off.
-/
inductive ConnEvent
  | init (c : Conn)
  | handOut (c : Conn)
  | ping (c : Conn)
  | close (c : Conn)
deriving DecidableEq, Repr

/-- What `CreateConnection` comes to. -/
inductive ConnectResult
  | initFailed
  | connectFailed
  | connected
deriving DecidableEq, Repr

/-- `MySqlPool`, with the handles and the calls of `Acquire` there have been.  A handle is its
`conn_`; `pool_` is null exactly when that is. -/
structure MySqlPool where
  maxConnections : UInt64
  total : UInt64
  /-- front first -/
  idle : List Conn
  shutdown : Bool
  handles : List (Option Conn)
  calls : List AcquireCall
  /-- how many connections have been created -/
  created : Nat
  /-- what has happened to them, in order -/
  log : List ConnEvent
deriving DecidableEq, Repr

/-- One action: what a thread does under the lock, or an operation on a handle, or the answer of the
server to a ping or an attempt to connect. -/
inductive PoolAction
  | acquire
  | lock (i : Nat)
  | ping (i : Nat) (alive : Bool)
  | drop (i : Nat)
  | connect (i : Nat) (result : ConnectResult)
  | undo (i : Nat)
  | construct
  | moveConstruct (src : Nat)
  | moveAssign (dst src : Nat) (alive : Bool)
  | destroy (h : Nat) (alive : Bool)
  | shutdown
deriving DecidableEq, Repr

namespace MySqlPool

/-- `MySqlPool(cfg)`. -/
def new (maxConnections : UInt64) : MySqlPool where
  maxConnections := if maxConnections = 0 then 1 else maxConnections
  total := 0
  idle := []
  shutdown := false
  handles := []
  calls := []
  created := 0
  log := []

def setCall (p : MySqlPool) (i : Nat) (call : AcquireCall) : MySqlPool :=
  { p with calls := p.calls.set i call }

def record (p : MySqlPool) (e : ConnEvent) : MySqlPool := { p with log := p.log ++ [e] }

/-- A call of `Acquire` returns, with a new handle for the connection. -/
def handOut (p : MySqlPool) (i : Nat) (c : Conn) : MySqlPool :=
  { (p.setCall i .ended).record (.handOut c) with handles := p.handles ++ [some c] }

/-- `mysql_init`. -/
def init (p : MySqlPool) : MySqlPool := { p.record (.init p.created) with created := p.created + 1 }

/-- The first lock section of `Acquire`, from the head or from `cv_.wait` on. -/
def acquireLocked (p : MySqlPool) (i : Nat) : MySqlPool :=
  if p.shutdown then p.setCall i .ended
  else
    match p.idle with
    | c :: rest => { p.setCall i (.pinging c) with idle := rest }
    | [] =>
      if p.total ≥ p.maxConnections then p.setCall i .waiting
      else { p.setCall i .connecting with total := p.total + 1 }

/-- `Release(conn)`.  The connection is pinged under the lock, and is put back, or closed if the
pool is shut down or the ping fails. -/
def release (p : MySqlPool) (c : Conn) (alive : Bool) : MySqlPool :=
  if p.shutdown then p.record (.close c)
  else if alive then { p.record (.ping c) with idle := p.idle ++ [c] }
  else
    { (p.record (.ping c)).record (.close c) with
      total := if p.total > 0 then p.total - 1 else p.total }

/-- `PooledMySqlConnection::Release`. -/
def releaseHandle (p : MySqlPool) (h : Nat) (alive : Bool) : MySqlPool :=
  match p.handles[h]? with
  | some (some c) => { p with handles := p.handles.set h none }.release c alive
  | _ => p

/-- `Shutdown`: the idle connections are closed and the counter is set to zero.  Connections in
handles are closed when these give them back. -/
def shutdownLocked (p : MySqlPool) : MySqlPool :=
  if p.shutdown then p
  else { p with shutdown := true, idle := [], log := p.log ++ p.idle.map .close, total := 0 }

/-- The actions.  One that does not fit the place of its call is none. -/
def step (p : MySqlPool) : PoolAction → Option MySqlPool
  | .acquire => some { p with calls := p.calls ++ [.locking] }
  | .lock i =>
    match p.calls[i]? with
    | some .locking | some .waiting => some (p.acquireLocked i)
    | _ => none
  | .ping i alive =>
    match p.calls[i]? with
    | some (.pinging c) =>
      some (if alive then (p.record (.ping c)).handOut i c
        else ((p.record (.ping c)).record (.close c)).setCall i (.dropping c))
    | _ => none
  | .drop i =>
    match p.calls[i]? with
    | some (.dropping _) => some { p.setCall i .locking with total := p.total - 1 }
    | _ => none
  | .connect i result =>
    match p.calls[i]? with
    | some .connecting =>
      some (match result with
        | .initFailed => p.setCall i .failing
        | .connectFailed => (p.init.record (.close p.created)).setCall i .failing
        | .connected => p.init.handOut i p.created)
    | _ => none
  | .undo i =>
    match p.calls[i]? with
    | some .failing => some { p.setCall i .ended with total := p.total - 1 }
    | _ => none
  | .construct => some { p with handles := p.handles ++ [none] }
  | .moveConstruct src =>
    p.handles[src]?.map fun conn => { p with handles := p.handles.set src none ++ [conn] }
  | .moveAssign dst src alive =>
    match p.handles[dst]?, p.handles[src]? with
    | some _, some conn =>
      if dst = src then some p
      else
        let released := p.releaseHandle dst alive
        some { released with handles := (released.handles.set dst conn).set src none }
    | _, _ => none
  | .destroy h alive => p.handles[h]?.map fun _ => p.releaseHandle h alive
  | .shutdown => some p.shutdownLocked

/-! ## 2. The invariant

Each connection is in one place: closed, idle, in a handle, or in the hands of a call.  The counter
and the log of what happened to the connections are tied to these places, and every action moves one
connection from one of them to another. -/

/-- How often `c` is closed, idle, in a handle, or being pinged. -/
def places (p : MySqlPool) (c : Conn) : Nat :=
  p.log.count (.close c) + p.idle.count c + p.handles.count (some c) + p.calls.count (.pinging c)

/-- The connections owned by handles. -/
def owned (p : MySqlPool) : Nat := p.handles.countP Option.isSome

/-- The connections in transit in an `Acquire`: popped for a ping, or being created. -/
def inTransit (p : MySqlPool) : Nat := p.calls.countP AcquireCall.inTransit

/-- What may happen after `e`: nothing to a connection that is closed, least of all that it is
handed out or closed again. -/
def Allowed (e e' : ConnEvent) : Prop :=
  ∀ c, e = .close c → e' ≠ .handOut c ∧ e' ≠ .ping c ∧ e' ≠ .close c

/-- One for a connection that has been created. -/
def born (created c : Nat) : Nat := if c < created then 1 else 0

theorem born_succ (created c : Nat) :
    born (created + 1) c = born created c + if created = c then 1 else 0 := by
  unfold born
  split_ifs <;> omega

theorem born_le_one (created c : Nat) : born created c ≤ 1 := by
  unfold born
  split <;> omega

/-- The invariant of the pool.  Each connection that has been created is in one place, which is what
makes it closed once and handed out to one caller; and while the pool is open its counter is the
number of the connections in all places that count. -/
structure Inv (p : MySqlPool) : Prop where
  once : ∀ c, p.places c = born p.created c
  dropping : ∀ c, p.calls.count (.dropping c) ≤ p.log.count (.close c)
  ordered : p.log.Pairwise Allowed
  idle : p.shutdown = true → p.idle = []
  total : p.shutdown = false →
    p.total.toNat = p.idle.length + p.owned + p.inTransit ∧ p.total ≤ p.maxConnections

theorem inv_new (maxConnections : UInt64) : (new maxConnections).Inv where
  once c := by simp [places, new, born]
  dropping c := by simp [new]
  ordered := List.Pairwise.nil
  idle := by simp [new]
  total _ := ⟨rfl, UInt64.zero_le⟩

/-- A connection that is in use has not been closed. -/
theorem Inv.not_closed {p : MySqlPool} (h : p.Inv) {c : Conn}
    (hc : 0 < p.idle.count c + p.handles.count (some c) + p.calls.count (.pinging c)) :
    .close c ∉ p.log := by
  intro hmem
  have hclosed : 0 < p.log.count (.close c) := List.count_pos_iff.mpr hmem
  have honce := h.once c
  have hborn := born_le_one p.created c
  simp only [places] at honce
  omega

/-- Something happens to a connection that has not been closed. -/
theorem ordered_append {log : List ConnEvent} (h : log.Pairwise Allowed) {c : Conn}
    (hc : .close c ∉ log) {e : ConnEvent} (he : e = .handOut c ∨ e = .ping c ∨ e = .close c) :
    (log ++ [e]).Pairwise Allowed := by
  rw [List.pairwise_append]
  refine ⟨h, List.pairwise_singleton _ _, fun e₀ he₀ e' he' => ?_⟩
  obtain rfl := List.mem_singleton.mp he'
  rintro d rfl
  have hne : d ≠ c := fun hdc => hc (hdc ▸ he₀)
  rcases he with rfl | rfl | rfl <;> simp [Ne.symm hne]

theorem ordered_append_init {log : List ConnEvent} (h : log.Pairwise Allowed) (c : Conn) :
    (log ++ [ConnEvent.init c]).Pairwise Allowed := by
  rw [List.pairwise_append]
  refine ⟨h, List.pairwise_singleton _ _, fun e₀ _ e' he' => ?_⟩
  obtain rfl := List.mem_singleton.mp he'
  exact fun d _ => ⟨by simp, by simp, by simp⟩

theorem toNat_add_one {x y : UInt64} (h : x < y) : (x + 1).toNat = x.toNat + 1 := by
  have hy := y.toNat_lt
  rw [UInt64.lt_iff_toNat_lt] at h
  rw [UInt64.toNat_add, UInt64.toNat_one]
  omega

theorem toNat_sub_one {x : UInt64} (h : 0 < x.toNat) : (x - 1).toNat = x.toNat - 1 := by
  have hle : (1 : UInt64) ≤ x := by
    rw [UInt64.le_iff_toNat_le, UInt64.toNat_one]
    omega
  rw [UInt64.toNat_sub_of_le _ _ hle, UInt64.toNat_one]

/-! ### A call of `Acquire`

A call leaves the lock with a connection, or without one, and what it does next depends on the
library.  There is one lemma for each way on. -/

theorem not_pinging_of_holds {call : AcquireCall} (h : ∀ c, call.holds c = false) (c : Conn) :
    call ≠ .pinging c ∧ call ≠ .dropping c := by
  constructor <;> rintro rfl <;> simpa [AcquireCall.holds] using h c

/-- A call that is not pinging moves on without a connection, and `total_` with it. -/
theorem Inv.setCall {p : MySqlPool} (h : p.Inv) {i : Nat} {old new : AcquireCall}
    (total : UInt64) (hcall : p.calls[i]? = some old) (hold : ∀ c, old ≠ .pinging c)
    (hnew : ∀ c, new.holds c = false)
    (htotal : p.shutdown = false → total.toNat + (if old.inTransit then 1 else 0) =
      p.total.toNat + (if new.inTransit then 1 else 0) ∧ total ≤ p.maxConnections) :
    Inv { p.setCall i new with total := total } := by
  refine ⟨fun c => ?_, fun c => ?_, h.ordered, h.idle, fun hopen => ?_⟩
  · have hset := count_set_add hcall new (.pinging c)
    have honce := h.once c
    rw [if_neg (hold c), if_neg (not_pinging_of_holds hnew c).1] at hset
    simp only [places, MySqlPool.setCall] at honce hset ⊢
    omega
  · have hset := count_set_add hcall new (.dropping c)
    have hdropping := h.dropping c
    rw [if_neg (not_pinging_of_holds hnew c).2] at hset
    simp only [MySqlPool.setCall]
    omega
  · have hset := countP_set_add hcall AcquireCall.inTransit new
    have hcharged := h.total hopen
    obtain ⟨htotal, hmax⟩ := htotal hopen
    simp only [owned, inTransit, MySqlPool.setCall] at hcharged ⊢
    refine ⟨?_, hmax⟩
    omega

/-- An idle connection is popped for a ping. -/
theorem Inv.pop {p : MySqlPool} (h : p.Inv) {i : Nat} {old : AcquireCall} {c : Conn}
    {rest : List Conn} (hcall : p.calls[i]? = some old) (hold : old.atLock = true)
    (hidle : p.idle = c :: rest) : Inv { p.setCall i (.pinging c) with idle := rest } := by
  have hpinging : ∀ d, old ≠ .pinging d := by rintro d rfl; cases hold
  have htransit : old.inTransit = false := by cases old <;> first | rfl | cases hold
  refine ⟨fun d => ?_, fun d => ?_, h.ordered, fun hshut => ?_, fun hopen => ?_⟩
  · have hset := count_set_add hcall (.pinging c) (.pinging d)
    have honce := h.once d
    simp only [places, hidle, List.count_cons, beq_iff_eq] at honce
    simp only [hpinging, if_false, AcquireCall.pinging.injEq] at hset
    simp only [places, MySqlPool.setCall]
    omega
  · have hset := count_set_add hcall (.pinging c) (.dropping d)
    have hdropping := h.dropping d
    simp only [reduceCtorEq, if_false] at hset
    simp only [MySqlPool.setCall]
    omega
  · have hnil := h.idle hshut
    rw [hidle] at hnil
    cases hnil
  · have hset := countP_set_add hcall AcquireCall.inTransit (.pinging c)
    have hnew : (AcquireCall.pinging c).inTransit = true := rfl
    have hcharged := h.total hopen
    simp only [htransit, hnew, Bool.false_eq_true, if_false, if_true] at hset
    simp only [owned, inTransit, hidle, List.length_cons] at hcharged
    simp only [owned, inTransit, MySqlPool.setCall]
    refine ⟨?_, hcharged.2⟩
    omega

/-- **The first lock section of `Acquire`.** -/
theorem Inv.acquireLocked {p : MySqlPool} (h : p.Inv) {i : Nat} {call : AcquireCall}
    (hcall : p.calls[i]? = some call) (hlock : call.atLock = true) : (p.acquireLocked i).Inv := by
  have hpinging : ∀ c, call ≠ .pinging c := by rintro c rfl; cases hlock
  have htransit : call.inTransit = false := by cases call <;> first | rfl | cases hlock
  unfold MySqlPool.acquireLocked
  split
  · exact h.setCall p.total hcall hpinging (fun _ => rfl)
      fun hopen => ⟨by rw [htransit]; rfl, (h.total hopen).2⟩
  · rename_i hopen
    split
    · rename_i c rest hidle
      exact h.pop hcall hlock hidle
    · split
      · exact h.setCall p.total hcall hpinging (fun _ => rfl)
          fun hopen => ⟨by rw [htransit]; rfl, (h.total hopen).2⟩
      · rename_i hfull
        have hroom : p.total < p.maxConnections := UInt64.not_le.mp hfull
        refine h.setCall (p.total + 1) hcall hpinging (fun _ => rfl) fun _ => ⟨?_, ?_⟩
        · rw [toNat_add_one hroom, htransit]
          rfl
        · rw [UInt64.le_iff_toNat_le, toNat_add_one hroom]
          exact UInt64.lt_iff_toNat_lt.mp hroom

/-- A ping is answered: the connection goes into a handle. -/
theorem Inv.pingAlive {p : MySqlPool} (h : p.Inv) {i : Nat} {c : Conn}
    (hcall : p.calls[i]? = some (.pinging c)) : ((p.record (.ping c)).handOut i c).Inv := by
  have hpos := count_pos_of_getElem? hcall
  have hopen : .close c ∉ p.log := h.not_closed (by omega)
  refine ⟨fun d => ?_, fun d => ?_, ?_, h.idle, fun hshut => ?_⟩
  · have hset := count_set_add hcall .ended (.pinging d)
    have honce := h.once d
    simp only [reduceCtorEq, if_false, AcquireCall.pinging.injEq] at hset
    simp only [places] at honce
    simp only [places, handOut, record, MySqlPool.setCall, count_append_singleton, reduceCtorEq,
      if_false, Option.some.injEq]
    omega
  · have hset := count_set_add hcall .ended (.dropping d)
    have hdropping := h.dropping d
    simp only [reduceCtorEq, if_false] at hset
    simp only [handOut, record, MySqlPool.setCall, count_append_singleton, reduceCtorEq, if_false]
    omega
  · have hping := ordered_append h.ordered hopen (Or.inr (Or.inl rfl))
    exact ordered_append hping (by simpa using hopen) (Or.inl rfl)
  · have hset := countP_set_add hcall AcquireCall.inTransit .ended
    have hcharged := h.total hshut
    simp only [AcquireCall.inTransit, Bool.false_eq_true, if_false, if_true] at hset
    simp only [owned, inTransit] at hcharged
    simp only [owned, inTransit, handOut, record, MySqlPool.setCall, List.countP_append,
      List.countP_singleton, Option.isSome_some, if_true]
    refine ⟨?_, hcharged.2⟩
    omega

/-- A ping is not answered: the connection is closed. -/
theorem Inv.pingDead {p : MySqlPool} (h : p.Inv) {i : Nat} {c : Conn}
    (hcall : p.calls[i]? = some (.pinging c)) :
    (((p.record (.ping c)).record (.close c)).setCall i (.dropping c)).Inv := by
  have hpos := count_pos_of_getElem? hcall
  have hopen : .close c ∉ p.log := h.not_closed (by omega)
  refine ⟨fun d => ?_, fun d => ?_, ?_, h.idle, fun hshut => ?_⟩
  · have hset := count_set_add hcall (.dropping c) (.pinging d)
    have honce := h.once d
    simp only [reduceCtorEq, if_false, AcquireCall.pinging.injEq] at hset
    simp only [places] at honce
    simp only [places, record, MySqlPool.setCall, count_append_singleton, reduceCtorEq,
      if_false, ConnEvent.close.injEq]
    omega
  · have hset := count_set_add hcall (.dropping c) (.dropping d)
    have hdropping := h.dropping d
    simp only [reduceCtorEq, if_false, AcquireCall.dropping.injEq] at hset
    simp only [record, MySqlPool.setCall, count_append_singleton, reduceCtorEq, if_false,
      ConnEvent.close.injEq]
    omega
  · have hping := ordered_append h.ordered hopen (Or.inr (Or.inl rfl))
    exact ordered_append hping (by simpa using hopen) (Or.inr (Or.inr rfl))
  · have hset := countP_set_add hcall AcquireCall.inTransit (.dropping c)
    have hcharged := h.total hshut
    simp only [AcquireCall.inTransit, if_true] at hset
    simp only [owned, inTransit, record, MySqlPool.setCall] at hcharged ⊢
    refine ⟨?_, hcharged.2⟩
    omega

/-- The second lock section of `Acquire`, on both of its paths: the connection is gone. -/
theorem Inv.uncharge {p : MySqlPool} (h : p.Inv) {i : Nat} {old new : AcquireCall}
    (hcall : p.calls[i]? = some old) (hold : ∀ c, old ≠ .pinging c)
    (htransit : old.inTransit = true) (hnew : ∀ c, new.holds c = false)
    (hleave : new.inTransit = false) :
    Inv { p.setCall i new with total := p.total - 1 } := by
  refine h.setCall (p.total - 1) hcall hold hnew fun hopen => ?_
  obtain ⟨hcharged, hmax⟩ := h.total hopen
  have hpos : 0 < p.calls.countP AcquireCall.inTransit :=
    List.countP_pos_iff.mpr ⟨old, List.mem_of_getElem? hcall, htransit⟩
  rw [inTransit] at hcharged
  have hsub : (p.total - 1).toNat = p.total.toNat - 1 := toNat_sub_one (by omega)
  rw [UInt64.le_iff_toNat_le] at hmax ⊢
  simp only [htransit, hleave, Bool.false_eq_true, if_false, if_true]
  omega

/-- The next connection has not been closed, for there is none yet. -/
theorem Inv.created_not_closed {p : MySqlPool} (h : p.Inv) : .close p.created ∉ p.log := by
  have honce := h.once p.created
  simp only [places, born, Nat.lt_irrefl, if_false] at honce
  exact List.count_eq_zero.mp (by omega)

/-- `CreateConnection` fails behind `mysql_init`: the new connection is closed. -/
theorem Inv.connectFailed {p : MySqlPool} (h : p.Inv) {i : Nat}
    (hcall : p.calls[i]? = some .connecting) :
    ((p.init.record (.close p.created)).setCall i .failing).Inv := by
  refine ⟨fun c => ?_, fun c => ?_, ?_, h.idle, fun hopen => ?_⟩
  · have hset := count_set_add hcall .failing (.pinging c)
    have honce := h.once c
    simp only [reduceCtorEq, if_false] at hset
    simp only [places] at honce
    simp only [places, init, record, MySqlPool.setCall, count_append_singleton, reduceCtorEq,
      if_false, ConnEvent.close.injEq, born_succ]
    omega
  · have hset := count_set_add hcall .failing (.dropping c)
    have hdropping := h.dropping c
    simp only [reduceCtorEq, if_false] at hset
    simp only [init, record, MySqlPool.setCall, count_append_singleton, reduceCtorEq, if_false]
    omega
  · have hinit := ordered_append_init h.ordered p.created
    exact ordered_append hinit (by simpa using h.created_not_closed) (Or.inr (Or.inr rfl))
  · have hset := countP_set_add hcall AcquireCall.inTransit .failing
    have hcharged := h.total hopen
    simp only [AcquireCall.inTransit, if_true] at hset
    simp only [owned, inTransit, init, record, MySqlPool.setCall] at hcharged ⊢
    refine ⟨?_, hcharged.2⟩
    omega

/-- `CreateConnection` succeeds: the new connection goes into a handle. -/
theorem Inv.connected {p : MySqlPool} (h : p.Inv) {i : Nat}
    (hcall : p.calls[i]? = some .connecting) : (p.init.handOut i p.created).Inv := by
  refine ⟨fun c => ?_, fun c => ?_, ?_, h.idle, fun hopen => ?_⟩
  · have hset := count_set_add hcall .ended (.pinging c)
    have honce := h.once c
    simp only [reduceCtorEq, if_false] at hset
    simp only [places] at honce
    simp only [places, init, handOut, record, MySqlPool.setCall, count_append_singleton,
      reduceCtorEq, if_false, Option.some.injEq, born_succ]
    omega
  · have hset := count_set_add hcall .ended (.dropping c)
    have hdropping := h.dropping c
    simp only [reduceCtorEq, if_false] at hset
    simp only [init, handOut, record, MySqlPool.setCall, count_append_singleton, reduceCtorEq,
      if_false]
    omega
  · have hinit := ordered_append_init h.ordered p.created
    exact ordered_append hinit (by simpa using h.created_not_closed) (Or.inl rfl)
  · have hset := countP_set_add hcall AcquireCall.inTransit .ended
    have hcharged := h.total hopen
    simp only [AcquireCall.inTransit, Bool.false_eq_true, if_false, if_true] at hset
    simp only [owned, inTransit] at hcharged
    simp only [owned, inTransit, init, handOut, record, MySqlPool.setCall, List.countP_append,
      List.countP_singleton, Option.isSome_some, if_true]
    refine ⟨?_, hcharged.2⟩
    omega

/-! ### Handles

A handle gives its connection back by `Release`, in the course of which the connection is in no
place at all.  `Loose` is the invariant for that moment. -/

/-- The invariant while `Release` has a connection in its hands: it is in no other place. -/
structure Loose (p : MySqlPool) (c : Conn) : Prop where
  once : ∀ d, p.places d + (if c = d then 1 else 0) = born p.created d
  dropping : ∀ d, p.calls.count (.dropping d) ≤ p.log.count (.close d)
  ordered : p.log.Pairwise Allowed
  idle : p.shutdown = true → p.idle = []
  total : p.shutdown = false →
    p.total.toNat = p.idle.length + p.owned + 1 + p.inTransit ∧ p.total ≤ p.maxConnections
  notClosed : .close c ∉ p.log

theorem Inv.loose {p : MySqlPool} (h : p.Inv) {n : Nat} {c : Conn}
    (hhandle : p.handles[n]? = some (some c)) :
    Loose { p with handles := p.handles.set n none } c := by
  have hpos := count_pos_of_getElem? hhandle
  refine ⟨fun d => ?_, h.dropping, h.ordered, h.idle, fun hopen => ?_, h.not_closed (by omega)⟩
  · have honce := h.once d
    have hset := count_set_add hhandle none (some d)
    simp only [reduceCtorEq, if_false, Option.some.injEq, Nat.add_zero] at hset
    simp only [places] at honce ⊢
    omega
  · obtain ⟨htotal, hmax⟩ := h.total hopen
    have hset := countP_set_add hhandle Option.isSome none
    have howned : (p.handles.set n none).countP Option.isSome + 1 = p.owned := by
      simpa [owned] using hset
    refine ⟨?_, hmax⟩
    simp only [inTransit] at htotal
    simp only [owned, inTransit]
    omega

theorem Loose.closed {p : MySqlPool} {c : Conn} (h : p.Loose c) (hshut : p.shutdown = true) :
    (p.record (.close c)).Inv := by
  refine ⟨fun d => ?_, fun d => ?_, ordered_append h.ordered h.notClosed (Or.inr (Or.inr rfl)),
    h.idle, fun hopen => ?_⟩
  · have honce := h.once d
    simp only [places] at honce
    simp only [places, record, count_append_singleton, ConnEvent.close.injEq]
    omega
  · have hdropping := h.dropping d
    simp only [record, count_append_singleton]
    omega
  · simp only [record] at hopen
    rw [hshut] at hopen
    cases hopen

theorem Loose.becomesIdle {p : MySqlPool} {c : Conn} (h : p.Loose c)
    (hopen : p.shutdown = false) :
    Inv { p.record (.ping c) with idle := p.idle ++ [c] } := by
  refine ⟨fun d => ?_, fun d => ?_, ordered_append h.ordered h.notClosed (Or.inr (Or.inl rfl)),
    fun hshut => ?_, fun _ => ?_⟩
  · have honce := h.once d
    simp only [places] at honce
    simp only [places, record, count_append_singleton, reduceCtorEq, if_false]
    omega
  · have hdropping := h.dropping d
    simpa only [record, count_append_singleton, reduceCtorEq, if_false, Nat.add_zero] using
      hdropping
  · simp only [record, hopen] at hshut
    cases hshut
  · have hcharged := h.total hopen
    simp only [owned, inTransit] at hcharged
    simp only [owned, inTransit, record, List.length_append, List.length_singleton]
    refine ⟨?_, hcharged.2⟩
    omega

theorem Loose.dies {p : MySqlPool} {c : Conn} (h : p.Loose c) (hopen : p.shutdown = false) :
    Inv { (p.record (.ping c)).record (.close c) with
      total := if p.total > 0 then p.total - 1 else p.total } := by
  have hpinged := ordered_append h.ordered h.notClosed (Or.inr (Or.inl rfl))
  refine ⟨fun d => ?_, fun d => ?_,
    ordered_append hpinged (by simpa using h.notClosed) (Or.inr (Or.inr rfl)), h.idle,
    fun _ => ?_⟩
  · have honce := h.once d
    simp only [places] at honce
    simp only [places, record, count_append_singleton, reduceCtorEq, if_false,
      ConnEvent.close.injEq]
    omega
  · have hdropping := h.dropping d
    simp only [record, count_append_singleton, reduceCtorEq, if_false]
    omega
  · obtain ⟨htotal, hmax⟩ := h.total hopen
    have hgt : p.total > 0 := by
      rw [gt_iff_lt, UInt64.lt_iff_toNat_lt, UInt64.toNat_zero]
      omega
    have hsub : (p.total - 1).toNat = p.total.toNat - 1 := toNat_sub_one (by omega)
    rw [UInt64.le_iff_toNat_le] at hmax
    simp only [owned, inTransit] at htotal
    simp only [owned, inTransit, record, if_pos hgt, UInt64.le_iff_toNat_le]
    omega

/-- A handle gives its connection back: to the queue, or to `mysql_close`. -/
theorem Inv.releaseHandle {p : MySqlPool} (h : p.Inv) (n : Nat) (alive : Bool) :
    (p.releaseHandle n alive).Inv := by
  unfold MySqlPool.releaseHandle
  split
  · rename_i c hhandle
    have hloose := h.loose hhandle
    unfold MySqlPool.release
    split
    · rename_i hshut
      exact hloose.closed hshut
    · rename_i hopen
      rw [Bool.not_eq_true] at hopen
      split
      · exact hloose.becomesIdle hopen
      · exact hloose.dies hopen
  · exact h

theorem handles_release (p : MySqlPool) (c : Conn) (alive : Bool) :
    (p.release c alive).handles = p.handles := by
  unfold release
  split
  · rfl
  · split <;> rfl

/-- A handle that has given its connection back has none; the others keep theirs. -/
theorem handles_releaseHandle {p : MySqlPool} {n : Nat} {conn : Option Conn}
    (hhandle : p.handles[n]? = some conn) (alive : Bool) :
    (p.releaseHandle n alive).handles = p.handles.set n none := by
  unfold releaseHandle
  cases conn with
  | some c => simp only [hhandle, handles_release]
  | none =>
    simp only [hhandle]
    obtain ⟨hlt, hget⟩ := List.getElem?_eq_some_iff.mp hhandle
    rw [← hget, List.set_getElem_self]

/-- A connection goes from one handle to another one. -/
theorem Inv.transfer {p : MySqlPool} (h : p.Inv) {handles : List (Option Conn)}
    (hcount : ∀ conn : Conn, handles.count (some conn) = p.handles.count (some conn))
    (howned : handles.countP Option.isSome = p.handles.countP Option.isSome) :
    Inv { p with handles := handles } := by
  refine ⟨fun c => ?_, h.dropping, h.ordered, h.idle, fun hopen => ?_⟩
  · have honce := h.once c
    simp only [places, hcount] at honce ⊢
    exact honce
  · have hcharged := h.total hopen
    simp only [owned, inTransit, howned] at hcharged ⊢
    exact hcharged

theorem Inv.shutdownLocked {p : MySqlPool} (h : p.Inv) : p.shutdownLocked.Inv := by
  unfold MySqlPool.shutdownLocked
  split
  · exact h
  · have hclose : ∀ c, (p.idle.map ConnEvent.close).count (.close c) = p.idle.count c := by
      intro c
      exact List.count_map_of_injective _ _ (fun _ _ => ConnEvent.close.inj) _
    refine ⟨fun c => ?_, fun c => ?_, ?_, fun _ => rfl, fun hopen => ?_⟩
    · have honce := h.once c
      simp only [places] at honce
      simp only [places, List.count_append, hclose, List.count_nil]
      omega
    · have hdropping := h.dropping c
      simp only [List.count_append]
      omega
    · have hnodup : p.idle.Nodup := by
        rw [List.nodup_iff_count_le_one]
        intro c
        have honce := h.once c
        have hborn := born_le_one p.created c
        simp only [places] at honce
        omega
      rw [List.pairwise_append, List.pairwise_map]
      refine ⟨h.ordered, hnodup.imp fun hne => ?_, fun e he e' he' => ?_⟩
      · intro c hc
        obtain rfl := ConnEvent.close.inj hc
        simp [Ne.symm hne]
      · obtain ⟨c, hc, rfl⟩ := List.mem_map.mp he'
        rintro d rfl
        have hne : c ≠ d := by
          rintro rfl
          have hpos : 0 < p.idle.count c := List.count_pos_iff.mpr hc
          exact h.not_closed (by omega) he
        simp [hne]
    · cases hopen

/-! ### Runs

One case for each action, and the lemmas above by name. -/

/-- The handles after a move, where the destination has just been emptied. -/
theorem Inv.moveInto {p : MySqlPool} (h : p.Inv) {dst src : Nat} {conn : Option Conn}
    (hne : dst ≠ src) (hdst : p.handles[dst]? = some none) (hsrc : p.handles[src]? = some conn) :
    Inv { p with handles := (p.handles.set dst conn).set src none } := by
  have hsrc' : (p.handles.set dst conn)[src]? = some conn := by
    rw [List.getElem?_set_ne hne, hsrc]
  refine h.transfer (fun c => ?_) ?_
  · have hput := count_set_add hdst conn (some c)
    have htake := count_set_add hsrc' none (some c)
    simp only [reduceCtorEq, if_false] at hput htake
    omega
  · have hput := countP_set_add hdst Option.isSome conn
    have htake := countP_set_add hsrc' Option.isSome none
    simp only [Option.isSome_none, Bool.false_eq_true, if_false] at hput htake
    omega

/-- **Every action preserves the invariant**, those of the handles as well as the two of the pool.
-/
theorem Inv.step {p p' : MySqlPool} {a : PoolAction} (h : p.Inv) (hstep : p.step a = some p') :
    p'.Inv := by
  cases a with
  | acquire =>
    obtain rfl := Option.some.inj hstep
    refine ⟨fun c => ?_, fun c => ?_, h.ordered, h.idle, fun hopen => ?_⟩
    · have honce := h.once c
      simpa only [places, count_append_singleton, reduceCtorEq, if_false, Nat.add_zero] using honce
    · have hdropping := h.dropping c
      simpa only [count_append_singleton, reduceCtorEq, if_false, Nat.add_zero] using hdropping
    · have hcharged := h.total hopen
      simpa [owned, inTransit, AcquireCall.inTransit] using hcharged
  | lock i =>
    simp only [MySqlPool.step] at hstep
    split at hstep
    · rename_i hcall
      obtain rfl := Option.some.inj hstep
      exact h.acquireLocked hcall rfl
    · rename_i hcall
      obtain rfl := Option.some.inj hstep
      exact h.acquireLocked hcall rfl
    · cases hstep
  | ping i alive =>
    simp only [MySqlPool.step] at hstep
    split at hstep
    · rename_i c hcall
      obtain rfl := Option.some.inj hstep
      cases alive with
      | true => exact h.pingAlive hcall
      | false => exact h.pingDead hcall
    · cases hstep
  | drop i =>
    simp only [MySqlPool.step] at hstep
    split at hstep
    · rename_i c hcall
      obtain rfl := Option.some.inj hstep
      exact h.uncharge hcall (fun _ => by simp) rfl (fun _ => rfl) rfl
    · cases hstep
  | connect i result =>
    simp only [MySqlPool.step] at hstep
    split at hstep
    · rename_i hcall
      obtain rfl := Option.some.inj hstep
      cases result with
      | initFailed =>
        exact h.setCall p.total hcall (fun _ => by simp) (fun _ => rfl)
          fun hopen => ⟨rfl, (h.total hopen).2⟩
      | connectFailed => exact h.connectFailed hcall
      | connected => exact h.connected hcall
    · cases hstep
  | undo i =>
    simp only [MySqlPool.step] at hstep
    split at hstep
    · rename_i hcall
      obtain rfl := Option.some.inj hstep
      exact h.uncharge hcall (fun _ => by simp) rfl (fun _ => rfl) rfl
    · cases hstep
  | construct =>
    obtain rfl := Option.some.inj hstep
    exact h.transfer (fun c => by simp) (by simp)
  | moveConstruct src =>
    obtain ⟨conn, hsrc, rfl⟩ := Option.map_eq_some_iff.mp hstep
    refine h.transfer (fun c => ?_) ?_
    · have htake := count_set_add hsrc none (some c)
      simp only [reduceCtorEq, if_false] at htake
      rw [count_append_singleton]
      omega
    · have htake := countP_set_add hsrc Option.isSome none
      simp only [Option.isSome_none, Bool.false_eq_true, if_false] at htake
      rw [List.countP_append, List.countP_singleton]
      omega
  | moveAssign dst src alive =>
    simp only [MySqlPool.step] at hstep
    split at hstep
    · rename_i old conn hdst hsrc
      split at hstep
      · obtain rfl := Option.some.inj hstep
        exact h
      · rename_i hne
        obtain rfl := Option.some.inj hstep
        have hhandles := handles_releaseHandle hdst alive
        have hlt := (List.getElem?_eq_some_iff.mp hdst).1
        refine (h.releaseHandle dst alive).moveInto hne ?_ ?_
        · rw [hhandles, List.getElem?_set_self hlt]
        · rw [hhandles, List.getElem?_set_ne hne, hsrc]
    · cases hstep
  | destroy n alive =>
    obtain ⟨conn, -, rfl⟩ := Option.map_eq_some_iff.mp hstep
    exact h.releaseHandle n alive
  | shutdown =>
    obtain rfl := Option.some.inj hstep
    exact h.shutdownLocked

/-- The invariant holds in every reachable state. -/
theorem inv_of_run {maxConnections : UInt64} {p : MySqlPool} {as : List PoolAction}
    (hrun : Transition.exec step (new maxConnections) as = some p) : p.Inv :=
  Transition.exec_invariant (fun _ _ _ h hstep => h.step hstep) (inv_new maxConnections) hrun

/-! ## 3. Conservation

The equation is part of the invariant.  The bound is given in terms of what the pool was made with,
since no action changes the configuration. -/

/-- A call that has a connection is pinging it or has just closed it. -/
theorem countP_holds (calls : List AcquireCall) (c : Conn) :
    calls.countP (AcquireCall.holds c) =
      calls.count (.pinging c) + calls.count (.dropping c) := by
  induction calls with
  | nil => rfl
  | cons call calls ih =>
    rw [List.countP_cons, List.count_cons, List.count_cons, ih]
    cases call with
    | pinging d | dropping d =>
      simp only [AcquireCall.holds, beq_iff_eq, AcquireCall.pinging.injEq,
        AcquireCall.dropping.injEq, reduceCtorEq, if_false]
      omega
    | _ => rfl

theorem maxConnections_releaseHandle (p : MySqlPool) (n : Nat) (alive : Bool) :
    (p.releaseHandle n alive).maxConnections = p.maxConnections := by
  unfold releaseHandle
  split
  · unfold release
    split
    · rfl
    · split <;> rfl
  · rfl

theorem maxConnections_acquireLocked (p : MySqlPool) (i : Nat) :
    (p.acquireLocked i).maxConnections = p.maxConnections := by
  unfold acquireLocked
  split
  · rfl
  · split
    · rfl
    · split <;> rfl

theorem maxConnections_shutdownLocked (p : MySqlPool) :
    p.shutdownLocked.maxConnections = p.maxConnections := by
  unfold shutdownLocked
  split <;> rfl

theorem maxConnections_step {p p' : MySqlPool} {a : PoolAction} (hstep : p.step a = some p') :
    p'.maxConnections = p.maxConnections := by
  cases a with
  | acquire | construct =>
    obtain rfl := Option.some.inj hstep
    rfl
  | shutdown =>
    obtain rfl := Option.some.inj hstep
    exact maxConnections_shutdownLocked p
  | moveConstruct src =>
    obtain ⟨conn, -, rfl⟩ := Option.map_eq_some_iff.mp hstep
    rfl
  | destroy n alive =>
    obtain ⟨conn, -, rfl⟩ := Option.map_eq_some_iff.mp hstep
    exact maxConnections_releaseHandle p n alive
  | moveAssign dst src alive =>
    simp only [step] at hstep
    split at hstep
    · split at hstep
      · rw [Option.some.inj hstep]
      · obtain rfl := Option.some.inj hstep
        exact maxConnections_releaseHandle p dst alive
    · cases hstep
  | lock i =>
    simp only [step] at hstep
    split at hstep
    · rw [← Option.some.inj hstep, maxConnections_acquireLocked]
    · rw [← Option.some.inj hstep, maxConnections_acquireLocked]
    · cases hstep
  | ping i alive =>
    simp only [step] at hstep
    split at hstep
    · obtain rfl := Option.some.inj hstep
      cases alive <;> rfl
    · cases hstep
  | connect i result =>
    simp only [step] at hstep
    split at hstep
    · obtain rfl := Option.some.inj hstep
      cases result <;> rfl
    · cases hstep
  | drop i | undo i =>
    simp only [step] at hstep
    split at hstep
    · obtain rfl := Option.some.inj hstep
      rfl
    · cases hstep

/-- The bound is the configured one, or 1 for a configured 0. -/
theorem maxConnections_of_run {maxConnections : UInt64} {p : MySqlPool} {as : List PoolAction}
    (hrun : Transition.exec step (new maxConnections) as = some p) :
    p.maxConnections = if maxConnections = 0 then 1 else maxConnections := by
  have hstep : ∀ (q : MySqlPool) (a : PoolAction) (q' : MySqlPool),
      q.maxConnections = (new maxConnections).maxConnections → q.step a = some q' →
        q'.maxConnections = (new maxConnections).maxConnections :=
    fun q a q' hq hstep => (maxConnections_step hstep).trans hq
  exact Transition.exec_invariant hstep rfl hrun

/-- **The pool conserves its connections.**  Take any run of any number of `Acquire` calls and
handles, with any answers of the client library.  As long as the pool is not shut down, `total_`
is the number of connections that are idle, owned by a handle, or in transit in an `Acquire`; it
is at most the `max_connections` that the pool was made with, or 1 for 0; and a connection is in at
most one of these places. -/
theorem pool_conserves {maxConnections : UInt64} {p : MySqlPool} {as : List PoolAction}
    (hrun : Transition.exec step (new maxConnections) as = some p) (hopen : p.shutdown = false) :
    p.total.toNat = p.idle.length + p.owned + p.inTransit ∧
      p.total ≤ (if maxConnections = 0 then 1 else maxConnections) ∧
      ∀ c,
        p.idle.count c + p.handles.count (some c) + p.calls.countP (AcquireCall.holds c) ≤ 1 := by
  have h := inv_of_run hrun
  have hbound := (h.total hopen).2
  rw [maxConnections_of_run hrun] at hbound
  refine ⟨(h.total hopen).1, hbound, fun c => ?_⟩
  have honce := h.once c
  have hdropping := h.dropping c
  have hborn := born_le_one p.created c
  rw [countP_holds]
  simp only [places] at honce
  omega

/-- A dead connection is dropped and another one made, while a third one is in use. -/
def retryRun : List PoolAction :=
  [.acquire, .lock 0, .connect 0 .connected, .acquire, .lock 1, .connect 1 .connected,
    .destroy 0 true, .acquire, .lock 2, .ping 2 false, .drop 2, .lock 2]

theorem pool_conserves_retry :
    ∃ p, Transition.exec step (new 2) retryRun = some p ∧
      p.total.toNat = p.idle.length + p.owned + p.inTransit ∧ p.total ≤ 2 ∧
      ∀ c, p.idle.count c + p.handles.count (some c) + p.calls.countP (AcquireCall.holds c) ≤ 1 :=
  ⟨_, rfl, @pool_conserves 2 _ retryRun rfl rfl⟩

/-! ## 4. Closing

What the log says of one connection: it is made, it is used, and then it is closed.  In the end
every place but that of the closed ones is empty. -/

/-- **Every connection is closed exactly once.**  In every run a connection is closed at most
once, and it is neither handed out nor pinged after that; and once the pool is shut down, every
handle is empty and every `Acquire` has ended, every connection ever created has been closed. -/
theorem closed_exactly_once {maxConnections : UInt64} {p : MySqlPool} {as : List PoolAction}
    (hrun : Transition.exec step (new maxConnections) as = some p) :
    (∀ c, p.log.count (.close c) ≤ 1) ∧
      (∀ pre post c, p.log = pre ++ .close c :: post →
        ∀ e ∈ post, e ≠ .handOut c ∧ e ≠ .ping c) ∧
      (p.shutdown = true → (∀ conn ∈ p.handles, conn = none) →
        (∀ call ∈ p.calls, call = .ended) → ∀ c < p.created, .close c ∈ p.log) := by
  have h := inv_of_run hrun
  refine ⟨fun c => ?_, fun pre post c hlog e he => ?_, fun hshut hhandles hcalls c hc => ?_⟩
  · have honce := h.once c
    have hborn := born_le_one p.created c
    simp only [places] at honce
    omega
  · have hordered := h.ordered
    rw [hlog, List.pairwise_append, List.pairwise_cons] at hordered
    obtain ⟨hhandOut, hping, -⟩ := hordered.2.1.1 e he c rfl
    exact ⟨hhandOut, hping⟩
  · have honce := h.once c
    have hhandle : p.handles.count (some c) = 0 :=
      List.count_eq_zero.mpr fun hmem => by cases hhandles _ hmem
    have hcall : p.calls.count (.pinging c) = 0 :=
      List.count_eq_zero.mpr fun hmem => by cases hcalls _ hmem
    rw [places, h.idle hshut, hhandle, hcall, born, if_pos hc] at honce
    exact List.count_pos_iff.mp (by simp only [List.count_nil] at honce; omega)

/-- Shutdown falls between popping a connection and pinging it, while another one is in use. -/
def shutdownRun : List PoolAction :=
  [.acquire, .lock 0, .connect 0 .connected, .acquire, .lock 1, .connect 1 .connected,
    .destroy 0 true, .acquire, .lock 2, .shutdown, .ping 2 false, .drop 2, .lock 2,
    .destroy 1 true]

theorem closed_exactly_once_shutdown :
    ∃ p, Transition.exec step (new 2) shutdownRun = some p ∧
      ∀ c < p.created, .close c ∈ p.log := by
  refine ⟨_, rfl, ?_⟩
  have hclosed := @closed_exactly_once 2 _ shutdownRun rfl
  exact hclosed.2.2 rfl (by decide) (by decide)

end MySqlPool

end OnlineJudge.Db
