/-
# The attempts of one job

`ExecuteJob` (`judge_manager.cpp`) tries `retry_count_` times to have a job executed.  Nothing in
the loop remembers where the job has been: each attempt selects a worker anew, while other judge
threads select, fail and probe.  That a retry goes to another worker follows from what an attempt
leaves: it has marked its worker offline before the next one selects, and only a registration and
`MarkOnline` bring a worker back.

A `JobCall` is one call of `ExecuteJob` by one of the threads of `ManagerState`.  A step is an
action of any thread, and those of the calling thread move the loop on.

`SelectWorker` compares the counters with the largest value there is, strictly, and so passes over
an online worker whose counter is there.  No manager gets so far: a counter goes up once for each
thread that is sent to its worker, and what is left of the way is more than the threads can do
(`HasRoom`).

* `ManagerState.step_cases`: what an action of the manager does, to its thread and the balancer.
* `ManagerState.dispatch_of_step`: the manager is an implementation of `DispatchState`, the balancer
  with the jobs in flight.
* `ManagerState.hasRoom_of_exec`: every state that a manager reaches has room.
* `retries_elsewhere`: in any interleaving without a registration and without `MarkOnline`, the
  workers of a call are pairwise different, and a call that gives up has made all its attempts, each
  of which found no online worker or failed on one that is off.
-/
import OnlineJudge.Judge.Registration
import OnlineJudge.Judge.SelectWorker
import OnlineJudge.Judge.WorkerIds
import OnlineJudge.Lib.Counting

namespace OnlineJudge.Judge

open JudgeWorkerBalancer

/-! ## 1. The balancer under the manager

The actions of the threads are looked at once, for what they do to their thread and to the balancer.
Every later lemma is about one of a few kinds of moves. -/

namespace BalancerCall

/-- The call can bring a worker back. -/
def revives : BalancerCall → Bool
  | upsertWorker _ | markOnline _ => true
  | selectWorker | releaseWorkerLoad _ | markOffline _ => false

end BalancerCall

/-- The worker a thread has sent its job to and not given up yet. -/
def JudgeThread.worker : JudgeThread → Option Nat
  | dispatched id _ | failed id _ => some id
  | idle | probing .. | checked .. | reread .. | selecting => none

namespace ManagerState

/-- The call of the balancer that an action is, if it is one that can change it. -/
def callOf (s : ManagerState) : ManagerAction → Option BalancerCall
  | .register cfg => some (.upsertWorker cfg)
  | .settle k =>
    match s.threads[k]? with
    | some (.reread id _ true false _) => some (.markOnline id)
    | some (.reread id _ false true _) => some (.markOffline id)
    | _ => none
  | .select _ => some .selectWorker
  | .reply k _ =>
    match s.threads[k]? with
    | some (.dispatched id _) => some (.releaseWorkerLoad id)
    | _ => none
  | .fail k =>
    match s.threads[k]? with
    | some (.failed id _) => some (.markOffline id)
    | _ => none
  | .begin _ _ | .health _ _ | .look _ => none

/-- The thread that acts. -/
def actor : ManagerAction → Option Nat
  | .register _ => none
  | .begin k _ | .health k _ | .look k | .settle k | .select k | .reply k _ | .fail k => some k

/-- It is a step of `ExecuteRemotely` around the job. -/
def takesJob : ManagerAction → Bool
  | .select _ | .reply _ _ | .fail _ => true
  | .register _ | .begin _ _ | .health _ _ | .look _ | .settle _ => false

/-- The loop of the probes goes on without a job. -/
theorem worker_probeNext (rest : List Nat) : (JudgeThread.probeNext rest).worker = none := by
  cases rest <;> rfl

/-- What an action does to the thread `k` that takes it: it is one of the steps around a job, or it
has nothing to do with a job. -/
inductive Move (bal : JudgeWorkerBalancer) (k : Nat) :
    ManagerAction → JudgeThread → JudgeThread → Prop
  | aside (a old new) (hjob : takesJob a = false) (hold : old.worker = none)
      (hnew : new.worker = none) : Move bal k a old new
  | noWorker (h : bal.selectWorker = none) : Move bal k (.select k) .selecting .idle
  | selected (sel b') (h : bal.selectWorker = some (sel, b')) :
      Move bal k (.select k) .selecting (.dispatched sel.id false)
  | finished (id registered) : Move bal k (.reply k true) (.dispatched id registered) .idle
  | refused (id registered) :
      Move bal k (.reply k false) (.dispatched id registered) (.failed id registered)
  | gaveUp (id registered) : Move bal k (.fail k) (.failed id registered) .idle

/-- **The inversion lemma**: an action moves its own thread on, and it is one call of the balancer
or none. -/
theorem step_cases {s s' : ManagerState} {a : ManagerAction} (h : s.step a = some s') :
    (∃ cfg, a = .register cfg) ∨
      ∃ k old new, actor a = some k ∧ s.threads[k]? = some old ∧ Move s.bal k a old new ∧
        s' = s.goOn k ((s.callOf a).elim s.bal s.bal.call) new := by
  cases a with
  | register cfg => exact Or.inl ⟨cfg, rfl⟩
  | begin k due =>
    simp only [step] at h
    split at h
    · rename_i hthread
      obtain rfl := Option.some.inj h
      refine Or.inr ⟨k, _, _, rfl, hthread, .aside _ _ _ rfl rfl ?_, rfl⟩
      cases due with
      | true => exact worker_probeNext _
      | false => rfl
    · cases h
  | health k healthy =>
    simp only [step] at h
    split at h
    · rename_i hthread
      obtain rfl := Option.some.inj h
      exact Or.inr ⟨k, _, _, rfl, hthread, .aside _ _ _ rfl rfl rfl, rfl⟩
    · cases h
  | look k =>
    simp only [step] at h
    split at h
    · rename_i hthread
      split at h
      · obtain rfl := Option.some.inj h
        exact Or.inr ⟨k, _, _, rfl, hthread, .aside _ _ _ rfl rfl (worker_probeNext _), rfl⟩
      · obtain rfl := Option.some.inj h
        exact Or.inr ⟨k, _, _, rfl, hthread, .aside _ _ _ rfl rfl rfl, rfl⟩
    · cases h
  | settle k =>
    simp only [step] at h
    split at h
    · rename_i id rest healthy online registered hthread
      obtain rfl := Option.some.inj h
      refine Or.inr ⟨k, _, _, rfl, hthread, .aside _ _ _ rfl rfl (worker_probeNext rest), ?_⟩
      cases healthy <;> cases online <;> simp [callOf, hthread, settleProbe, call]
    · cases h
  | select k =>
    simp only [step] at h
    split at h
    · rename_i hthread
      cases hsel : s.bal.selectWorker with
      | none =>
        rw [hsel] at h
        obtain rfl := Option.some.inj h
        refine Or.inr ⟨k, _, _, rfl, hthread, .noWorker hsel, ?_⟩
        rw [callOf, Option.elim_some, call, hsel]
        rfl
      | some p =>
        rw [hsel] at h
        obtain rfl := Option.some.inj h
        refine Or.inr ⟨k, _, _, rfl, hthread, .selected _ _ hsel, ?_⟩
        rw [callOf, Option.elim_some, call, hsel]
        rfl
    · cases h
  | reply k ok =>
    simp only [step] at h
    split at h
    · rename_i id registered hthread
      obtain rfl := Option.some.inj h
      have hcall : (s.callOf (.reply k ok)).elim s.bal s.bal.call = s.bal.releaseWorkerLoad id := by
        simp [callOf, hthread, call]
      rw [← hcall]
      cases ok with
      | true => exact Or.inr ⟨k, _, _, rfl, hthread, .finished _ _, rfl⟩
      | false => exact Or.inr ⟨k, _, _, rfl, hthread, .refused _ _, rfl⟩
    · cases h
  | fail k =>
    simp only [step] at h
    split at h
    · rename_i id registered hthread
      obtain rfl := Option.some.inj h
      have hcall : (s.callOf (.fail k)).elim s.bal s.bal.call = s.bal.markOffline id := by
        simp [callOf, hthread, call]
      rw [← hcall]
      exact Or.inr ⟨k, _, _, rfl, hthread, .gaveUp _ _, rfl⟩
    · cases h

/-- No registration and no `MarkOnline`. -/
def NoComeback (s : ManagerState) (a : ManagerAction) : Prop :=
  ∀ c ∈ s.callOf a, c.revives = false

instance (s : ManagerState) (a : ManagerAction) : Decidable (s.NoComeback a) :=
  inferInstanceAs (Decidable (∀ c ∈ s.callOf a, c.revives = false))

/-- A worker stays away under any other call. -/
theorem Off.of_call {b : JudgeWorkerBalancer} {c : BalancerCall} {id : Nat} (h : Off b id)
    (hc : c.revives = false) : Off (b.call c) id := by
  obtain ⟨node, hnode, hoff⟩ := h
  cases c with
  | upsertWorker cfg => cases hc
  | markOnline i => cases hc
  | selectWorker =>
    rw [JudgeWorkerBalancer.call]
    cases hsel : b.selectWorker with
    | none => exact ⟨node, hnode, hoff⟩
    | some p =>
      obtain ⟨sel, b'⟩ := p
      obtain ⟨other, hother, hon, -, -, -, -, rfl⟩ := selectWorker_cases hsel
      have hne : sel.id ≠ id := by
        rintro rfl
        rw [hnode] at hother
        rw [← Option.some.inj hother, hoff] at hon
        cases hon
      refine ⟨node, ?_, hoff⟩
      rw [Option.map_some, Option.getD_some, List.getElem?_set_ne hne]
      exact hnode
  | releaseWorkerLoad i =>
    refine ⟨if (id : Int) = i then releaseNode node else node, ?_, ?_⟩
    · rw [JudgeWorkerBalancer.call, releaseWorkerLoad, getElem?_updateNode, hnode, Option.map_some]
    · split
      · rw [online_releaseNode]
        exact hoff
      · exact hoff
  | markOffline i =>
    refine ⟨if (id : Int) = i then { node with online := false, load := 0 } else node, ?_, ?_⟩
    · rw [JudgeWorkerBalancer.call, markOffline, getElem?_updateNode, hnode, Option.map_some]
    · split
      · rfl
      · exact hoff

theorem Off.elim_call {b : JudgeWorkerBalancer} {c : Option BalancerCall} {id : Nat}
    (h : Off b id) (hc : ∀ call ∈ c, call.revives = false) : Off (c.elim b b.call) id := by
  cases c with
  | none => exact h
  | some call => exact h.of_call (hc call rfl)

theorem off_markOffline {b : JudgeWorkerBalancer} {id : Nat} (h : id < b.nodes.length) :
    Off (b.markOffline id) id := by
  refine ⟨{ b.nodes[id] with online := false, load := 0 }, ?_, rfl⟩
  rw [markOffline, getElem?_updateNode, List.getElem?_eq_getElem h, Option.map_some, if_pos rfl]

end ManagerState

/-! ## 2. How far the counters can go

The actions of the manager are calls of the balancer with jobs in flight, so what `DispatchState`
says of the counters holds here.  A job is in flight while its thread waits for the answer. -/

/-- The worker that a thread waits for. -/
def JudgeThread.inFlight : JudgeThread → List Nat
  | dispatched id _ => [id]
  | idle | probing .. | checked .. | reread .. | selecting | failed .. => []

theorem JudgeThread.inFlight_note (id : Nat) (thread : JudgeThread) :
    (thread.note id).inFlight = thread.inFlight := by
  cases thread <;> rfl

/-- A thread that has nothing to do with a job has none in flight. -/
theorem JudgeThread.inFlight_of_worker {thread : JudgeThread} (h : thread.worker = none) :
    thread.inFlight = [] := by
  cases thread with
  | dispatched => cases h
  | _ => rfl

namespace DispatchState

/-- What the counters leave to `n` threads: if each thread that is not sent to a worker were sent
there, its counter would still be below the largest value.  A call that sets a counter to 0 gives
back more than it takes, as there are not so many threads. -/
def Room (n : Nat) (s : DispatchState) : Prop :=
  ∀ (i : Nat) (node : WorkerNode), s.bal.nodes[i]? = some node →
    node.load + n < uint64Max + s.jobs i

theorem Room.step {n : Nat} {s s' : DispatchState} {a : DispatchAction} (h : s.Room n)
    (hn : n < uint64Max) (hs : s.step a = some s') : s'.Room n := by
  intro i node' hnode'
  obtain ⟨-, -, hzero, -⟩ | ⟨node, hnode, hchange⟩ := step_node hs hnode'
  · omega
  · have hlt : node.load + n < uint64Max + s.jobs i := h i node hnode
    generalize node.online = on, node.load = load, s.jobs i = jobs, node'.online = on',
      node'.load = load', s'.jobs i = jobs' at hchange hlt ⊢
    cases hchange <;> omega

end DispatchState

namespace ManagerState

/-- The balancer with the jobs in flight. -/
def dispatch (s : ManagerState) : DispatchState := ⟨s.bal, s.threads.flatMap JudgeThread.inFlight⟩

/-- A thread moves on, and so do the jobs in flight. -/
theorem jobs_goOn {s : ManagerState} {k : Nat} {old : JudgeThread} (h : s.threads[k]? = some old)
    (bal : JudgeWorkerBalancer) (new : JudgeThread) (i : Nat) :
    (s.goOn k bal new).dispatch.jobs i + old.inFlight.count i =
      s.dispatch.jobs i + new.inFlight.count i :=
  Counting.count_flatMap_set h new i

theorem dispatch_release {s : ManagerState} {k id : Nat} {registered : Bool}
    (hold : s.threads[k]? = some (.dispatched id registered)) :
    ∃ d, DispatchState.step s.dispatch (.releaseWorkerLoad id) = some d ∧
      d.bal = s.bal.releaseWorkerLoad id ∧
      ∀ bal new i, new.inFlight = [] → d.jobs i = (s.goOn k bal new).dispatch.jobs i := by
  have hmem : id ∈ s.dispatch.inFlight :=
    List.mem_flatMap.mpr ⟨_, List.mem_of_getElem? hold, List.mem_singleton_self id⟩
  refine ⟨_, if_pos hmem, rfl, fun bal new i hnew => ?_⟩
  have hcount := jobs_goOn hold bal new i
  have herase := DispatchState.jobs_erase s.dispatch (s.bal.releaseWorkerLoad id) hmem i
  rw [hnew] at hcount
  simp only [JudgeThread.inFlight, List.count_nil, List.count_singleton, beq_iff_eq] at hcount
  have hsame : s.dispatch.bal = s.bal := rfl
  rw [hsame]
  omega

/-- **The manager implements the balancer with its jobs in flight**: an action changes neither the
balancer nor the jobs in flight, or it does what one call does. -/
theorem dispatch_of_step {s s' : ManagerState} {a : ManagerAction} (h : s.step a = some s') :
    (s'.bal = s.bal ∧ ∀ i, s'.dispatch.jobs i = s.dispatch.jobs i) ∨
      ∃ call d, DispatchState.step s.dispatch call = some d ∧ d.bal = s'.bal ∧
        ∀ i, d.jobs i = s'.dispatch.jobs i := by
  rcases step_cases h with ⟨cfg, rfl⟩ | ⟨k, old, new, -, hold, hmove, rfl⟩
  · obtain rfl := Option.some.inj h
    refine .inr ⟨.upsertWorker cfg, _, rfl, rfl, fun i => ?_⟩
    simp only [dispatch, DispatchState.jobs, List.flatMap_map, JudgeThread.inFlight_note]
  · have hjobs := fun bal i => jobs_goOn hold bal new i
    cases hmove with
    | aside a old new hjob hbefore hafter =>
      -- a probe, or nothing: no job comes or goes
      have hsame : ∀ bal i, (s.goOn k bal new).dispatch.jobs i = s.dispatch.jobs i := by
        intro bal i
        have hcount := hjobs bal i
        rw [JudgeThread.inFlight_of_worker hbefore, JudgeThread.inFlight_of_worker hafter] at hcount
        exact hcount
      cases hcall : s.callOf a with
      | none => exact .inl ⟨rfl, hsame _⟩
      | some call =>
        cases call with
        | markOnline id => exact .inr ⟨.markOnline id, _, rfl, rfl, fun i => (hsame _ i).symm⟩
        | markOffline id => exact .inr ⟨.markOffline id, _, rfl, rfl, fun i => (hsame _ i).symm⟩
        | upsertWorker cfg => exact .inr ⟨.upsertWorker cfg, _, rfl, rfl, fun i => (hsame _ i).symm⟩
        | selectWorker | releaseWorkerLoad id =>
          cases a with
          | select | reply | fail => cases hjob
          | settle k =>
            simp only [callOf] at hcall
            split at hcall <;> cases hcall
          | _ => cases hcall
    | noWorker hsel =>
      refine .inl ⟨?_, fun i => hjobs _ i⟩
      simp only [goOn, callOf, Option.elim_some, call, hsel]
      rfl
    | selected sel b' hsel =>
      refine .inr ⟨.selectWorker, ⟨b', sel.id :: s.dispatch.inFlight⟩, ?_, ?_, fun i => ?_⟩
      · have hdispatch : s.dispatch.bal.selectWorker = some (sel, b') := hsel
        simp only [DispatchState.step, hdispatch]
      · simp only [goOn, callOf, Option.elim_some, call, hsel]
        rfl
      · have hcount := hjobs ((s.callOf (.select k)).elim s.bal s.bal.call) i
        rw [DispatchState.jobs_cons]
        simp only [JudgeThread.inFlight, List.count_nil, List.count_singleton, beq_iff_eq] at hcount
        omega
    | finished id registered | refused id registered =>
      obtain ⟨d, hcall, hbal, hjobs⟩ := dispatch_release hold
      refine .inr ⟨.releaseWorkerLoad id, d, hcall, ?_, fun i => hjobs _ _ i rfl⟩
      simp only [goOn, callOf, hold]
      exact hbal
    | gaveUp id registered =>
      refine .inr ⟨.markOffline id, _, rfl, ?_, fun i => (hjobs _ i).symm⟩
      simp only [goOn, callOf, hold]
      rfl

/-- **The threads cannot bring a counter to the largest value**: there is room for all of them above
every counter, and there are not too many of them. -/
structure HasRoom (s : ManagerState) : Prop where
  threads : s.threads.length < uint64Max
  room : s.dispatch.Room s.threads.length

/-- There are not more jobs in flight than threads. -/
theorem jobs_le_length (s : ManagerState) (i : Nat) : s.dispatch.jobs i ≤ s.threads.length := by
  refine Counting.count_flatMap_le (fun thread => ?_) s.threads i
  cases thread with
  | dispatched => exact Nat.le_refl 1
  | _ => exact Nat.zero_le 1

theorem HasRoom.load_lt {s : ManagerState} (h : s.HasRoom) {i : Nat} {node : WorkerNode}
    (hnode : s.bal.nodes[i]? = some node) : node.load < uint64Max := by
  have hroom : node.load + s.threads.length < uint64Max + s.dispatch.jobs i := h.room i node hnode
  have hjobs := s.jobs_le_length i
  omega

theorem length_threads_of_step {s s' : ManagerState} {a : ManagerAction} (h : s.step a = some s') :
    s'.threads.length = s.threads.length := by
  rcases step_cases h with ⟨cfg, rfl⟩ | ⟨k, old, new, -, -, -, rfl⟩
  · obtain rfl := Option.some.inj h
    exact List.length_map _
  · exact List.length_set

theorem HasRoom.step {s s' : ManagerState} {a : ManagerAction} (h : s.HasRoom)
    (hs : s.step a = some s') : s'.HasRoom := by
  have hlength := length_threads_of_step hs
  refine ⟨hlength ▸ h.threads, ?_⟩
  rw [hlength]
  intro i node hnode
  have hnode : s'.bal.nodes[i]? = some node := hnode
  rcases dispatch_of_step hs with ⟨hbal, hjobs⟩ | ⟨call, d, hcall, hbal, hjobs⟩
  · rw [hbal] at hnode
    rw [hjobs]
    exact h.room i node hnode
  · rw [← hbal] at hnode
    rw [← hjobs]
    exact h.room.step h.threads hcall i node hnode

/-- **Every state of a manager has room** if it has fewer than `2 ^ 64 - 1` threads: a counter goes
up once for each job in flight, and a thread has one at a time. -/
theorem hasRoom_of_exec {threads : Nat} (hthreads : threads < uint64Max) {as : List ManagerAction}
    {s : ManagerState} (h : Transition.exec step (initial threads) as = some s) : s.HasRoom := by
  refine Transition.exec_invariant (fun _ _ _ hi hs => HasRoom.step hi hs) ⟨?_, ?_⟩ h
  · rwa [initial, List.length_replicate]
  · intro i node hnode
    cases hnode

end ManagerState

/-! ## 3. A call of `ExecuteJob`

The loop of one thread, run along with all the others.  Its record of the attempts is no part of the
program. -/

/-- What became of an attempt: the state in which no worker could be found, or the worker that the
job went to. -/
inductive Attempt
  /-- `SelectWorker` returned false, in this state. -/
  | noWorker (bal : JudgeWorkerBalancer)
  /-- The job was sent to this worker. -/
  | sent (id : Nat)

/-- The worker of an attempt. -/
def Attempt.worker : Attempt → Option Nat
  | noWorker _ => none
  | sent id => some id

/-- A call of `ExecuteJob`: the manager around it, the loop variable, what it has returned, and its
attempts so far. -/
structure JobCall where
  sys : ManagerState
  attempt : Nat
  returned : Option Bool
  attempts : List Attempt

namespace JobCall

/-- The loop is entered once more, or `ExecuteJob` gives up. -/
def loopTest (retryCount : Int) (attempt : Nat) : Option Bool :=
  if (attempt : Int) < retryCount then none else some false

/-- `ExecuteJob` begins. -/
def enter (remoteMode : Bool) (retryCount : Int) (sys : ManagerState) : JobCall :=
  ⟨sys, 0, if !remoteMode then some false else loopTest retryCount 0, []⟩

/-- `ExecuteRemotely` has returned false. -/
def again (retryCount : Int) (c : JobCall) (sys : ManagerState) (attempts : List Attempt) :
    JobCall :=
  ⟨sys, c.attempt + 1, loopTest retryCount (c.attempt + 1), attempts⟩

/-- The thread that makes the call moves on, and leaves the manager as `sys`. -/
def advance (retryCount : Int) (c : JobCall) (sys : ManagerState) : ManagerAction → JobCall
  | .select _ =>
    match c.sys.bal.selectWorker with
    | none => c.again retryCount sys (c.attempts ++ [.noWorker c.sys.bal])
    | some (sel, _) => { c with sys := sys, attempts := c.attempts ++ [.sent sel.id] }
  | .reply _ true => { c with sys := sys, returned := some true }
  | .fail _ => c.again retryCount sys c.attempts
  | _ => { c with sys := sys }

/-- An action of any thread; `k` makes the call, and what it does when the call is over is not
part of it. -/
def step (k : Nat) (retryCount : Int) (c : JobCall) (a : ManagerAction) : Option JobCall :=
  if ManagerState.actor a = some k then
    if c.returned.isSome then none
    else (c.sys.step a).map fun sys => c.advance retryCount sys a
  else (c.sys.step a).map fun sys => { c with sys := sys }

/-- The workers the job has been sent to. -/
def workers (c : JobCall) : List Nat := c.attempts.filterMap Attempt.worker

/-- No registration and no `MarkOnline`. -/
def NoComeback (c : JobCall) (a : ManagerAction) : Prop := c.sys.NoComeback a

instance (c : JobCall) (a : ManagerAction) : Decidable (c.NoComeback a) :=
  inferInstanceAs (Decidable (c.sys.NoComeback a))

/-! ## 4. Where the job is

The invariant ties each attempt to the state of the worker it went to.  The worker of an attempt
that is over stays off, since nothing brings one back. -/

end JobCall

namespace ManagerState

/-- The worker thread `k` is busy with. -/
def workerOf (s : ManagerState) (k : Nat) : Option Nat := s.threads[k]?.bind JudgeThread.worker

theorem workerOf_goOn {s : ManagerState} {k : Nat} {old thread : JudgeThread}
    (h : s.threads[k]? = some old) (bal : JudgeWorkerBalancer) :
    (s.goOn k bal thread).workerOf k = thread.worker := by
  have hlt : k < s.threads.length := (List.getElem?_eq_some_iff.mp h).1
  rw [workerOf, goOn, List.getElem?_set_self hlt]
  rfl

theorem workerOf_goOn_of_ne {s : ManagerState} {j k : Nat} (hne : j ≠ k)
    (bal : JudgeWorkerBalancer) (thread : JudgeThread) :
    (s.goOn j bal thread).workerOf k = s.workerOf k := by
  rw [workerOf, goOn, List.getElem?_set_ne hne]
  rfl

/-- A worker in the list stays in it. -/
theorem lt_length_elim_call {b : JudgeWorkerBalancer} {id : Nat} (h : id < b.nodes.length)
    (c : Option BalancerCall) : id < (c.elim b b.call).nodes.length := by
  cases c with
  | none => exact h
  | some call =>
    have hle := (b.prefix_endpoints_after [call]).length_le
    rw [length_endpoints, length_endpoints] at hle
    exact Nat.lt_of_lt_of_le h hle

end ManagerState

namespace Attempt

/-- Why an attempt came to nothing, when the balancer is `bal` by now: no worker was online, or its
worker has been marked offline. -/
def Excused (bal : JudgeWorkerBalancer) : Attempt → Prop
  | noWorker seen => ∀ node ∈ seen.nodes, node.online = false
  | sent id => ManagerState.Off bal id

end Attempt

namespace JobCall

/-- **The invariant of a call** by thread `k`.  While it has not been successful, each of its
workers is off, but for the one the thread is busy with. -/
structure Inv (k : Nat) (retryCount : Int) (c : JobCall) : Prop where
  distinct : c.workers.Nodup
  excused : c.returned ≠ some true → ∀ attempt ∈ c.attempts,
    attempt.Excused c.sys.bal ∨ ∃ id, attempt = .sent id ∧ c.sys.workerOf k = some id
  counted : c.returned ≠ some true →
    c.attempts.length = c.attempt + if (c.sys.workerOf k).isSome then 1 else 0
  busy : ∀ id, c.sys.workerOf k = some id → id < c.sys.bal.nodes.length
  loop : c.returned ≠ some true →
    c.attempt ≤ retryCount.toNat ∧ c.returned = loopTest retryCount c.attempt
  ended : c.returned = some false → c.sys.workerOf k = none

theorem loopTest_eq_none {retryCount : Int} {attempt : Nat} :
    loopTest retryCount attempt = none ↔ (attempt : Int) < retryCount := by
  unfold loopTest
  split <;> simp_all

theorem Inv.all_attempts {k : Nat} {retryCount : Int} {c : JobCall} (h : Inv k retryCount c)
    (hreturned : c.returned = some false) : c.attempts.length = retryCount.toNat := by
  have hne : c.returned ≠ some true := by simp [hreturned]
  have hlength := h.counted hne
  obtain ⟨hle, htest⟩ := h.loop hne
  have hnot : ¬ (c.attempt : Int) < retryCount := by
    intro hlt
    rw [hreturned, loopTest_eq_none.mpr hlt] at htest
    cases htest
  rw [h.ended hreturned] at hlength
  simp only [Option.isSome_none, Bool.false_eq_true, if_false, Nat.add_zero] at hlength
  omega

/-- The worker of an attempt that is over is off. -/
theorem Inv.off {k : Nat} {retryCount : Int} {c : JobCall} (h : Inv k retryCount c)
    (hreturned : c.returned ≠ some true) {id : Nat} (hid : id ∈ c.workers) :
    ManagerState.Off c.sys.bal id ∨ c.sys.workerOf k = some id := by
  obtain ⟨attempt, hmem, hworker⟩ := List.mem_filterMap.mp hid
  cases attempt with
  | noWorker seen => cases hworker
  | sent i =>
    obtain rfl := Option.some.inj hworker
    rcases h.excused hreturned _ hmem with hoff | ⟨j, hj, hbusy⟩
    · exact Or.inl hoff
    · obtain rfl := Attempt.sent.inj hj
      exact Or.inr hbusy

/-- An attempt stays excused by what other threads do to the balancer, unless one of the calls
brings a worker back. -/
theorem excused_of_call {b : JudgeWorkerBalancer} {c : Option BalancerCall} {attempt : Attempt}
    (h : attempt.Excused b) (hc : ∀ call ∈ c, call.revives = false) :
    attempt.Excused (c.elim b b.call) := by
  cases attempt with
  | noWorker seen => exact h
  | sent id => exact ManagerState.Off.elim_call h hc

/-- A step that leaves the call where it is. -/
theorem Inv.frame {k : Nat} {retryCount : Int} {c : JobCall} (h : Inv k retryCount c)
    {sys : ManagerState} {call : Option BalancerCall} (hc : ∀ b ∈ call, b.revives = false)
    (hbal : sys.bal = call.elim c.sys.bal c.sys.bal.call)
    (hworker : sys.workerOf k = c.sys.workerOf k) : Inv k retryCount { c with sys := sys } where
  distinct := h.distinct
  excused := by
    intro hreturned attempt hmem
    rcases h.excused hreturned attempt hmem with hex | ⟨id, heq, hbusy⟩
    · exact Or.inl (hbal ▸ excused_of_call hex hc)
    · exact Or.inr ⟨id, heq, hworker ▸ hbusy⟩
  counted := by
    intro hreturned
    rw [hworker]
    exact h.counted hreturned
  busy := by
    intro id hid
    rw [hbal]
    exact ManagerState.lt_length_elim_call (h.busy id (hworker ▸ hid)) call
  loop := h.loop
  ended := by
    intro hreturned
    rw [hworker]
    exact h.ended hreturned

/-- An attempt is over, and the thread is busy with nothing. -/
theorem Inv.again {k : Nat} {retryCount : Int} {c : JobCall} (h : Inv k retryCount c)
    (hreturned : c.returned = none) {sys : ManagerState} {attempts : List Attempt}
    (hdistinct : (attempts.filterMap Attempt.worker).Nodup)
    (hexcused : ∀ attempt ∈ attempts, attempt.Excused sys.bal)
    (hlength : attempts.length = c.attempt + 1) (hworker : sys.workerOf k = none) :
    Inv k retryCount (c.again retryCount sys attempts) where
  distinct := hdistinct
  excused := fun _ attempt hmem => Or.inl (hexcused attempt hmem)
  counted := by
    intro _
    simp only [JobCall.again, hworker]
    exact hlength
  busy := by
    intro id hid
    simp only [JobCall.again, hworker] at hid
    cases hid
  loop := by
    intro _
    have hgoing := (h.loop (by simp [hreturned])).2
    have hlt : (c.attempt : Int) < retryCount := loopTest_eq_none.mp (hgoing ▸ hreturned)
    exact ⟨by simp only [JobCall.again]; omega, rfl⟩
  ended := fun _ => hworker

/-- The thread selects, and there is nobody. -/
theorem Inv.noWorker {k : Nat} {retryCount : Int} {c : JobCall} (h : Inv k retryCount c)
    (hroom : c.sys.HasRoom) (hreturned : c.returned = none) (hworker : c.sys.workerOf k = none)
    (hsel : c.sys.bal.selectWorker = none) {sys : ManagerState}
    (hbal : sys.bal = c.sys.bal.call .selectWorker) (hnew : sys.workerOf k = none) :
    Inv k retryCount (c.again retryCount sys (c.attempts ++ [.noWorker c.sys.bal])) := by
  have hne : c.returned ≠ some true := by simp [hreturned]
  have hsame : sys.bal = c.sys.bal := by
    rw [hbal, JudgeWorkerBalancer.call, hsel]
    rfl
  refine h.again hreturned ?_ (fun attempt hmem => ?_) ?_ hnew
  · rw [List.filterMap_append]
    exact (List.append_nil c.workers).symm ▸ h.distinct
  · rw [hsame]
    rcases List.mem_append.mp hmem with hmem | hmem
    · rcases h.excused hne attempt hmem with hex | ⟨id, -, hbusy⟩
      · exact hex
      · rw [hworker] at hbusy
        cases hbusy
    · rw [List.mem_singleton.mp hmem]
      intro node hnode
      obtain ⟨i, hi⟩ := List.mem_iff_getElem?.mp hnode
      have hnot := selectWorker_eq_none_iff.mp hsel i
      by_contra hon
      rw [Bool.not_eq_false] at hon
      rw [candidate_iff.mpr ⟨node, hi, hon, hroom.load_lt hi⟩] at hnot
      cases hnot
  · have hlength := h.counted hne
    rw [hworker] at hlength
    simpa using hlength

/-- The thread selects a worker: that is a new one. -/
theorem Inv.selected {k : Nat} {retryCount : Int} {c : JobCall} (h : Inv k retryCount c)
    (hreturned : c.returned = none) (hworker : c.sys.workerOf k = none) {sel : Selection}
    {b' : JudgeWorkerBalancer} (hsel : c.sys.bal.selectWorker = some (sel, b'))
    {sys : ManagerState} (hbal : sys.bal = c.sys.bal.call .selectWorker)
    (hnew : sys.workerOf k = some sel.id) :
    Inv k retryCount { c with sys := sys, attempts := c.attempts ++ [.sent sel.id] } := by
  have hne : c.returned ≠ some true := by simp [hreturned]
  obtain ⟨node, hnode, hon, -⟩ := selectWorker_cases hsel
  have hfresh : sel.id ∉ c.workers := by
    intro hmem
    rcases h.off hne hmem with ⟨other, hother, hoff⟩ | hbusy
    · rw [hnode] at hother
      rw [← Option.some.inj hother, hon] at hoff
      cases hoff
    · rw [hworker] at hbusy
      cases hbusy
  exact {
    distinct := by
      simp only [workers, List.filterMap_append, List.nodup_append]
      refine ⟨h.distinct, List.pairwise_singleton _ _, fun id hid other hother => ?_⟩
      rintro rfl
      rw [List.mem_singleton.mp hother] at hid
      exact hfresh hid
    excused := by
      intro _ attempt hmem
      rcases List.mem_append.mp hmem with hmem | hmem
      · rcases h.excused hne attempt hmem with hex | ⟨id, -, hbusy⟩
        · have hlater :=
            excused_of_call (c := some .selectWorker) hex (by simp [BalancerCall.revives])
          exact Or.inl (hbal ▸ hlater)
        · rw [hworker] at hbusy
          cases hbusy
      · exact Or.inr ⟨sel.id, List.mem_singleton.mp hmem, hnew⟩
    counted := by
      intro _
      have hlength := h.counted hne
      rw [hworker] at hlength
      simpa [hnew] using hlength
    busy := by
      intro id hid
      obtain rfl := Option.some.inj (hnew.symm.trans hid)
      have hlt : sel.id < c.sys.bal.nodes.length := (List.getElem?_eq_some_iff.mp hnode).1
      exact hbal ▸ ManagerState.lt_length_elim_call hlt (some .selectWorker)
    loop := h.loop
    ended := by
      intro hover
      rw [hreturned] at hover
      cases hover }

/-- The request has failed: the worker is off, and the attempt is over. -/
theorem Inv.gaveUp {k : Nat} {retryCount : Int} {c : JobCall} (h : Inv k retryCount c)
    (hreturned : c.returned = none) {id : Nat} (hworker : c.sys.workerOf k = some id)
    {sys : ManagerState} (hbal : sys.bal = c.sys.bal.markOffline id)
    (hnew : sys.workerOf k = none) : Inv k retryCount (c.again retryCount sys c.attempts) := by
  have hne : c.returned ≠ some true := by simp [hreturned]
  refine h.again hreturned h.distinct (fun attempt hmem => ?_) ?_ hnew
  · rw [hbal]
    rcases h.excused hne attempt hmem with hex | ⟨i, rfl, hbusy⟩
    · exact excused_of_call (c := some (.markOffline id)) hex (by simp [BalancerCall.revives])
    · obtain rfl := Option.some.inj (hworker.symm.trans hbusy)
      exact ManagerState.off_markOffline (h.busy id hworker)
  · have hlength := h.counted hne
    rw [hworker] at hlength
    exact hlength

/-- A step around no job leaves the call where it is. -/
theorem advance_aside (retryCount : Int) (c : JobCall) (sys : ManagerState) {a : ManagerAction}
    (h : ManagerState.takesJob a = false) : c.advance retryCount sys a = { c with sys := sys } := by
  cases a with
  | select k => cases h
  | reply k ok => cases h
  | fail k => cases h
  | _ => rfl

theorem sys_advance (retryCount : Int) (c : JobCall) (sys : ManagerState) (a : ManagerAction) :
    (c.advance retryCount sys a).sys = sys := by
  cases a with
  | select k =>
    simp only [advance]
    split <;> rfl
  | reply k ok => cases ok <;> rfl
  | _ => rfl

/-- **The step lemma**: an action of any thread keeps what is known of the job's attempts, as long
as no worker comes back. -/
theorem Inv.step {k : Nat} {retryCount : Int} {c c' : JobCall} {a : ManagerAction}
    (h : Inv k retryCount c) (hroom : c.sys.HasRoom) (hcome : c.NoComeback a)
    (hs : JobCall.step k retryCount c a = some c') : Inv k retryCount c' := by
  have hregister : ∀ cfg, a ≠ .register cfg := by
    rintro cfg rfl
    cases hcome _ rfl
  rw [JobCall.step] at hs
  split at hs
  · rename_i hactor
    split at hs
    · cases hs
    · rename_i hsome
      have hreturned : c.returned = none := Option.not_isSome_iff_eq_none.mp hsome
      have hne : c.returned ≠ some true := by simp [hreturned]
      obtain ⟨sys, hsys, rfl⟩ := Option.map_eq_some_iff.mp hs
      rcases ManagerState.step_cases hsys with ⟨cfg, rfl⟩ | ⟨j, old, new, hj, hold, hmove, rfl⟩
      · exact absurd rfl (hregister cfg)
      · obtain rfl : j = k := Option.some.inj (hj.symm.trans hactor)
        have hworker : c.sys.workerOf j = old.worker := by
          rw [ManagerState.workerOf, hold]
          rfl
        have hnext : ∀ bal, (c.sys.goOn j bal new).workerOf j = new.worker :=
          fun bal => ManagerState.workerOf_goOn hold bal
        cases hmove with
        | aside a old new hjob hbefore hafter =>
          rw [advance_aside retryCount c _ hjob]
          exact h.frame hcome rfl (by rw [hnext, hafter, hworker, hbefore])
        | noWorker hsel =>
          simp only [advance, hsel]
          exact h.noWorker hroom hreturned hworker hsel rfl (hnext _)
        | selected sel b' hsel =>
          simp only [advance, hsel]
          exact h.selected hreturned hworker hsel rfl (hnext _)
        | finished id registered =>
          simp only [advance]
          exact {
            distinct := h.distinct
            excused := fun hover => absurd rfl hover
            counted := fun hover => absurd rfl hover
            busy := by
              intro id hid
              rw [hnext] at hid
              cases hid
            loop := fun hover => absurd rfl hover
            ended := by
              intro hover
              cases hover }
        | refused id registered =>
          exact h.frame hcome rfl (by rw [hnext, hworker]; rfl)
        | gaveUp id registered =>
          refine h.gaveUp hreturned hworker ?_ (hnext _)
          simp [ManagerState.callOf, hold, ManagerState.goOn, JudgeWorkerBalancer.call]
  · rename_i hactor
    obtain ⟨sys, hsys, rfl⟩ := Option.map_eq_some_iff.mp hs
    rcases ManagerState.step_cases hsys with ⟨cfg, rfl⟩ | ⟨j, old, new, hj, hold, hmove, rfl⟩
    · exact absurd rfl (hregister cfg)
    · have hjk : j ≠ k := by
        rintro rfl
        exact hactor hj
      exact h.frame hcome rfl (ManagerState.workerOf_goOn_of_ne hjk _ _)

theorem inv_enter {k : Nat} {sys : ManagerState} (retryCount : Int)
    (hidle : sys.threads[k]? = some .idle) : Inv k retryCount (enter true retryCount sys) := by
  have hworker : sys.workerOf k = none := by
    rw [ManagerState.workerOf, hidle]
    rfl
  exact {
    distinct := List.nodup_nil
    excused := by simp [enter]
    counted := by simp [enter, hworker]
    busy := by simp [enter, hworker]
    loop := by simp [enter]
    ended := fun _ => hworker }

/-- The manager of a call takes a step of its own. -/
theorem sys_of_step {k : Nat} {retryCount : Int} {c c' : JobCall} {a : ManagerAction}
    (hs : JobCall.step k retryCount c a = some c') : c.sys.step a = some c'.sys := by
  rw [JobCall.step] at hs
  split at hs
  · split at hs
    · cases hs
    · obtain ⟨sys, hsys, rfl⟩ := Option.map_eq_some_iff.mp hs
      rw [hsys, sys_advance]
  · obtain ⟨sys, hsys, rfl⟩ := Option.map_eq_some_iff.mp hs
    exact hsys

/-- **A retry goes to another worker.**  Thread `k` calls `ExecuteJob` in any state, other threads
take any steps in between, and nothing brings a worker back.  The workers of the call are pairwise
different; and if it has returned false, it has made all its attempts, and each of them found no
online worker or failed on one that is off.  That the state has room is no assumption about the
code: every state that a manager reaches has (`ManagerState.hasRoom_of_exec`). -/
theorem retries_elsewhere (k : Nat) (retryCount : Int) (sys : ManagerState) (hroom : sys.HasRoom)
    (as : List ManagerAction) (t : JobCall) (hidle : sys.threads[k]? = some .idle)
    (hcome : Transition.Along (step k retryCount) NoComeback (enter true retryCount sys) as)
    (hrun : Transition.exec (step k retryCount) (enter true retryCount sys) as = some t) :
    t.workers.Nodup ∧
      (t.returned = some false →
        t.attempts.length = retryCount.toNat ∧
          ∀ attempt ∈ t.attempts, attempt.Excused t.sys.bal) := by
  have hinv : Inv k retryCount t ∧ t.sys.HasRoom :=
    Transition.exec_invariant_along (I := fun c => Inv k retryCount c ∧ c.sys.HasRoom)
      (fun _ _ _ hi hc hs => ⟨hi.1.step hi.2 hc hs, hi.2.step (sys_of_step hs)⟩)
      ⟨inv_enter retryCount hidle, hroom⟩ hcome hrun
  refine ⟨hinv.1.distinct, fun hreturned => ⟨hinv.1.all_attempts hreturned, ?_⟩⟩
  intro attempt hmem
  rcases hinv.1.excused (by simp [hreturned]) attempt hmem with hex | ⟨id, -, hbusy⟩
  · exact hex
  · rw [hinv.1.ended hreturned] at hbusy
    cases hbusy

/-- Two workers; thread 0 makes the call, and thread 1 fails on the second worker. -/
def twoWorkers : ManagerState :=
  ⟨⟨[⟨DispatchState.sampleWorker 9001, 0, true⟩, ⟨DispatchState.sampleWorker 9002, 0, true⟩], 0⟩,
    [.idle, .failed 1 false]⟩

/-- How that state came about: the workers registered, and thread 1 had a job on the second. -/
theorem hasRoom_twoWorkers : twoWorkers.HasRoom := by
  have hthreads : 2 < uint64Max := by decide
  have hrun : Transition.exec ManagerState.step (ManagerState.initial 2)
      [.register (DispatchState.sampleWorker 9001), .register (DispatchState.sampleWorker 9002),
        .begin 0 false, .select 0, .begin 1 false, .select 1, .reply 0 true, .reply 1 false] =
      some twoWorkers := by decide
  exact ManagerState.hasRoom_of_exec hthreads hrun

theorem retries_elsewhere_twoWorkers :
    Transition.Along (step 0 2) NoComeback (enter true 2 twoWorkers)
      [.begin 0 false, .select 0, .reply 0 false, .fail 0, .begin 0 false, .fail 1, .select 0] ∧
    ∃ t, Transition.exec (step 0 2) (enter true 2 twoWorkers)
        [.begin 0 false, .select 0, .reply 0 false, .fail 0, .begin 0 false, .fail 1, .select 0] =
          some t ∧ t.returned = some false ∧ t.workers = [0] ∧ t.attempts.length = 2 := by
  have hcome : Transition.Along (step 0 2) NoComeback (enter true 2 twoWorkers)
      [.begin 0 false, .select 0, .reply 0 false, .fail 0, .begin 0 false, .fail 1, .select 0] := by
    decide
  have hrun := (rfl : Transition.exec (step 0 2) (enter true 2 twoWorkers)
    [.begin 0 false, .select 0, .reply 0 false, .fail 0, .begin 0 false, .fail 1, .select 0] = _)
  refine ⟨hcome, _, hrun, rfl, rfl, ?_⟩
  exact ((retries_elsewhere 0 2 twoWorkers hasRoom_twoWorkers _ _ rfl hcome hrun).2 rfl).1

end JobCall

end OnlineJudge.Judge
