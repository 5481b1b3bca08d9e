/-
# A registration against failures that are older than it

A worker registers once, when it starts (`judge_worker_server.cpp`), and `UpsertWorker` puts it
online.  Meanwhile judge threads dispatch to it and probe it (`judge_manager.cpp`), and a request
can fail long after it was sent: to the process that ran before the restart.  What follows is
reported by the id of the node alone.

A thread gives up the mutex of the balancer between two calls, and anything can happen there: a
`JudgeThread` is the point a thread is at, and each action one call.  Whether the worker has
registered since the request was sent is recorded with the request.

* `survives_iff_spared`: along any run, a registration survives the failures older than it exactly
  when each of them is that of a probe that has seen the node offline, before the node came back.
  A failed dispatch always takes the worker off.
* `offline_of_quiet`: without probes a worker that was taken off so is never selected again,
  until it registers once more.
-/
import OnlineJudge.Judge.Balancer
import OnlineJudge.Judge.Dispatch

namespace OnlineJudge.Judge

open JudgeWorkerBalancer

/-! ## 1. The threads

A thread holds the id of the worker it deals with, and a flag that is no part of the source: whether
that worker has registered since the request was sent.  Everything else is the thread's place in its
code. -/

/-- Where a judge thread is, with the worker its request went to and whether that has registered
since. -/
inductive JudgeThread
  | idle
  /-- `HealthCheck` of this worker; `rest` is what is left of `to_probe`. -/
  | probing (id : Nat) (rest : List Nat) (registered : Bool)
  /-- `HealthCheck` has returned. -/
  | checked (id : Nat) (rest : List Nat) (healthy registered : Bool)
  /-- `GetWorker` has read the node again. -/
  | reread (id : Nat) (rest : List Nat) (healthy online registered : Bool)
  /-- Behind `ProbeWorkersIfNeeded`. -/
  | selecting
  /-- `SendHttpJson` of a job. -/
  | dispatched (id : Nat) (registered : Bool)
  /-- The job has failed and its load is released. -/
  | failed (id : Nat) (registered : Bool)
deriving DecidableEq

namespace JudgeThread

/-- Worker `id` has registered: every thread that deals with it notes that. -/
def note (id : Nat) : JudgeThread → JudgeThread
  | probing i rest registered => probing i rest (registered || i == id)
  | checked i rest healthy registered => checked i rest healthy (registered || i == id)
  | reread i rest healthy online registered =>
    reread i rest healthy online (registered || i == id)
  | dispatched i registered => dispatched i (registered || i == id)
  | failed i registered => failed i (registered || i == id)
  | idle => idle
  | selecting => selecting

/-- The loop of `ProbeWorkersIfNeeded` goes on. -/
def probeNext : List Nat → JudgeThread
  | [] => selecting
  | id :: rest => probing id rest false

/-- The thread is inside `ProbeWorkersIfNeeded`. -/
def probes : JudgeThread → Bool
  | probing .. | checked .. | reread .. => true
  | _ => false

theorem probes_note (id : Nat) (thread : JudgeThread) :
    (thread.note id).probes = thread.probes := by
  cases thread <;> rfl

end JudgeThread

/-- The balancer and the judge threads. -/
structure ManagerState where
  bal : JudgeWorkerBalancer
  threads : List JudgeThread
deriving DecidableEq

/-- One call of the balancer, with what the environment contributes; `k` is the thread. -/
inductive ManagerAction
  /-- `RegisterWorker`. -/
  | register (cfg : JudgeWorkerConfig)
  /-- `ExecuteRemotely` begins, and probes are `due` or not. -/
  | begin (k : Nat) (due : Bool)
  | health (k : Nat) (healthy : Bool)
  | look (k : Nat)
  | settle (k : Nat)
  | select (k : Nat)
  /-- The request has come back, with the status 200 or not. -/
  | reply (k : Nat) (ok : Bool)
  | fail (k : Nat)

namespace ManagerState

/-- No worker has registered and no job is under way. -/
def initial (threads : Nat) : ManagerState :=
  ⟨JudgeWorkerBalancer.empty, List.replicate threads .idle⟩

/-- Thread `k` moves on, and the balancer is this. -/
def goOn (s : ManagerState) (k : Nat) (bal : JudgeWorkerBalancer) (thread : JudgeThread) :
    ManagerState :=
  ⟨bal, s.threads.set k thread⟩

/-- What a probe does with what it knows: a worker that was online and does not answer is taken off,
and one that was offline and answers is brought back. -/
def settleProbe (bal : JudgeWorkerBalancer) (id : Nat) (healthy online : Bool) :
    JudgeWorkerBalancer :=
  if healthy then if !online then bal.markOnline id else bal
  else if online then bal.markOffline id else bal

/-- The calls as actions.  An action needs its thread at the point before it. -/
def step (s : ManagerState) : ManagerAction → Option ManagerState
  | .register cfg =>
    let (bal, id, _) := s.bal.upsertWorker cfg
    some ⟨bal, s.threads.map (JudgeThread.note id)⟩
  | .begin k due =>
    match s.threads[k]? with
    | some .idle =>
      -- `Snapshot`, or no probes for now
      some (s.goOn k s.bal
        (if due then .probeNext (List.range s.bal.nodes.length) else .selecting))
    | _ => none
  | .health k healthy =>
    match s.threads[k]? with
    | some (.probing id rest registered) =>
      some (s.goOn k s.bal (.checked id rest healthy registered))
    | _ => none
  | .look k =>
    match s.threads[k]? with
    | some (.checked id rest healthy registered) =>
      match s.bal.nodes[id]? with
      | none => some (s.goOn k s.bal (.probeNext rest))
      | some node => some (s.goOn k s.bal (.reread id rest healthy node.online registered))
    | _ => none
  | .settle k =>
    match s.threads[k]? with
    | some (.reread id rest healthy online _) =>
      some (s.goOn k (settleProbe s.bal id healthy online) (.probeNext rest))
    | _ => none
  | .select k =>
    match s.threads[k]? with
    | some .selecting =>
      match s.bal.selectWorker with
      | none => some (s.goOn k s.bal .idle)
      | some (sel, bal) => some (s.goOn k bal (.dispatched sel.id false))
    | _ => none
  | .reply k ok =>
    match s.threads[k]? with
    | some (.dispatched id registered) =>
      some (s.goOn k (s.bal.releaseWorkerLoad id) (if ok then .idle else .failed id registered))
    | _ => none
  | .fail k =>
    match s.threads[k]? with
    | some (.failed id _) => some (s.goOn k (s.bal.markOffline id) .idle)
    | _ => none

/-- The worker is online. -/
def online (s : ManagerState) (id : Nat) : Bool := s.bal.nodes[id]?.any WorkerNode.online

/-! ## 2. Failures older than a registration

Such a failure says nothing of the worker as it is now.  The property is that the worker is still
online after it, and the condition says when the code lets it be. -/

/-- The action ends the handling of a failure, and this worker has registered since the request was
sent to it. -/
def staleFailure (s : ManagerState) : ManagerAction → Option Nat
  | .fail k =>
    match s.threads[k]? with
    | some (.failed id true) => some id
    | _ => none
  | .settle k =>
    match s.threads[k]? with
    | some (.reread id _ false _ true) => some id
    | _ => none
  | _ => none

/-- The worker is still online after that.  It is asked of an action that is the failure of an
attempt from before the registration. -/
def Survives (s : ManagerState) (a : ManagerAction) : Prop :=
  ∀ id ∈ s.staleFailure a, ∀ s' ∈ s.step a, s'.online id = true

instance (s : ManagerState) (a : ManagerAction) : Decidable (s.Survives a) :=
  inferInstanceAs (Decidable (∀ id ∈ s.staleFailure a, ∀ s' ∈ s.step a, s'.online id = true))

/-- The action is that of a probe that has read its node as offline. -/
def readOffline (s : ManagerState) : ManagerAction → Bool
  | .settle k =>
    match s.threads[k]? with
    | some (.reread _ _ _ online _) => !online
    | _ => false
  | _ => false

/-- **The condition**: the failure is that of a probe that has read the node as offline, and the
worker is online by now. -/
def Spared (s : ManagerState) (a : ManagerAction) : Prop :=
  ∀ id ∈ s.staleFailure a, s.readOffline a = true ∧ s.online id = true

instance (s : ManagerState) (a : ManagerAction) : Decidable (s.Spared a) :=
  inferInstanceAs (Decidable (∀ id ∈ s.staleFailure a,
    s.readOffline a = true ∧ s.online id = true))

theorem online_markOffline (s : ManagerState) (k id : Nat) (thread : JudgeThread) :
    (s.goOn k (s.bal.markOffline id) thread).online id = false := by
  rw [online, goOn, markOffline, getElem?_updateNode]
  cases s.bal.nodes[id]? with
  | none => rfl
  | some node => simp

/-- What the handling of one such failure leaves. -/
theorem survives_iff (s : ManagerState) (a : ManagerAction) : s.Survives a ↔ s.Spared a := by
  unfold Survives Spared
  cases a with
  | fail k =>
    cases hthread : s.threads[k]? with
    | none => simp [staleFailure, hthread]
    | some thread =>
      cases thread with
      | failed id registered =>
        cases registered with
        | false => simp [staleFailure, hthread]
        | true =>
          -- a failed dispatch takes the worker off
          have hoff := online_markOffline s k id .idle
          simp [staleFailure, readOffline, step, hthread, hoff]
      | _ => simp [staleFailure, hthread]
  | settle k =>
    cases hthread : s.threads[k]? with
    | none => simp [staleFailure, hthread]
    | some thread =>
      cases thread with
      | reread id rest healthy online registered =>
        cases healthy with
        | true => simp [staleFailure, hthread]
        | false =>
          cases registered with
          | false => simp [staleFailure, hthread]
          | true =>
            cases online with
            | true =>
              -- so does a probe that has seen it online
              have hoff := online_markOffline s k id (.probeNext rest)
              simp [staleFailure, readOffline, step, settleProbe, hthread, hoff]
            | false =>
              -- and one that has seen it offline changes nothing
              have hsame : (s.goOn k s.bal (.probeNext rest)).online id = s.online id := rfl
              simp [staleFailure, readOffline, step, settleProbe, hthread, hsame]
      | _ => simp [staleFailure, hthread]
  | _ => simp [staleFailure]

/-- **When a registration survives.**  Along any run, every worker that has registered since a
request was sent to it is online after the failure of that request, exactly when every such
failure is spared. -/
theorem survives_iff_spared (s : ManagerState) (as : List ManagerAction) :
    Transition.Along step Survives s as ↔ Transition.Along step Spared s as := by
  have hcongr : Survives = Spared := by
    funext s a
    exact propext (survives_iff s a)
  rw [hcongr]

/-! ## 3. How long it stays away

The calls of the balancer are those of `DispatchState`, so what one of them does to a node is in
`DispatchState.step_node`. -/

/-- The worker is registered and offline, so the balancer passes over it. -/
def Off (bal : JudgeWorkerBalancer) (id : Nat) : Prop :=
  ∃ node, bal.nodes[id]? = some node ∧ node.online = false

/-- The call can bring node `id` back. -/
def BringsBack (bal : JudgeWorkerBalancer) (id : Nat) : DispatchAction → Prop
  | .upsertWorker cfg => bal.Known cfg id
  | .markOnline i => i = id
  | _ => False

/-- Only a registration and `MarkOnline` bring a node back. -/
theorem Off.call {bal bal' : JudgeWorkerBalancer} {ids ids' : List Nat} {call : DispatchAction}
    {id : Nat} (h : Off bal id)
    (hcall : DispatchState.step ⟨bal, ids⟩ call = some ⟨bal', ids'⟩)
    (hback : ¬ BringsBack bal id call) : Off bal' id := by
  obtain ⟨node, hnode, hoff⟩ := h
  have hlt : id < bal.nodes.length := (List.getElem?_eq_some_iff.mp hnode).1
  have hlt' : id < bal'.nodes.length :=
    Nat.lt_of_lt_of_le hlt (DispatchState.length_le_of_step hcall)
  refine ⟨bal'.nodes[id], List.getElem?_eq_getElem hlt', ?_⟩
  obtain ⟨hnew, -⟩ | ⟨old, hold, hchange⟩ :=
    DispatchState.step_node hcall (List.getElem?_eq_getElem hlt')
  · exact absurd hnew (Nat.ne_of_lt hlt)
  · rw [hnode] at hold
    obtain rfl := Option.some.inj hold
    generalize node.online = on, node.load = load, bal'.nodes[id].online = on',
      bal'.nodes[id].load = load' at hchange hoff ⊢
    generalize DispatchState.jobs ⟨bal, ids⟩ id = jobs,
      DispatchState.jobs ⟨bal', ids'⟩ id = jobs' at hchange
    cases hchange with
    | untouched => exact hoff
    | reset cfg _ _ _ known => exact absurd known hback
    | selected => cases hoff
    | released => exact hoff
    | wentOffline => rfl
    | wentOnline => exact absurd rfl hback

/-- No registration of worker `id`, and no probes begin. -/
def Quiet (id : Nat) (s : ManagerState) : ManagerAction → Prop
  | .register cfg => ¬ s.bal.Known cfg id
  | .begin _ due => due = false
  | _ => True

/-- The worker is off, and no thread is probing, so that there is nobody who could find it healthy.
-/
structure Down (s : ManagerState) (id : Nat) : Prop where
  off : Off s.bal id
  noProbe : ∀ thread ∈ s.threads, thread.probes = false

theorem Down.goOn {s : ManagerState} {id k : Nat} {bal : JudgeWorkerBalancer}
    {thread : JudgeThread} (h : s.Down id) (hoff : Off bal id) (hthread : thread.probes = false) :
    (s.goOn k bal thread).Down id := by
  refine ⟨hoff, fun other hother => ?_⟩
  rcases List.mem_or_eq_of_mem_set hother with hmem | rfl
  · exact h.noProbe other hmem
  · exact hthread

/-- One step, without probes and without a registration of the worker. -/
theorem Down.step {s s' : ManagerState} {a : ManagerAction} {id : Nat} (h : s.Down id)
    (hquiet : Quiet id s a) (hs : s.step a = some s') : s'.Down id := by
  have hthread : ∀ k (thread : JudgeThread), s.threads[k]? = some thread →
      thread.probes = false :=
    fun k thread hk => h.noProbe thread (List.mem_of_getElem? hk)
  cases a with
  | register cfg =>
    obtain rfl := Option.some.inj hs
    have hcall : DispatchState.step ⟨s.bal, []⟩ (.upsertWorker cfg) =
        some ⟨(s.bal.upsertWorker cfg).1, []⟩ := rfl
    refine ⟨h.off.call hcall hquiet, fun thread hmem => ?_⟩
    obtain ⟨old, hold, rfl⟩ := List.mem_map.mp hmem
    rw [JudgeThread.probes_note]
    exact h.noProbe old hold
  | begin k due =>
    obtain rfl : due = false := hquiet
    simp only [ManagerState.step] at hs
    split at hs
    · obtain rfl := Option.some.inj hs
      exact h.goOn h.off rfl
    · cases hs
  | health k healthy =>
    simp only [ManagerState.step] at hs
    split at hs
    · rename_i hk
      cases hthread k _ hk
    · cases hs
  | look k =>
    simp only [ManagerState.step] at hs
    split at hs
    · rename_i hk
      cases hthread k _ hk
    · cases hs
  | settle k =>
    simp only [ManagerState.step] at hs
    split at hs
    · rename_i hk
      cases hthread k _ hk
    · cases hs
  | select k =>
    simp only [ManagerState.step] at hs
    split at hs
    · cases hsel : s.bal.selectWorker with
      | none =>
        rw [hsel] at hs
        obtain rfl := Option.some.inj hs
        exact h.goOn h.off rfl
      | some p =>
        rw [hsel] at hs
        obtain rfl := Option.some.inj hs
        have hcall : DispatchState.step ⟨s.bal, []⟩ .selectWorker = some ⟨p.2, [p.1.id]⟩ := by
          simp only [DispatchState.step, hsel]
        exact h.goOn (h.off.call hcall not_false) rfl
    · cases hs
  | reply k ok =>
    simp only [ManagerState.step] at hs
    split at hs
    · rename_i i registered hk
      obtain rfl := Option.some.inj hs
      have hcall : DispatchState.step ⟨s.bal, [i]⟩ (.releaseWorkerLoad i) =
          some ⟨s.bal.releaseWorkerLoad i, [i].erase i⟩ := if_pos List.mem_cons_self
      refine h.goOn (h.off.call hcall not_false) ?_
      cases ok <;> rfl
    · cases hs
  | fail k =>
    simp only [ManagerState.step] at hs
    split at hs
    · rename_i i registered hk
      obtain rfl := Option.some.inj hs
      have hcall : DispatchState.step ⟨s.bal, []⟩ (.markOffline i) =
          some ⟨s.bal.markOffline i, []⟩ := rfl
      exact h.goOn (h.off.call hcall not_false) rfl
    · cases hs

/-- **Nothing but a registration brings the worker back where nothing is probed**: in every run
without one the worker is never selected. -/
theorem offline_of_quiet {s t : ManagerState} {id : Nat} {as : List ManagerAction}
    (h : s.Down id) (hquiet : Transition.Along step (Quiet id) s as)
    (hrun : Transition.exec step s as = some t) :
    t.online id = false ∧ ∀ sel bal, t.bal.selectWorker = some (sel, bal) → sel.id ≠ id := by
  have hdown : t.Down id :=
    Transition.exec_invariant_along (fun _ _ _ hi hq hs => Down.step hi hq hs) h hquiet hrun
  obtain ⟨node, hnode, hoff⟩ := hdown.off
  refine ⟨?_, ?_⟩
  · rw [online, hnode]
    exact hoff
  · rintro sel bal hsel rfl
    obtain ⟨other, hother, hon, -⟩ := selectWorker_cases hsel
    rw [hnode] at hother
    rw [← Option.some.inj hother, hoff] at hon
    cases hon

/-! ## 4. A restart

The run that breaks the property: two actions of the worker between two of a judge thread. -/

/-- A worker takes a job, restarts and registers; then the request to it fails. -/
def restartRun : List ManagerAction :=
  [.register (DispatchState.sampleWorker 9001), .begin 0 false, .select 0,
    .register (DispatchState.sampleWorker 9001), .reply 0 false, .fail 0]

/-- **A failure undoes a registration that came after the request.** -/
theorem not_always_survives :
    ¬ ∀ (threads : Nat) (as : List ManagerAction),
      Transition.Along step Survives (initial threads) as := by
  intro h
  have hrun : Transition.Along step Survives (initial 1) (restartRun.dropLast ++ .fail 0 :: []) :=
    h 1 restartRun
  have hstale : (⟨⟨[⟨DispatchState.sampleWorker 9001, 0, true⟩], 0⟩, [.failed 0 true]⟩ :
      ManagerState).Survives (.fail 0) := hrun.at_step step (by decide)
  exact absurd hstale (by decide)

/-- A probe and a job of two threads fail; the worker registers when the probe has read that the
job has taken it off. -/
example : Transition.Along step Survives (initial 2)
    [.register (DispatchState.sampleWorker 9001), .begin 1 false, .select 1, .begin 0 true,
      .reply 1 false, .fail 1, .health 0 false, .look 0,
      .register (DispatchState.sampleWorker 9001), .settle 0] := by
  decide

end ManagerState

end OnlineJudge.Judge
