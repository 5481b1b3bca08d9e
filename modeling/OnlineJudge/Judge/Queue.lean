/-
# The job queue: submitters, judge threads and shutdown

`JudgeManager` (`judge_manager.cpp`) holds one queue under a mutex.  `submit` reads `running_`
and then pushes under the lock; each judge thread runs `worker_thread`, which reads `running_`
at the head of its loop, waits under the lock for a job or for shutdown, takes one job, and
processes it outside the lock; `shutdown` clears `running_` and joins the threads.

Each of these accesses is one action, so the reads of `running_` outside the lock can fall
anywhere between the others.  The state carries three histories for the statements: what was
pushed, who took what, and which `UpdateResult` calls were made.

* Section 2: the discipline of the queue, in every state of every run.  Jobs leave in the
  order in which they came (`Ordered`), a thread updates its jobs one by one before it takes
  the next (`Settled`), and at most `max(1, max_concurrency)` jobs are between the two.
* Section 3: what shutdown loses.  A thread that is waiting takes at most one more job after
  `running_` is cleared, and no other thread takes any; so a run loses no job exactly when
  the queue never exceeds the number of waiting threads from then on (`Covered`).
-/
import Mathlib.Data.List.Count
import OnlineJudge.Judge.WorkerThread
import OnlineJudge.Lib.Counting
import OnlineJudge.Lib.Transition

namespace OnlineJudge.Judge

open ByteString Db

/-! ## 1. The system

A thread is at one of a few places of its loop.  What it reads outside the lock it keeps, and acts
on it later, when the flag may be another. -/

/-- Where a judge thread is in `worker_thread`, with the job it has if it has one. -/
inductive ThreadPc
  /-- about to read `running_` in `while (running_)` -/
  | loopHead
  /-- past the loop head, not yet through the critical section -/
  | waiting
  /-- has taken this job and not yet updated its submission -/
  | processing (job : JudgeJob)
  /-- returned -/
  | exited

/-- The manager's shared state, its threads, and the histories of the run. -/
structure QueueState where
  running : Bool
  queue : List JudgeJob
  threads : List ThreadPc
  /-- calls of `submit` that have read `running_ = true` and not yet pushed -/
  submitting : List JudgeJob
  /-- the jobs pushed, in order: for each of these `submit` returns true -/
  accepted : List JudgeJob
  /-- the jobs taken, in order, with the thread that took them -/
  dequeued : List (Nat × JudgeJob)
  /-- the `UpdateResult` calls, in order, with the thread that made them -/
  updates : List (Nat × UpdateCall)

/-- One atomic action. -/
inductive QueueAction
  | submit (job : JudgeJob)
  | push (i : Nat)
  | readRunning (t : Nat)
  | take (t : Nat)
  | finish (t : Nat) (reply : Option Bytes)
  | shutdown

namespace ThreadPc

def isWaiting : ThreadPc → Bool
  | waiting => true
  | _ => false

def isProcessing : ThreadPc → Bool
  | processing _ => true
  | _ => false

/-- The submission a thread has in hand. -/
def inHand : ThreadPc → List Int
  | processing job => [job.submissionId]
  | _ => []

end ThreadPc

namespace QueueState

/-- The number of judge threads the constructor starts. -/
def threadCount (maxConcurrency : Int) : Nat := (max 1 maxConcurrency).toNat

/-- The manager after its constructor. -/
def initial (maxConcurrency : Int) : QueueState where
  running := true
  queue := []
  threads := List.replicate (threadCount maxConcurrency) .loopHead
  submitting := []
  accepted := []
  dequeued := []
  updates := []

/-- Thread `t` moves on. -/
def setPc (s : QueueState) (t : Nat) (pc : ThreadPc) : QueueState :=
  { s with threads := s.threads.set t pc }

/-- The actions.  A waiting thread that finds the queue empty while the manager is running goes
on waiting; wake-ups are not modelled, a thread may look at the queue at any time. -/
def step (codec : Json.Codec) (s : QueueState) : QueueAction → Option QueueState
  | .submit job =>
    some (if s.running then { s with submitting := s.submitting ++ [job] } else s)
  | .push i =>
    s.submitting[i]?.map fun job =>
      { s with
        submitting := s.submitting.eraseIdx i
        queue := s.queue ++ [job]
        accepted := s.accepted ++ [job] }
  | .readRunning t =>
    match s.threads[t]? with
    | some .loopHead => some (s.setPc t (if s.running then .waiting else .exited))
    | _ => none
  | .take t =>
    match s.threads[t]? with
    | some .waiting =>
      match s.queue with
      | job :: rest =>
        some { s.setPc t (.processing job) with
          queue := rest
          dequeued := s.dequeued ++ [(t, job)] }
      | [] => if s.running then none else some (s.setPc t .exited)
    | _ => none
  | .finish t reply =>
    match s.threads[t]? with
    | some (.processing job) =>
      (processJob codec job reply).map fun calls =>
        { s.setPc t .loopHead with updates := s.updates ++ calls.map fun call => (t, call) }
    | _ => none
  | .shutdown => some { s with running := false }

/-- The enabled actions, with what each of them finds and what it leaves. -/
inductive Moves (codec : Json.Codec) (s : QueueState) : QueueAction → QueueState → Prop
  | submit (job) (running : s.running = true) :
      Moves codec s (.submit job) { s with submitting := s.submitting ++ [job] }
  | reject (job) (stopped : s.running = false) : Moves codec s (.submit job) s
  | push (i job) (pending : s.submitting[i]? = some job) :
      Moves codec s (.push i)
        { s with
          submitting := s.submitting.eraseIdx i
          queue := s.queue ++ [job]
          accepted := s.accepted ++ [job] }
  | enter (t) (pc : s.threads[t]? = some .loopHead) (running : s.running = true) :
      Moves codec s (.readRunning t) (s.setPc t .waiting)
  | leave (t) (pc : s.threads[t]? = some .loopHead) (stopped : s.running = false) :
      Moves codec s (.readRunning t) (s.setPc t .exited)
  | take (t job rest) (pc : s.threads[t]? = some .waiting) (queue : s.queue = job :: rest) :
      Moves codec s (.take t)
        { s.setPc t (.processing job) with
          queue := rest
          dequeued := s.dequeued ++ [(t, job)] }
  | drained (t) (pc : s.threads[t]? = some .waiting) (queue : s.queue = [])
      (stopped : s.running = false) : Moves codec s (.take t) (s.setPc t .exited)
  | finish (t reply job calls) (pc : s.threads[t]? = some (.processing job))
      (calls_eq : processJob codec job reply = some calls) :
      Moves codec s (.finish t reply)
        { s.setPc t .loopHead with
          updates := s.updates ++ calls.map fun call => (t, call) }
  | shutdown : Moves codec s .shutdown { s with running := false }

/-- **The inversion lemma of the system**: nothing but `Moves` happens. -/
theorem moves_of_step {codec : Json.Codec} {s s' : QueueState} {a : QueueAction}
    (h : step codec s a = some s') : Moves codec s a s' := by
  cases a with
  | submit job =>
    simp only [step, Option.some.injEq] at h
    subst h
    by_cases hr : s.running = true
    · rw [if_pos hr]
      exact .submit job hr
    · rw [if_neg hr]
      exact .reject job (Bool.eq_false_iff.mpr hr)
  | push i =>
    obtain ⟨job, hjob, rfl⟩ := Option.map_eq_some_iff.mp h
    exact .push i job hjob
  | readRunning t =>
    simp only [step] at h
    split at h
    · rename_i hpc
      obtain rfl := Option.some.inj h
      by_cases hr : s.running = true
      · rw [if_pos hr]
        exact .enter t hpc hr
      · rw [if_neg hr]
        exact .leave t hpc (Bool.eq_false_iff.mpr hr)
    · cases h
  | take t =>
    simp only [step] at h
    split at h
    · rename_i hpc
      split at h
      · rename_i job rest hq
        obtain rfl := Option.some.inj h
        exact .take t job rest hpc hq
      · rename_i hq
        split at h
        · cases h
        · rename_i hr
          obtain rfl := Option.some.inj h
          exact .drained t hpc hq (Bool.eq_false_iff.mpr hr)
    · cases h
  | finish t reply =>
    simp only [step] at h
    split at h
    · rename_i job hpc
      obtain ⟨calls, hcalls, rfl⟩ := Option.map_eq_some_iff.mp h
      exact .finish t reply job calls hpc hcalls
    · cases h
  | shutdown =>
    obtain rfl := Option.some.inj h
    exact .shutdown

/-! ## 2. The discipline of the queue

Three invariants, each about the histories and the places of the threads, and each with its step
lemma. -/

/-- First in, first out: what was taken, followed by what is queued, is what was pushed. -/
def Ordered (s : QueueState) : Prop := s.dequeued.map Prod.snd ++ s.queue = s.accepted

/-- The submissions of the jobs thread `t` has taken, in order. -/
def takenBy (s : QueueState) (t : Nat) : List Int :=
  (s.dequeued.filter fun p => p.1 == t).map fun p => p.2.submissionId

/-- The submissions thread `t` has called `UpdateResult` for, in order. -/
def updatedBy (s : QueueState) (t : Nat) : List Int :=
  (s.updates.filter fun p => p.1 == t).map fun p => p.2.id

/-- The submission thread `t` has in hand, if any. -/
def inHand (s : QueueState) (t : Nat) : List Int := (s.threads[t]?.map ThreadPc.inHand).getD []

/-- Every thread has updated what it took, in order and once, except for the job in hand. -/
def Settled (s : QueueState) : Prop := ∀ t, s.updatedBy t ++ s.inHand t = s.takenBy t

/-- The number of threads at places that satisfy `p`. -/
def count (s : QueueState) (p : ThreadPc → Bool) : Nat := s.threads.countP p

theorem Ordered.step {codec : Json.Codec} {s s' : QueueState} {a : QueueAction}
    (h : s.Ordered) (hs : QueueState.step codec s a = some s') : s'.Ordered := by
  unfold Ordered at h ⊢
  cases moves_of_step hs with
  | push i job _ => simp [← h]
  | take t job rest _ hq => simp [← h, hq, setPc]
  | _ => exact h

theorem inHand_setPc {s : QueueState} {t : Nat} {pc pc' : ThreadPc} (u : Nat)
    (hpc : s.threads[t]? = some pc) :
    (s.setPc t pc').inHand u = if u = t then pc'.inHand else s.inHand u := by
  have hlt : t < s.threads.length := (List.getElem?_eq_some_iff.mp hpc).1
  unfold inHand setPc
  rw [List.getElem?_set]
  by_cases hut : t = u
  · subst hut
    simp [hlt]
  · have hne : ¬ u = t := fun h => hut h.symm
    simp [hut, hne]

theorem inHand_of_pc {s : QueueState} {t : Nat} {pc : ThreadPc} (hpc : s.threads[t]? = some pc) :
    s.inHand t = pc.inHand := by
  simp [inHand, hpc]

/-- Moving a thread between places with nothing in hand changes nothing for `Settled`. -/
theorem inHand_setPc_of_idle {s : QueueState} {t : Nat} {pc pc' : ThreadPc} (u : Nat)
    (hpc : s.threads[t]? = some pc) (hidle : pc.inHand = []) (hidle' : pc'.inHand = []) :
    (s.setPc t pc').inHand u = s.inHand u := by
  rw [inHand_setPc u hpc]
  split
  · rename_i hut
    rw [hut, inHand_of_pc hpc, hidle, hidle']
  · rfl

theorem Settled.step {codec : Json.Codec} (hdump : codec.DumpsUtf8) {s s' : QueueState}
    {a : QueueAction} (h : s.Settled) (hs : QueueState.step codec s a = some s') :
    s'.Settled := by
  intro u
  have hu : s.updatedBy u ++ s.inHand u = s.takenBy u := h u
  cases moves_of_step hs with
  | submit | reject | push | shutdown => exact hu
  | enter t hpc | leave t hpc | drained t hpc =>
    calc s.updatedBy u ++ (s.setPc t _).inHand u = s.updatedBy u ++ s.inHand u := by
          rw [inHand_setPc_of_idle u hpc rfl rfl]
      _ = s.takenBy u := hu
  | take t job rest hpc =>
    -- the job goes into the taker's hand and to the end of its list
    have hhand : (s.setPc t (.processing job)).inHand u =
        if u = t then [job.submissionId] else s.inHand u := inHand_setPc u hpc
    have htaken : ((s.dequeued ++ [(t, job)]).filter fun p => p.1 == u).map
          (fun p => p.2.submissionId) =
        s.takenBy u ++ if u = t then [job.submissionId] else [] := by
      by_cases hut : t = u
      · subst hut
        simp [takenBy]
      · have hne : ¬ u = t := fun h => hut h.symm
        simp [takenBy, hut, hne]
    have hmoved : s.updatedBy u ++ (s.setPc t (.processing job)).inHand u =
        s.takenBy u ++ if u = t then [job.submissionId] else [] := by
      rw [hhand]
      by_cases hut : u = t
      · subst hut
        have hnone : s.inHand u = [] := inHand_of_pc hpc
        rw [hnone, List.append_nil] at hu
        rw [if_pos rfl, if_pos rfl, hu]
      · rw [if_neg hut, if_neg hut, List.append_nil, hu]
    exact hmoved.trans htaken.symm
  | finish t reply job calls hpc hcalls =>
    -- the one call moves the job from the hand to the end of the thread's updates
    obtain ⟨call, hcall, hid⟩ := processJob_of_dumps hdump job reply
    obtain rfl : calls = [call] := Option.some.inj (hcalls.symm.trans hcall)
    have hhand : (s.setPc t .loopHead).inHand u = if u = t then [] else s.inHand u :=
      inHand_setPc u hpc
    have hupdated : ((s.updates ++ [(t, call)]).filter fun p => p.1 == u).map (fun p => p.2.id) =
        s.updatedBy u ++ if u = t then [job.submissionId] else [] := by
      by_cases hut : t = u
      · subst hut
        simp [updatedBy, hid]
      · have hne : ¬ u = t := fun h => hut h.symm
        simp [updatedBy, hut, hne]
    have hmoved : ((s.updates ++ [(t, call)]).filter fun p => p.1 == u).map (fun p => p.2.id) ++
        (s.setPc t .loopHead).inHand u = s.takenBy u := by
      rw [hupdated, hhand, ← hu]
      by_cases hut : u = t
      · subst hut
        rw [if_pos rfl, if_pos rfl, List.append_nil, inHand_of_pc hpc]
        rfl
      · rw [if_neg hut, if_neg hut, List.append_nil]
    exact hmoved

theorem count_setPc {s : QueueState} {t : Nat} {pc : ThreadPc} (p : ThreadPc → Bool)
    (pc' : ThreadPc) (hpc : s.threads[t]? = some pc) :
    (s.setPc t pc').count p + (if p pc then 1 else 0) =
      s.count p + (if p pc' then 1 else 0) := by
  unfold count setPc
  exact Counting.countP_set_add hpc p pc'

/-- The jobs taken and not yet updated are the jobs in hand, and the number of threads never
changes. -/
structure Bounded (maxConcurrency : Int) (s : QueueState) : Prop where
  threads : s.threads.length = threadCount maxConcurrency
  inHand : s.dequeued.length = s.updates.length + s.count ThreadPc.isProcessing

theorem Bounded.step {codec : Json.Codec} (hdump : codec.DumpsUtf8) {maxConcurrency : Int}
    {s s' : QueueState} {a : QueueAction} (h : s.Bounded maxConcurrency)
    (hs : QueueState.step codec s a = some s') : s'.Bounded maxConcurrency := by
  obtain ⟨hlen, hcount⟩ := h
  have hset : ∀ t pc, (s.setPc t pc).threads.length = threadCount maxConcurrency := by
    intro t pc
    rw [setPc, List.length_set, hlen]
  cases moves_of_step hs with
  | submit | reject | push | shutdown => exact ⟨hlen, hcount⟩
  | enter t hpc =>
    have hc := count_setPc ThreadPc.isProcessing .waiting hpc
    exact ⟨hset t _, hcount.trans (congrArg _ hc.symm)⟩
  | leave t hpc | drained t hpc =>
    have hc := count_setPc ThreadPc.isProcessing .exited hpc
    exact ⟨hset t _, hcount.trans (congrArg _ hc.symm)⟩
  | take t job rest hpc =>
    have hc := count_setPc ThreadPc.isProcessing (.processing job) hpc
    simp only [ThreadPc.isProcessing, Bool.false_eq_true, if_false, if_true, Nat.add_zero] at hc
    have hlen' : (s.dequeued ++ [(t, job)]).length =
        s.updates.length + (s.setPc t (.processing job)).count ThreadPc.isProcessing := by
      rw [List.length_append, List.length_singleton, hc, hcount, Nat.add_assoc]
    exact ⟨hset t _, hlen'⟩
  | finish t reply job calls hpc hcalls =>
    obtain ⟨call, hcall, -⟩ := processJob_of_dumps hdump job reply
    obtain rfl : calls = [call] := Option.some.inj (hcalls.symm.trans hcall)
    have hc := count_setPc ThreadPc.isProcessing .loopHead hpc
    simp only [ThreadPc.isProcessing, Bool.false_eq_true, if_false, if_true, Nat.add_zero] at hc
    have hlen' : s.dequeued.length =
        (s.updates ++ [(t, call)]).length + (s.setPc t .loopHead).count ThreadPc.isProcessing := by
      rw [List.length_append, List.length_singleton, hcount, ← hc]
      omega
    exact ⟨hset t _, hlen'⟩

theorem ordered_of_exec {codec : Json.Codec} {maxConcurrency : Int} {as : List QueueAction}
    {s : QueueState} (h : Transition.exec (step codec) (initial maxConcurrency) as = some s) :
    s.Ordered :=
  Transition.exec_invariant (fun _ _ _ hi hs => Ordered.step hi hs) (by rfl) h

theorem settled_of_exec {codec : Json.Codec} (hdump : codec.DumpsUtf8) {maxConcurrency : Int}
    {as : List QueueAction} {s : QueueState}
    (h : Transition.exec (step codec) (initial maxConcurrency) as = some s) : s.Settled := by
  refine Transition.exec_invariant (fun _ _ _ hi hs => Settled.step hdump hi hs) ?_ h
  intro t
  cases ht : (initial maxConcurrency).threads[t]? with
  | none =>
    rw [inHand, ht]
    rfl
  | some pc =>
    obtain rfl : ThreadPc.loopHead = pc :=
      (List.eq_of_mem_replicate (List.mem_of_getElem? ht)).symm
    rw [inHand_of_pc ht]
    rfl

theorem bounded_of_exec {codec : Json.Codec} (hdump : codec.DumpsUtf8) {maxConcurrency : Int}
    {as : List QueueAction} {s : QueueState}
    (h : Transition.exec (step codec) (initial maxConcurrency) as = some s) :
    s.Bounded maxConcurrency := by
  refine Transition.exec_invariant (fun _ _ _ hi hs => Bounded.step hdump hi hs) ?_ h
  refine ⟨List.length_replicate, ?_⟩
  simp [initial, count, List.countP_replicate, ThreadPc.isProcessing]

/-- **The discipline of the queue.**  In every state of every run of submitters, judge threads
and shutdown: jobs are taken in the order in which they were pushed; each thread's updates are,
one for one and in order, those of the jobs it has taken, up to the job it has in hand, and it
has nothing in hand when it takes the next; a thread with a job in hand always gets to its
update, of that job's submission; and at most `max(1, max_concurrency)` jobs are between being
taken and being updated. -/
theorem queue_discipline (codec : Json.Codec) (hdump : codec.DumpsUtf8) (maxConcurrency : Int)
    (as : List QueueAction) (s : QueueState)
    (h : Transition.exec (step codec) (initial maxConcurrency) as = some s) :
    s.dequeued.map Prod.snd ++ s.queue = s.accepted ∧
    (∀ t, s.updatedBy t ++ s.inHand t = s.takenBy t) ∧
    (∀ t : Nat, s.threads[t]? = some .waiting → s.updatedBy t = s.takenBy t) ∧
    (∀ (t : Nat) (job : JudgeJob) (reply : Option Bytes),
      s.threads[t]? = some (.processing job) → ∃ call s',
        step codec s (.finish t reply) = some s' ∧ s'.updates = s.updates ++ [(t, call)] ∧
        call.id = job.submissionId) ∧
    s.dequeued.length ≤ s.updates.length + threadCount maxConcurrency := by
  have hsettled : s.Settled := settled_of_exec hdump h
  have hbounded : s.Bounded maxConcurrency := bounded_of_exec hdump h
  refine ⟨ordered_of_exec h, hsettled, fun t hpc => ?_, fun t job reply hpc => ?_, ?_⟩
  · have hnone : s.inHand t = [] := inHand_of_pc hpc
    rw [← hsettled t, hnone, List.append_nil]
  · obtain ⟨call, hcall, hid⟩ := processJob_of_dumps hdump job reply
    refine ⟨call, { s.setPc t .loopHead with updates := s.updates ++ [(t, call)] }, ?_, rfl, hid⟩
    simp only [step, hpc, hcall]
    rfl
  · have hle : s.count ThreadPc.isProcessing ≤ s.threads.length := List.countP_le_length
    rw [hbounded.threads] at hle
    rw [hbounded.inHand]
    omega

/-- One submission through the queue of one thread: accepted, taken, updated, and `shutdown`
while the thread waits again. -/
def quietRun : List QueueAction :=
  [.submit sampleJob, .push 0, .readRunning 0, .take 0, .finish 0 none, .readRunning 0,
    .shutdown, .take 0]

/-- The state `quietRun` ends in. -/
def quietEnd : QueueState where
  running := false
  queue := []
  threads := [.exited]
  submitting := []
  accepted := [sampleJob]
  dequeued := [(0, sampleJob)]
  updates := [(0, ⟨7, ascii "system_error", systemErrorText, 0, 0⟩)]

/-- The discipline at the end of `quietRun`. -/
theorem queue_discipline_quiet :
    quietEnd.updatedBy 0 = [7] ∧ quietEnd.updatedBy 0 ++ quietEnd.inHand 0 = quietEnd.takenBy 0 :=
  ⟨rfl, (queue_discipline systemErrorCodec systemErrorCodec_dumpsUtf8 1 quietRun quietEnd
    rfl).2.1 0⟩

/-! ## 3. What shutdown loses

A job is lost if there is nobody left to take it.  Whether that can still happen is a comparison of
two numbers, and once the queue is longer it stays longer. -/

/-- `shutdown` has returned: `running_` is clear and every judge thread has been joined.  Nothing
can happen to the queue any more but another `submit`. -/
def ShutDown (s : QueueState) : Prop :=
  s.running = false ∧ ∀ pc ∈ s.threads, pc = .exited

/-- Every job for which `submit` returned true has been taken and updated, each by the thread that
has taken it, and the queue is empty. -/
def NoneLost (s : QueueState) : Prop :=
  s.queue = [] ∧ s.dequeued.map Prod.snd = s.accepted ∧ ∀ t, s.updatedBy t = s.takenBy t

/-- The threads that can still take a job. -/
def waiting (s : QueueState) : Nat := s.count ThreadPc.isWaiting

/-- The condition on the steps.  `running_` is cleared while at least as many threads wait as
jobs are queued, and a `submit` that read `running_` before that pushes only while more threads
wait than jobs are queued. -/
def Covered (s : QueueState) : QueueAction → Prop
  | .shutdown => s.queue.length ≤ s.waiting
  | .push _ => s.running = false → s.queue.length + 1 ≤ s.waiting
  | _ => True

instance (s : QueueState) : (a : QueueAction) → Decidable (s.Covered a)
  | .shutdown => inferInstanceAs (Decidable (s.queue.length ≤ s.waiting))
  | .push _ => inferInstanceAs (Decidable (s.running = false → s.queue.length + 1 ≤ s.waiting))
  | .submit _ | .readRunning _ | .take _ | .finish _ _ => inferInstanceAs (Decidable True)

/-- More jobs are queued than threads will come for them.  Once the flag is clear a thread takes one
job at most, so such a state cannot be mended. -/
def Surplus (s : QueueState) : Prop := s.running = false ∧ s.waiting < s.queue.length

theorem length_push (s : QueueState) (job : JudgeJob) :
    (s.queue ++ [job]).length = s.queue.length + 1 := List.length_append

/-- A surplus stays: a waiting thread takes one job and leaves, and nobody starts to wait. -/
theorem Surplus.step {codec : Json.Codec} {s s' : QueueState} {a : QueueAction} (h : s.Surplus)
    (hs : QueueState.step codec s a = some s') : s'.Surplus := by
  obtain ⟨hstop, hlt⟩ := h
  cases moves_of_step hs with
  | submit _ hr | enter _ _ hr => rw [hstop] at hr; cases hr
  | reject => exact ⟨hstop, hlt⟩
  | shutdown => exact ⟨rfl, hlt⟩
  | push i job => exact ⟨hstop, lt_of_lt_of_eq (Nat.lt_succ_of_lt hlt) (length_push s job).symm⟩
  | drained t _ hq =>
    rw [hq] at hlt
    exact absurd hlt (Nat.not_lt_zero _)
  | leave t hpc =>
    have hc := count_setPc ThreadPc.isWaiting .exited hpc
    exact ⟨hstop, lt_of_le_of_lt hc.le hlt⟩
  | finish t _ _ _ hpc =>
    have hc := count_setPc ThreadPc.isWaiting .loopHead hpc
    exact ⟨hstop, lt_of_le_of_lt hc.le hlt⟩
  | take t job rest hpc hq =>
    have hc := count_setPc ThreadPc.isWaiting (.processing job) hpc
    simp only [ThreadPc.isWaiting, Bool.false_eq_true, if_false, if_true, Nat.add_zero] at hc
    rw [hq, List.length_cons] at hlt
    have hrest : (s.setPc t (.processing job)).count ThreadPc.isWaiting < rest.length := by
      unfold waiting at hlt
      omega
    exact ⟨hstop, hrest⟩

/-- A step that is not covered makes a surplus. -/
theorem surplus_of_not_covered {codec : Json.Codec} {s s' : QueueState} {a : QueueAction}
    (hs : QueueState.step codec s a = some s') (h : ¬ s.Covered a) : s'.Surplus := by
  cases moves_of_step hs with
  | shutdown => exact ⟨rfl, Nat.lt_of_not_le h⟩
  | push i job =>
    obtain ⟨hstop, hlt⟩ := Classical.not_imp.mp h
    exact ⟨hstop, lt_of_lt_of_eq (Nat.lt_of_not_le hlt) (length_push s job).symm⟩
  | _ => exact absurd trivial h

/-- While every step is covered there is no surplus. -/
theorem not_surplus_step {codec : Json.Codec} {s s' : QueueState} {a : QueueAction}
    (h : ¬ s.Surplus) (hcov : s.Covered a) (hs : QueueState.step codec s a = some s') :
    ¬ s'.Surplus := by
  have hle : s.running = false → s.queue.length ≤ s.waiting := fun hr =>
    Nat.le_of_not_lt fun hlt => h ⟨hr, hlt⟩
  rintro ⟨hstop, hlt⟩
  refine absurd hlt (Nat.not_lt_of_le ?_)
  cases moves_of_step hs with
  | submit _ hr | enter _ _ hr => exact absurd (hr.symm.trans hstop) (by decide)
  | reject => exact hle hstop
  | shutdown => exact hcov
  | push i job => exact le_of_eq_of_le (length_push s job) (hcov hstop)
  | drained t _ hq => exact le_of_eq_of_le (congrArg List.length hq) (Nat.zero_le _)
  | leave t hpc =>
    have hc := count_setPc ThreadPc.isWaiting .exited hpc
    exact (hle hstop).trans hc.ge
  | finish t _ _ _ hpc =>
    have hc := count_setPc ThreadPc.isWaiting .loopHead hpc
    exact (hle hstop).trans hc.ge
  | take t job rest hpc hq =>
    have hc := count_setPc ThreadPc.isWaiting (.processing job) hpc
    simp only [ThreadPc.isWaiting, Bool.false_eq_true, if_false, if_true, Nat.add_zero] at hc
    have hold := hle hstop
    rw [hq, List.length_cons] at hold
    have hrest : rest.length ≤ (s.setPc t (.processing job)).count ThreadPc.isWaiting := by
      unfold waiting at hold
      omega
    exact hrest

theorem ShutDown.waiting_eq_zero {s : QueueState} (h : s.ShutDown) : s.waiting = 0 := by
  refine List.countP_eq_zero.mpr fun pc hpc => ?_
  rw [h.2 pc hpc]
  decide

theorem ShutDown.inHand_eq_nil {s : QueueState} (h : s.ShutDown) (t : Nat) : s.inHand t = [] := by
  cases ht : s.threads[t]? with
  | none =>
    rw [inHand, ht]
    rfl
  | some pc =>
    obtain rfl := h.2 pc (List.mem_of_getElem? ht)
    exact inHand_of_pc ht

/-- **When shutdown loses no job.**  Take any run that ends with `shutdown` having returned.
Every job for which `submit` returned true has been dequeued and processed if and only if
every step of the run was covered. -/
theorem none_lost_iff (codec : Json.Codec) (hdump : codec.DumpsUtf8) (maxConcurrency : Int)
    (as : List QueueAction) (s : QueueState)
    (h : Transition.exec (step codec) (initial maxConcurrency) as = some s)
    (hdown : s.ShutDown) :
    s.NoneLost ↔ Transition.Along (step codec) Covered (initial maxConcurrency) as := by
  constructor
  · rintro ⟨hqueue, -⟩
    refine Transition.along_of_not_final (fun _ _ _ hs hbad => surplus_of_not_covered hs hbad)
      (fun _ _ _ hi hs => Surplus.step hi hs) h ?_
    rintro ⟨-, hlt⟩
    rw [hqueue] at hlt
    exact absurd hlt (Nat.not_lt_zero _)
  · intro hcov
    have hordered : s.Ordered := ordered_of_exec h
    have hsettled : s.Settled := settled_of_exec hdump h
    have hno : ¬ s.Surplus := by
      refine Transition.exec_invariant_along
        (fun _ _ _ hi hc hs => not_surplus_step hi hc hs) ?_ hcov h
      rintro ⟨hr, -⟩
      cases hr
    -- no thread waits any more, so nothing can be queued
    have hqueue : s.queue = [] := by
      have hle : s.queue.length ≤ s.waiting := Nat.le_of_not_lt fun hlt => hno ⟨hdown.1, hlt⟩
      rw [hdown.waiting_eq_zero] at hle
      exact List.length_eq_zero_iff.mp (Nat.le_zero.mp hle)
    refine ⟨hqueue, ?_, fun t => ?_⟩
    · rw [← hordered, hqueue, List.append_nil]
    · rw [← hsettled t, hdown.inHand_eq_nil, List.append_nil]

/-- A shutdown while the only thread waits and nothing is queued loses nothing. -/
theorem none_lost_quiet : quietEnd.NoneLost :=
  (none_lost_iff systemErrorCodec systemErrorCodec_dumpsUtf8 1 quietRun quietEnd rfl
    ⟨rfl, by simp [quietEnd]⟩).mpr (by decide)

/-- Two submissions are accepted; the one thread is busy with the first when `shutdown` comes. -/
def busyRun : List QueueAction :=
  [.submit sampleJob, .push 0, .submit sampleJob, .push 0, .readRunning 0, .take 0, .shutdown,
    .finish 0 none, .readRunning 0]

/-- The state `busyRun` ends in. -/
def busyEnd : QueueState where
  running := false
  queue := [sampleJob]
  threads := [.exited]
  submitting := []
  accepted := [sampleJob, sampleJob]
  dequeued := [(0, sampleJob)]
  updates := [(0, ⟨7, ascii "system_error", systemErrorText, 0, 0⟩)]

/-- **Shutdown can lose a job**: the thread finishes the first job, reads `running_` at the
loop head and leaves, and `shutdown` returns with the second job still queued. -/
theorem shutdown_loses_queued_job :
    systemErrorCodec.DumpsUtf8 ∧
      Transition.exec (step systemErrorCodec) (initial 1) busyRun = some busyEnd ∧
      busyEnd.ShutDown ∧ ¬ busyEnd.NoneLost := by
  refine ⟨systemErrorCodec_dumpsUtf8, rfl, ⟨rfl, by simp [busyEnd]⟩, ?_⟩
  rintro ⟨hqueue, -⟩
  cases hqueue

end QueueState

end OnlineJudge.Judge
