/-
# The task list of an event loop

Any thread hands work to an `EventLoop` (`net/muduo.hpp`): `QueueInLoop` pushes a task under the
lock and then writes the eventfd, and the loop's thread waits in `epoll_wait`, handles what is
ready, and runs all tasks.  The push and the write are two steps, the loop clears the counter of
the eventfd BEFORE it takes the list, and a task may queue further tasks, so there is a window in
which a wake-up could be lost.

Each access of the shared data is one action here.  The state carries two records, what was pushed
and what was executed, in order.

* `Awake`: the invariant that closes the window.
* `two_cycles`: what has been queued is executed by the end of the loop's second cycle from now.
* `queue_complete`: over every interleaving, tasks are executed in the order of the pushes, each
  of them once, and the loop does not block on a list that is not empty.
-/
import OnlineJudge.Lib.Transition

namespace OnlineJudge.Muduo

/-! ## 1. The system

An action is one access of what is shared.  `QueueInLoop` is two of them, and a thread that has made
the first owes the second. -/

/-- A thread that calls `QueueInLoop`: the one that runs the loop, from a handler or a task, or
another. -/
inductive Caller
  | loop
  | other (thread : Nat)
deriving DecidableEq, Repr

/-- A channel that `epoll_wait` reports: that of the eventfd, or another. -/
inductive Ready
  | eventfd
  | other
deriving DecidableEq, Repr

/-- Where the loop is in `Start`: in `Poll`, before the handlers of these channels, or in
`RunAllTask` before these tasks. -/
inductive LoopPc (τ : Type)
  | polling
  | handling (actives : List Ready)
  | running (functor : List τ)
deriving DecidableEq, Repr

/-- `EventLoop`.  `eventfd` is the counter, and `writing` are the threads between the push and
the write; the last two fields are records. -/
structure EventLoop (τ : Type) where
  tasks : List τ
  eventfd : Nat
  writing : List Caller
  pc : LoopPc τ
  pushed : List τ
  executed : List τ
deriving DecidableEq, Repr

/-- The accesses of the shared data, one by one: anything may happen between two of them. -/
inductive LoopAction (τ : Type)
  /-- `QueueInLoop`, under the lock. -/
  | push (caller : Caller) (task : τ)
  /-- `WeakUpEventFd`. -/
  | write (caller : Caller)
  /-- `epoll_wait` reports these channels. -/
  | poll (actives : List Ready)
  /-- `epoll_wait` is interrupted by a signal. -/
  | interrupt
  /-- `HandleEvent` of the next channel. -/
  | handle
  /-- The swap in `RunAllTask`, under the lock. -/
  | swap
  /-- The next call in `RunAllTask`. -/
  | execute
  /-- `RunAllTask` returns. -/
  | finish
deriving DecidableEq, Repr

/-- The end of a cycle of the loop. -/
def LoopAction.isFinish {τ : Type} : LoopAction τ → Bool
  | .finish => true
  | _ => false

/-- An action that needs no other descriptor, no signal and no further call of `QueueInLoop`: an
action of the loop itself, or a write that a thread owes. -/
def LoopAction.isInternal {τ : Type} : LoopAction τ → Bool
  | .push _ _ => false
  | .interrupt => false
  | .poll actives => actives == [.eventfd]
  | _ => true

namespace EventLoop

variable {τ : Type}

/-- The constructor: the loop has not been entered. -/
def initial : EventLoop τ where
  tasks := []
  eventfd := 0
  writing := []
  pc := .polling
  pushed := []
  executed := []

/-- The tasks that have been swapped out and not yet called. -/
def functor (s : EventLoop τ) : List τ :=
  match s.pc with
  | .running functor => functor
  | _ => []

/-- The loop's thread is not in the middle of a `QueueInLoop` of its own, so it may do what comes
next. -/
def LoopFree (s : EventLoop τ) : Prop := .loop ∉ s.writing

instance (s : EventLoop τ) : Decidable s.LoopFree := inferInstanceAs (Decidable (.loop ∉ s.writing))

/-- The loop's thread is in `Poll`, where it calls nothing. -/
def isPolling (s : EventLoop τ) : Bool :=
  match s.pc with
  | .polling => true
  | _ => false

def step (s : EventLoop τ) : LoopAction τ → Option (EventLoop τ)
  | .push caller task =>
    if caller ∈ s.writing ∨ (caller = .loop ∧ s.isPolling = true) then none
    else some { s with
      tasks := s.tasks ++ [task]
      writing := caller :: s.writing
      pushed := s.pushed ++ [task] }
  | .write caller =>
    if caller ∈ s.writing then
      some { s with eventfd := s.eventfd + 1, writing := s.writing.erase caller }
    else none
  | .poll actives =>
    match s.pc with
    | .polling =>
      -- the eventfd is reported while its counter is positive
      if actives ≠ [] ∧ (.eventfd ∈ actives → 0 < s.eventfd) then
        some { s with pc := .handling actives }
      else none
    | _ => none
  | .interrupt =>
    match s.pc with
    | .polling => some { s with pc := .handling [] }
    | _ => none
  | .handle =>
    match s.pc with
    | .handling (.eventfd :: actives) =>
      -- `ReadEventfd`
      if s.LoopFree then some { s with eventfd := 0, pc := .handling actives } else none
    | .handling (.other :: actives) =>
      if s.LoopFree then some { s with pc := .handling actives } else none
    | _ => none
  | .swap =>
    match s.pc with
    | .handling [] =>
      if s.LoopFree then some { s with tasks := [], pc := .running s.tasks } else none
    | _ => none
  | .execute =>
    match s.pc with
    | .running (task :: functor) =>
      if s.LoopFree then
        some { s with pc := .running functor, executed := s.executed ++ [task] }
      else none
    | _ => none
  | .finish =>
    match s.pc with
    | .running [] => if s.LoopFree then some { s with pc := .polling } else none
    | _ => none

/-! ## 2. What one action does

The inversion lemma, with what each action finds. -/

/-- Every way the actions move the state. -/
inductive Moves (s : EventLoop τ) : LoopAction τ → EventLoop τ → Prop
  | push (caller task) (hnew : caller ∉ s.writing)
      (hcaller : caller = .loop → s.isPolling = false) :
      Moves s (.push caller task) { s with
        tasks := s.tasks ++ [task]
        writing := caller :: s.writing
        pushed := s.pushed ++ [task] }
  | write (caller) (hmem : caller ∈ s.writing) :
      Moves s (.write caller)
        { s with eventfd := s.eventfd + 1, writing := s.writing.erase caller }
  | poll (actives) (hpc : s.pc = .polling) (hne : actives ≠ [])
      (hready : .eventfd ∈ actives → 0 < s.eventfd) :
      Moves s (.poll actives) { s with pc := .handling actives }
  | interrupt (hpc : s.pc = .polling) : Moves s .interrupt { s with pc := .handling [] }
  | read (actives) (hpc : s.pc = .handling (.eventfd :: actives)) (hfree : s.LoopFree) :
      Moves s .handle { s with eventfd := 0, pc := .handling actives }
  | handle (actives) (hpc : s.pc = .handling (.other :: actives)) (hfree : s.LoopFree) :
      Moves s .handle { s with pc := .handling actives }
  | swap (hpc : s.pc = .handling []) (hfree : s.LoopFree) :
      Moves s .swap { s with tasks := [], pc := .running s.tasks }
  | execute (task functor) (hpc : s.pc = .running (task :: functor)) (hfree : s.LoopFree) :
      Moves s .execute { s with pc := .running functor, executed := s.executed ++ [task] }
  | finish (hpc : s.pc = .running []) (hfree : s.LoopFree) :
      Moves s .finish { s with pc := .polling }

/-- **The inversion lemma of the system**: each access with the state it needs and the one it
leaves. -/
theorem step_moves {s s' : EventLoop τ} {a : LoopAction τ} (h : s.step a = some s') :
    s.Moves a s' := by
  cases a with
  | push caller task =>
    simp only [step] at h
    split at h
    · cases h
    · rename_i hno
      obtain ⟨hnew, hcaller⟩ := not_or.mp hno
      obtain rfl := Option.some.inj h
      exact .push caller task hnew fun hloop => by simpa [hloop] using hcaller
  | write caller =>
    simp only [step] at h
    split at h
    · rename_i hmem
      obtain rfl := Option.some.inj h
      exact .write caller hmem
    · cases h
  | poll actives =>
    simp only [step] at h
    split at h
    · rename_i hpc
      split at h
      · rename_i hready
        obtain rfl := Option.some.inj h
        exact .poll actives hpc hready.1 hready.2
      · cases h
    · cases h
  | interrupt =>
    simp only [step] at h
    split at h
    · rename_i hpc
      obtain rfl := Option.some.inj h
      exact .interrupt hpc
    · cases h
  | handle =>
    simp only [step] at h
    split at h
    · rename_i actives hpc
      split at h
      · rename_i hfree
        obtain rfl := Option.some.inj h
        exact .read actives hpc hfree
      · cases h
    · rename_i actives hpc
      split at h
      · rename_i hfree
        obtain rfl := Option.some.inj h
        exact .handle actives hpc hfree
      · cases h
    · cases h
  | swap =>
    simp only [step] at h
    split at h
    · rename_i hpc
      split at h
      · rename_i hfree
        obtain rfl := Option.some.inj h
        exact .swap hpc hfree
      · cases h
    · cases h
  | execute =>
    simp only [step] at h
    split at h
    · rename_i task functor hpc
      split at h
      · rename_i hfree
        obtain rfl := Option.some.inj h
        exact .execute task functor hpc hfree
      · cases h
    · cases h
  | finish =>
    simp only [step] at h
    split at h
    · rename_i hpc
      split at h
      · rename_i hfree
        obtain rfl := Option.some.inj h
        exact .finish hpc hfree
      · cases h
    · cases h

/-! ## 3. Nothing is lost, and the loop is woken up

The order is a matter of three lists.  The wake-up is a matter of who will write: the list is never
left with tasks in it and nobody to say so. -/

/-- The tasks are executed in the order of the pushes: what has been executed, what is being
executed and what is in the list make up what has been pushed. -/
def Ordered (s : EventLoop τ) : Prop := s.executed ++ s.functor ++ s.tasks = s.pushed

theorem Ordered.step {s s' : EventLoop τ} {a : LoopAction τ} (h : s.Ordered)
    (hs : s.step a = some s') : s'.Ordered := by
  unfold Ordered functor at *
  cases step_moves hs with
  | push caller task =>
    rw [← h]
    simp only [List.append_assoc]
  | write => exact h
  | poll _ hpc | interrupt hpc | read _ hpc | handle _ hpc | finish hpc =>
    rw [hpc] at h
    exact h
  | swap hpc =>
    rw [hpc] at h
    simpa using h
  | execute task functor hpc =>
    rw [hpc] at h
    simpa using h

/-- **No wake-up is lost.**  While there are tasks in the list, the loop is on its way to take
them, or the eventfd will end its wait, or a thread is about to write it. -/
structure Awake (s : EventLoop τ) : Prop where
  woken : s.tasks ≠ [] → 0 < s.eventfd ∨ s.writing ≠ [] ∨ ∃ actives, s.pc = .handling actives
  free : s.pc = .polling → s.LoopFree

theorem Awake.step {s s' : EventLoop τ} {a : LoopAction τ} (h : s.Awake)
    (hs : s.step a = some s') : s'.Awake := by
  cases step_moves hs with
  | push caller task hnew hcaller =>
    refine ⟨fun _ => Or.inr (Or.inl (List.cons_ne_nil _ _)), fun hpc => ?_⟩
    intro hmem
    rcases List.mem_cons.mp hmem with hloop | hmem
    · have hpolling : s.isPolling = true := by
        rw [isPolling, show s.pc = .polling from hpc]
      rw [hcaller hloop.symm] at hpolling
      cases hpolling
    · exact h.free hpc hmem
  | write caller =>
    exact ⟨fun _ => Or.inl (Nat.succ_pos _),
      fun hpc hmem => h.free hpc (List.mem_of_mem_erase hmem)⟩
  | poll actives | interrupt | read actives | handle actives =>
    exact ⟨fun _ => Or.inr (Or.inr ⟨_, rfl⟩), nofun⟩
  | swap => exact ⟨fun hne => absurd rfl hne, nofun⟩
  | execute task functor hpc hfree =>
    refine ⟨fun hne => ?_, nofun⟩
    rcases h.woken hne with hfd | hwriting | ⟨actives, hhandling⟩
    · exact Or.inl hfd
    · exact Or.inr (Or.inl hwriting)
    · rw [hpc] at hhandling
      cases hhandling
  | finish hpc hfree =>
    refine ⟨fun hne => ?_, fun _ => hfree⟩
    rcases h.woken hne with hfd | hwriting | ⟨actives, hhandling⟩
    · exact Or.inl hfd
    · exact Or.inr (Or.inl hwriting)
    · rw [hpc] at hhandling
      cases hhandling

/-- The loop that blocks while the list is not empty will be woken up: by the eventfd, or by
another thread's write. -/
theorem Awake.blocking {s : EventLoop τ} (h : s.Awake) (hpc : s.pc = .polling)
    (hne : s.tasks ≠ []) : 0 < s.eventfd ∨ ∃ thread, .other thread ∈ s.writing := by
  rcases h.woken hne with hfd | hwriting | ⟨actives, hhandling⟩
  · exact Or.inl hfd
  · obtain ⟨caller, hmem⟩ := List.exists_mem_of_ne_nil _ hwriting
    cases caller with
    | loop => exact absurd hmem (h.free hpc)
    | other thread => exact Or.inr ⟨thread, hmem⟩
  · rw [hpc] at hhandling
    cases hhandling

/-- The state after a run from the constructor. -/
structure Reached (s : EventLoop τ) : Prop where
  ordered : s.Ordered
  awake : s.Awake

theorem Reached.step {s s' : EventLoop τ} {a : LoopAction τ} (h : s.Reached)
    (hs : s.step a = some s') : s'.Reached := ⟨h.ordered.step hs, h.awake.step hs⟩

theorem reached_initial : (initial : EventLoop τ).Reached :=
  ⟨rfl, fun hne => absurd rfl hne, fun _ => List.not_mem_nil⟩

/-! ## 4. What is queued is executed

A task that is pushed while the loop runs its tasks waits for the next cycle.  So the end of the
second cycle is the bound, and it is reached in some runs. -/

/-- How often the loop has to come back to `Poll` until the first `n` tasks are executed. -/
def cyclesFor (n : Nat) (s : EventLoop τ) : Nat :=
  if n ≤ s.executed.length then 0
  else
    match s.pc with
    | .running functor => if n ≤ s.executed.length + functor.length then 1 else 2
    | _ => 1

theorem cyclesFor_le_two (n : Nat) (s : EventLoop τ) : s.cyclesFor n ≤ 2 := by
  unfold cyclesFor
  split
  · omega
  · split
    · split <;> omega
    · omega

theorem length_pushed_le {s : EventLoop τ} (h : s.Ordered) :
    s.pushed.length = s.executed.length + s.functor.length + s.tasks.length := by
  rw [← h, List.length_append, List.length_append]

/-- The end of a cycle is progress, and nothing sets the loop back. -/
theorem cyclesFor_step {s s' : EventLoop τ} {a : LoopAction τ} (h : s.Ordered) {n : Nat}
    (hn : n ≤ s.pushed.length) (hs : s.step a = some s') :
    s'.cyclesFor n ≤ s.cyclesFor n - if a.isFinish then 1 else 0 := by
  have hlength := length_pushed_le h
  cases step_moves hs with
  | push | write => exact Nat.le_refl _
  | poll _ hpc | interrupt hpc | read _ hpc | handle _ hpc =>
    simp [cyclesFor, hpc, LoopAction.isFinish]
  | swap hpc =>
    simp only [functor, hpc, List.length_nil] at hlength
    have hbatch : n ≤ s.executed.length + s.tasks.length := by omega
    simp [cyclesFor, hpc, hbatch, LoopAction.isFinish]
  | execute task functor hpc =>
    simp only [cyclesFor, hpc, LoopAction.isFinish, List.length_append, List.length_cons,
      List.length_nil, Bool.false_eq_true, if_false, Nat.sub_zero]
    split_ifs <;> omega
  | finish hpc =>
    simp only [cyclesFor, hpc, LoopAction.isFinish, List.length_nil, Nat.add_zero, if_true]
    split <;> omega

/-- The number of cycles that end in a run. -/
def cycles (as : List (LoopAction τ)) : Nat := as.countP LoopAction.isFinish

theorem cyclesFor_exec {s t : EventLoop τ} {as : List (LoopAction τ)} (h : s.Reached) {n : Nat}
    (hn : n ≤ s.pushed.length) (hrun : Transition.exec step s as = some t) :
    t.cyclesFor n ≤ s.cyclesFor n - cycles as := by
  induction as generalizing s with
  | nil =>
    obtain rfl := Option.some.inj hrun
    exact Nat.le_refl _
  | cons a as ih =>
    obtain ⟨s', hs', hrest⟩ := (Transition.exec_cons_eq_some step).mp hrun
    have hn' : n ≤ s'.pushed.length := by
      cases step_moves hs' with
      | push => exact Nat.le_trans hn (by simp)
      | _ => exact hn
    have hstep := cyclesFor_step h.ordered hn hs'
    have hlater := ih (h.step hs') hn' hrest
    have hcycles : cycles (a :: as) = cycles as + if a.isFinish then 1 else 0 := by
      simp [cycles, List.countP_cons]
    rw [hcycles]
    omega

theorem prefix_of_ordered {s : EventLoop τ} (h : s.Ordered) : s.executed <+: s.pushed := by
  rw [← h, List.append_assoc]
  exact List.prefix_append _ _

theorem prefix_of_exec {s t : EventLoop τ} {as : List (LoopAction τ)}
    (hrun : Transition.exec step s as = some t) : s.pushed <+: t.pushed := by
  induction as generalizing s with
  | nil =>
    obtain rfl := Option.some.inj hrun
    exact List.prefix_rfl
  | cons a as ih =>
    obtain ⟨s', hs', hrest⟩ := (Transition.exec_cons_eq_some step).mp hrun
    refine List.IsPrefix.trans ?_ (ih hrest)
    cases step_moves hs' with
    | push => exact List.prefix_append _ _
    | _ => exact List.prefix_rfl

/-- **What is queued is executed** by the end of the second cycle. -/
theorem two_cycles {s t : EventLoop τ} {as : List (LoopAction τ)} (h : s.Reached)
    (hrun : Transition.exec step s as = some t) (hcycles : 2 ≤ cycles as) :
    s.pushed <+: t.executed := by
  have ht : t.Reached := Transition.exec_invariant (fun _ _ _ hi hs => Reached.step hi hs) h hrun
  have hzero : t.cyclesFor s.pushed.length = 0 := by
    have hle := cyclesFor_exec h (Nat.le_refl _) hrun
    have htwo := cyclesFor_le_two s.pushed.length s
    omega
  have hlength : s.pushed.length ≤ t.executed.length := by
    by_contra hlt
    rw [cyclesFor, if_neg hlt] at hzero
    split at hzero
    · split at hzero <;> cases hzero
    · cases hzero
  exact List.prefix_of_prefix_length_le (prefix_of_exec hrun) (prefix_of_ordered ht.ordered) hlength

/-! ## 5. The loop is not stuck

Liveness without fairness: from every state there is a way on that needs only the loop and the
writes that are owed. -/

/-- A run of internal actions: those that the loop and the threads owe, with no new task and no new
event. -/
def Reaches (s t : EventLoop τ) : Prop :=
  ∃ as : List (LoopAction τ), (∀ a ∈ as, a.isInternal = true) ∧
    Transition.exec step s as = some t

theorem Reaches.refl (s : EventLoop τ) : s.Reaches s := ⟨[], nofun, rfl⟩

theorem Reaches.head {s u t : EventLoop τ} {a : LoopAction τ} (ha : a.isInternal = true)
    (hs : s.step a = some u) (h : u.Reaches t) : s.Reaches t := by
  obtain ⟨as, hinternal, hrun⟩ := h
  refine ⟨a :: as, ?_, (Transition.exec_cons_eq_some step).mpr ⟨u, hs, hrun⟩⟩
  intro b hb
  rcases List.mem_cons.mp hb with rfl | hb
  · exact ha
  · exact hinternal b hb

theorem Reaches.trans {s t u : EventLoop τ} (h : s.Reaches t) (h' : t.Reaches u) :
    s.Reaches u := by
  obtain ⟨as, has, hrun⟩ := h
  obtain ⟨bs, hbs, hrun'⟩ := h'
  refine ⟨as ++ bs, ?_, ?_⟩
  · intro a ha
    rcases List.mem_append.mp ha with ha | ha
    · exact has a ha
    · exact hbs a ha
  · rw [Transition.exec_append, hrun]
    exact hrun'

theorem Reaches.reached {s t : EventLoop τ} (h : s.Reaches t) (hs : s.Reached) : t.Reached := by
  obtain ⟨as, -, hrun⟩ := h
  exact Transition.exec_invariant (fun _ _ _ hi hs => Reached.step hi hs) hs hrun

theorem loopFree_of_nil {s : EventLoop τ} (hwriting : s.writing = []) : s.LoopFree := by
  rw [LoopFree, hwriting]
  exact List.not_mem_nil

theorem reaches_of_writing (writing : List Caller) {s : EventLoop τ}
    (hwriting : s.writing = writing) :
    s.Reaches { s with writing := [], eventfd := s.eventfd + writing.length } := by
  induction writing generalizing s with
  | nil =>
    have hsame : ({ s with writing := [], eventfd := s.eventfd + ([] : List Caller).length } :
        EventLoop τ) = s := by
      rw [List.length_nil, Nat.add_zero, ← hwriting]
    rw [hsame]
    exact .refl s
  | cons caller writing ih =>
    have hmem : caller ∈ s.writing := by
      rw [hwriting]
      exact List.mem_cons_self
    refine Reaches.head (a := .write caller) rfl
      (u := { s with eventfd := s.eventfd + 1, writing := s.writing.erase caller }) ?_ ?_
    · simp only [step, if_pos hmem]
    · have hrest := ih (s := { s with
        eventfd := s.eventfd + 1, writing := s.writing.erase caller }) (by simp [hwriting])
      rwa [Nat.add_assoc, Nat.add_comm 1, ← List.length_cons (a := caller)] at hrest

/-- The tasks that are taken are executed, and the loop comes back to `Poll`. -/
theorem reaches_of_running (functor : List τ) {s : EventLoop τ} (hpc : s.pc = .running functor)
    (hwriting : s.writing = []) :
    s.Reaches { s with pc := .polling, executed := s.executed ++ functor } := by
  induction functor generalizing s with
  | nil =>
    refine Reaches.head (a := .finish) rfl (u := { s with pc := .polling }) ?_ ?_
    · simp only [step, hpc, if_pos (loopFree_of_nil hwriting)]
    · rw [List.append_nil]
      exact .refl _
  | cons task functor ih =>
    refine Reaches.head (a := .execute) rfl
      (u := { s with pc := .running functor, executed := s.executed ++ [task] }) ?_ ?_
    · simp only [step, hpc, if_pos (loopFree_of_nil hwriting)]
    · have hrest := ih (s := { s with
        pc := .running functor, executed := s.executed ++ [task] }) rfl hwriting
      rwa [List.append_assoc] at hrest

/-- The channels that are ready are handled, and the tasks of the list are executed. -/
theorem reaches_of_handling (actives : List Ready) {s : EventLoop τ}
    (hpc : s.pc = .handling actives) (hwriting : s.writing = []) :
    ∃ t, s.Reaches t ∧ t.executed = s.executed ++ s.tasks := by
  have hfree := loopFree_of_nil hwriting
  induction actives generalizing s with
  | nil =>
    have hrun := reaches_of_running s.tasks (s := { s with tasks := [], pc := .running s.tasks })
      rfl hwriting
    refine ⟨_, hrun.head (a := .swap) rfl ?_, rfl⟩
    simp only [step, hpc, if_pos hfree]
  | cons ready actives ih =>
    cases ready with
    | eventfd =>
      obtain ⟨t, hreaches, ht⟩ :=
        ih (s := { s with eventfd := 0, pc := .handling actives }) rfl hwriting hfree
      refine ⟨t, hreaches.head (a := .handle) rfl ?_, ht⟩
      simp only [step, hpc, if_pos hfree]
    | other =>
      obtain ⟨t, hreaches, ht⟩ := ih (s := { s with pc := .handling actives }) rfl hwriting hfree
      refine ⟨t, hreaches.head (a := .handle) rfl ?_, ht⟩
      simp only [step, hpc, if_pos hfree]

/-- A loop that blocks on a list that is not empty takes it. -/
theorem reaches_of_polling {s : EventLoop τ} (h : s.Reached) (hpc : s.pc = .polling)
    (hwriting : s.writing = []) :
    ∃ t, s.Reaches t ∧ t.executed = s.executed ++ s.tasks := by
  by_cases hne : s.tasks = []
  · exact ⟨s, .refl s, by rw [hne, List.append_nil]⟩
  · have hfd : 0 < s.eventfd := by
      rcases h.awake.blocking hpc hne with hfd | ⟨thread, hmem⟩
      · exact hfd
      · rw [hwriting] at hmem
        cases hmem
    obtain ⟨t, hreaches, hexecuted⟩ :=
      reaches_of_handling [.eventfd] (s := { s with pc := .handling [.eventfd] }) rfl hwriting
    refine ⟨t, hreaches.head (a := .poll [.eventfd]) rfl ?_, hexecuted⟩
    simp only [step, hpc]
    exact if_pos ⟨List.cons_ne_nil _ _, fun _ => hfd⟩

/-- **The loop is not stuck.**  From every state that a run can reach, the loop itself and the
writes that threads owe are enough to execute all that has been pushed. -/
theorem reaches_all {s : EventLoop τ} (h : s.Reached) :
    ∃ t, s.Reaches t ∧ t.executed = s.pushed := by
  have hwrite := reaches_of_writing s.writing rfl
  have hordered := h.ordered
  unfold Ordered functor at hordered
  cases hpc : s.pc with
  | polling =>
    obtain ⟨t, hreaches, ht⟩ := reaches_of_polling (hwrite.reached h) hpc rfl
    rw [hpc] at hordered
    exact ⟨t, hwrite.trans hreaches, ht.trans (by simpa using hordered)⟩
  | handling actives =>
    obtain ⟨t, hreaches, ht⟩ := reaches_of_handling actives
      (s := { s with writing := [], eventfd := s.eventfd + s.writing.length }) hpc rfl
    rw [hpc] at hordered
    exact ⟨t, hwrite.trans hreaches, ht.trans (by simpa using hordered)⟩
  | running functor =>
    have hrun := hwrite.trans (reaches_of_running functor
      (s := { s with writing := [], eventfd := s.eventfd + s.writing.length }) hpc rfl)
    obtain ⟨t, hreaches, ht⟩ := reaches_of_polling (hrun.reached h) rfl rfl
    rw [hpc] at hordered
    exact ⟨t, hrun.trans hreaches, ht.trans hordered⟩

/-- **No queued task is lost.**  Over every interleaving of the threads with the loop: tasks are
executed in the order of the pushes and each of them once; whatever happens after that, they are
executed by the time the loop has come back to `Poll` twice, and the loop needs nothing but the
writes that threads owe to get there; and when it blocks while the list is not empty, the eventfd
is positive or a thread is between its push and its write. -/
theorem queue_complete (as : List (LoopAction τ)) (s : EventLoop τ)
    (h : Transition.exec step initial as = some s) :
    s.executed ++ s.functor ++ s.tasks = s.pushed ∧
      (∀ bs t, Transition.exec step s bs = some t → 2 ≤ cycles bs → s.pushed <+: t.executed) ∧
      (∃ t, s.Reaches t ∧ t.executed = s.pushed) ∧
      (s.pc = .polling → s.tasks ≠ [] →
        0 < s.eventfd ∨ ∃ thread, .other thread ∈ s.writing) := by
  have hreached : s.Reached :=
    Transition.exec_invariant (fun _ _ _ hi hs => Reached.step hi hs) reached_initial h
  exact ⟨hreached.ordered, fun bs t hrun hcycles => two_cycles hreached hrun hcycles,
    reaches_all hreached, hreached.awake.blocking⟩

/-- A thread pushes while the loop handles an event, and writes when the loop has taken its
task. -/
def lateWrite : List (LoopAction Nat) :=
  [.poll [.other], .handle, .push (.other 1) 7, .swap, .write (.other 1), .execute, .finish]

/-- The task is executed, and the eventfd is readable without need. -/
def afterLateWrite : EventLoop Nat where
  tasks := []
  eventfd := 1
  writing := []
  pc := .polling
  pushed := [7]
  executed := [7]

theorem exec_lateWrite : Transition.exec step initial lateWrite = some afterLateWrite := by decide

theorem queue_complete_lateWrite :
    afterLateWrite.executed ++ afterLateWrite.functor ++ afterLateWrite.tasks = [7] ∧
      (∃ t, afterLateWrite.Reaches t ∧ t.executed = [7]) := by
  have h := queue_complete lateWrite afterLateWrite exec_lateWrite
  exact ⟨h.1, h.2.2.1⟩

end EventLoop

end OnlineJudge.Muduo
