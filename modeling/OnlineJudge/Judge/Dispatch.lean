/-
# The load counters against the jobs really in flight

Many judge threads dispatch at once.  Each dispatch selects a worker, sends the job, and later
releases the id it was given (`JudgeManager::ExecuteRemotely`); meanwhile workers register
again (`UpsertWorker`) and failed requests and health probes switch nodes off and on.  Since
every balancer call is atomic, a run of the system is a list of these calls, and a ghost list
of the ids selected and not yet released says how many jobs each worker really has.

Two questions about the counter `load`:

* is it ever TOO HIGH?  No: `load_le_inFlight`.  So a counter never stays up when its jobs are
  gone, and no worker is starved by a leak.
* is it ever TOO LOW?  Yes: `UpsertWorker` and `MarkOffline` set it to 0 whatever is in
  flight.  While the node is offline that is harmless, since it is not selected.  What breaks
  the ranking is a node that comes back with jobs still in flight (`ReturnsIdle` fails);
  without that, `load` is the number of jobs in flight on every online node
  (`Accurate.step`), and selection is truthful (`truthful_of_returnsIdle`).
-/
import Mathlib.Data.List.Count
import OnlineJudge.Judge.Balancer
import OnlineJudge.Lib.Transition

namespace OnlineJudge.Judge

open JudgeWorkerBalancer ByteString

/-! ## 1. The system

The list of ids is a ghost: the code does not have it.  It says how many jobs a worker really has,
and the counter is compared with that. -/

/-- The balancer, and the ids of the dispatches that have selected and not yet released. -/
structure DispatchState where
  bal : JudgeWorkerBalancer
  inFlight : List Nat
deriving DecidableEq

/-- One balancer call.  `releaseWorkerLoad` is made by a dispatch, with the id it selected; the
other four can come at any time and with any argument. -/
inductive DispatchAction
  | upsertWorker (cfg : JudgeWorkerConfig)
  | selectWorker
  | releaseWorkerLoad (id : Nat)
  | markOffline (id : Int)
  | markOnline (id : Int)

namespace DispatchState

def initial : DispatchState := ⟨JudgeWorkerBalancer.empty, []⟩

/-- The number of jobs in flight on a worker, by the ids that have not been released. -/
def jobs (s : DispatchState) (id : Nat) : Nat := s.inFlight.count id

/-- The calls as actions of the system.  A release needs a dispatch that has not released. -/
def step (s : DispatchState) : DispatchAction → Option DispatchState
  | .upsertWorker cfg => some { s with bal := (s.bal.upsertWorker cfg).1 }
  | .selectWorker =>
    match s.bal.selectWorker with
    | none => some s
    | some (sel, bal) => some ⟨bal, sel.id :: s.inFlight⟩
  | .releaseWorkerLoad id =>
    if id ∈ s.inFlight then some ⟨s.bal.releaseWorkerLoad id, s.inFlight.erase id⟩ else none
  | .markOffline id => some { s with bal := s.bal.markOffline id }
  | .markOnline id => some { s with bal := s.bal.markOnline id }

/-! ## 2. What one call does to one node

Invariants of this system are statements about each node: its flag, its counter, and its jobs
in flight.  `NodeChange` lists every way a call can move these three, and `step_node` says that
nothing else happens, so an invariant is one case per constructor. -/

/-- `NodeChange s a i on load jobs on' load' jobs'`: the action `a`, taken in `s`, may change
node `i` from flag `on`, counter `load` and `jobs` jobs in flight to the primed values. -/
inductive NodeChange (s : DispatchState) (i : Nat) :
    DispatchAction → Bool → Nat → Nat → Bool → Nat → Nat → Prop
  | untouched (a on load jobs) : NodeChange s i a on load jobs on load jobs
  | reset (cfg on load jobs) (known : s.bal.Known cfg i) :
      NodeChange s i (.upsertWorker cfg) on load jobs true 0 jobs
  | selected (load jobs) :
      NodeChange s i .selectWorker true load jobs true (load + 1) (jobs + 1)
  | released (on load jobs) :
      NodeChange s i (.releaseWorkerLoad i) on load (jobs + 1) on (load - 1) jobs
  | wentOffline (on load jobs) : NodeChange s i (.markOffline i) on load jobs false 0 jobs
  | wentOnline (on load jobs) : NodeChange s i (.markOnline i) on load jobs true load jobs

theorem jobs_cons (s : DispatchState) (bal : JudgeWorkerBalancer) (id i : Nat) :
    jobs ⟨bal, id :: s.inFlight⟩ i = s.jobs i + if id = i then 1 else 0 := by
  simp [jobs, List.count_cons]

theorem jobs_erase (s : DispatchState) (bal : JudgeWorkerBalancer) {id : Nat}
    (hid : id ∈ s.inFlight) (i : Nat) :
    jobs ⟨bal, s.inFlight.erase id⟩ i + (if id = i then 1 else 0) = s.jobs i := by
  have hpos : 0 < s.inFlight.count id := List.count_pos_iff.mpr hid
  by_cases h : id = i
  · subst h
    simp only [jobs, List.count_erase_self, if_true]
    omega
  · have hne : (id == i) = false := by simpa using h
    simp [jobs, List.count_erase, h, hne]

/-- What a call that goes through `updateNode` does to node `i`. -/
theorem node_of_updateNode {b : JudgeWorkerBalancer} {id : Int} {f : WorkerNode → WorkerNode}
    {i : Nat} {node' : WorkerNode} (h : (b.updateNode id f).nodes[i]? = some node') :
    ∃ node, b.nodes[i]? = some node ∧
      ((id = i ∧ node' = f node) ∨ ((i : Int) ≠ id ∧ node' = node)) := by
  rw [getElem?_updateNode] at h
  obtain ⟨node, hnode, heq⟩ := Option.map_eq_some_iff.mp h
  refine ⟨node, hnode, ?_⟩
  split at heq
  · rename_i hid
    exact Or.inl ⟨hid.symm, heq.symm⟩
  · rename_i hid
    exact Or.inr ⟨hid, heq.symm⟩

/-- **The inversion lemma of the system.**  After a step, a node is either new, online and
unloaded, or an old node changed in one of the ways of `NodeChange`. -/
theorem step_node {s s' : DispatchState} {a : DispatchAction} (hs : s.step a = some s')
    {i : Nat} {node' : WorkerNode} (hnode' : s'.bal.nodes[i]? = some node') :
    (i = s.bal.nodes.length ∧ node'.online = true ∧ node'.load = 0 ∧ s'.jobs i = s.jobs i) ∨
    ∃ node, s.bal.nodes[i]? = some node ∧
      NodeChange s i a node.online node.load (s.jobs i) node'.online node'.load (s'.jobs i) := by
  cases a with
  | upsertWorker cfg =>
    simp only [step, Option.some.injEq] at hs
    subst hs
    rcases s.bal.upsertWorker_cases cfg with ⟨k, hk, hlt, heq⟩ | ⟨-, heq⟩
    · simp only [heq] at hnode'
      rw [List.getElem?_set] at hnode'
      by_cases hki : k = i
      · subst hki
        obtain rfl : ⟨cfg, 0, true⟩ = node' := by simpa [hlt] using hnode'
        exact Or.inr ⟨s.bal.nodes[k], List.getElem?_eq_getElem hlt, .reset cfg _ _ _ hk⟩
      · rw [if_neg hki] at hnode'
        exact Or.inr ⟨node', hnode', .untouched _ _ _ _⟩
    · simp only [heq] at hnode'
      rcases Nat.lt_or_ge i s.bal.nodes.length with hi | hi
      · rw [List.getElem?_append_left hi] at hnode'
        exact Or.inr ⟨node', hnode', .untouched _ _ _ _⟩
      · rw [List.getElem?_append_right hi, List.getElem?_singleton] at hnode'
        split at hnode'
        · rename_i hz
          obtain rfl := Option.some.inj hnode'
          exact Or.inl ⟨by omega, rfl, rfl, rfl⟩
        · cases hnode'
  | selectWorker =>
    simp only [step] at hs
    cases hsel : s.bal.selectWorker with
    | none =>
      rw [hsel, Option.some.injEq] at hs
      subst hs
      exact Or.inr ⟨node', hnode', .untouched _ _ _ _⟩
    | some p =>
      obtain ⟨sel, bal⟩ := p
      rw [hsel, Option.some.injEq] at hs
      subst hs
      obtain ⟨node, hnode, hon, -, -, -, -, rfl⟩ := selectWorker_cases hsel
      rw [jobs_cons]
      simp only [List.getElem?_set] at hnode'
      by_cases hid : sel.id = i
      · subst hid
        have hlt : sel.id < s.bal.nodes.length := (List.getElem?_eq_some_iff.mp hnode).1
        obtain rfl : { node with load := node.load + 1 } = node' := by simpa [hlt] using hnode'
        refine Or.inr ⟨node, hnode, ?_⟩
        simp only [hon, if_true]
        exact .selected _ _
      · rw [if_neg hid] at hnode'
        rw [if_neg hid]
        exact Or.inr ⟨node', hnode', .untouched _ _ _ _⟩
  | releaseWorkerLoad id =>
    simp only [step] at hs
    split at hs
    · rename_i hmem
      simp only [Option.some.injEq] at hs
      subst hs
      have hjobs := jobs_erase s (s.bal.releaseWorkerLoad id) hmem i
      obtain ⟨node, hnode, ⟨hid, rfl⟩ | ⟨hid, rfl⟩⟩ := node_of_updateNode hnode'
      · obtain rfl : id = i := by exact_mod_cast hid
        rw [if_pos rfl] at hjobs
        refine Or.inr ⟨node, hnode, ?_⟩
        rw [← hjobs]
        rw [online_releaseNode, load_releaseNode]
        exact .released _ _ _
      · have hne : ¬ id = i := fun h => hid (by exact_mod_cast h.symm)
        rw [if_neg hne, Nat.add_zero] at hjobs
        rw [hjobs]
        exact Or.inr ⟨node', hnode, .untouched _ _ _ _⟩
    · cases hs
  | markOffline id =>
    simp only [step, Option.some.injEq] at hs
    subst hs
    obtain ⟨node, hnode, ⟨rfl, rfl⟩ | ⟨-, rfl⟩⟩ := node_of_updateNode hnode'
    · exact Or.inr ⟨node, hnode, .wentOffline _ _ _⟩
    · exact Or.inr ⟨node', hnode, .untouched _ _ _ _⟩
  | markOnline id =>
    simp only [step, Option.some.injEq] at hs
    subst hs
    obtain ⟨node, hnode, ⟨rfl, rfl⟩ | ⟨-, rfl⟩⟩ := node_of_updateNode hnode'
    · exact Or.inr ⟨node, hnode, .wentOnline _ _ _⟩
    · exact Or.inr ⟨node', hnode, .untouched _ _ _ _⟩

theorem length_le_of_step {s s' : DispatchState} {a : DispatchAction} (hs : s.step a = some s') :
    s.bal.nodes.length ≤ s'.bal.nodes.length := by
  cases a with
  | upsertWorker cfg =>
    obtain rfl := Option.some.inj hs
    rcases s.bal.upsertWorker_cases cfg with ⟨i, -, -, heq⟩ | ⟨-, heq⟩
    · simp [heq]
    · simp [heq]
  | selectWorker =>
    simp only [step] at hs
    cases hsel : s.bal.selectWorker with
    | none =>
      rw [hsel, Option.some.injEq] at hs
      exact hs ▸ Nat.le_refl _
    | some p =>
      rw [hsel, Option.some.injEq] at hs
      obtain ⟨node, -, -, -, -, -, -, hbal⟩ := selectWorker_cases hsel
      simp [← hs, hbal]
  | releaseWorkerLoad id =>
    simp only [step] at hs
    split at hs
    · simp [← Option.some.inj hs, releaseWorkerLoad]
    · cases hs
  | markOffline id => simp [← Option.some.inj hs, markOffline]
  | markOnline id => simp [← Option.some.inj hs, markOnline]

/-- Every job in flight is on a registered worker.  Nodes are never removed, so this cannot be lost.
-/
def IdsKnown (s : DispatchState) : Prop := ∀ id ∈ s.inFlight, id < s.bal.nodes.length

theorem IdsKnown.jobs_eq_zero {s : DispatchState} (h : s.IdsKnown) {i : Nat}
    (hi : s.bal.nodes.length ≤ i) : s.jobs i = 0 :=
  List.count_eq_zero.mpr fun hmem => absurd (h i hmem) (by omega)

/-- Ids stay known: only a registered worker is selected, and the node list never shrinks. -/
theorem IdsKnown.step {s s' : DispatchState} {a : DispatchAction} (h : s.IdsKnown)
    (hs : s.step a = some s') : s'.IdsKnown := by
  cases a with
  | upsertWorker cfg =>
    simp only [DispatchState.step, Option.some.injEq] at hs
    subst hs
    intro id hid
    have hlt := h id hid
    rcases s.bal.upsertWorker_cases cfg with ⟨i, -, -, heq⟩ | ⟨-, heq⟩
    · simpa [heq] using hlt
    · simp only [heq, List.length_append, List.length_singleton]
      omega
  | selectWorker =>
    simp only [DispatchState.step] at hs
    cases hsel : s.bal.selectWorker with
    | none =>
      rw [hsel, Option.some.injEq] at hs
      exact hs ▸ h
    | some p =>
      obtain ⟨sel, bal⟩ := p
      rw [hsel, Option.some.injEq] at hs
      subst hs
      obtain ⟨node, hnode, -, -, -, -, -, rfl⟩ := selectWorker_cases hsel
      intro id hid
      simp only [List.length_set]
      rcases List.mem_cons.mp hid with rfl | hid
      · exact (List.getElem?_eq_some_iff.mp hnode).1
      · exact h id hid
  | releaseWorkerLoad id =>
    simp only [DispatchState.step] at hs
    split at hs
    · simp only [Option.some.injEq] at hs
      subst hs
      intro j hj
      simpa [releaseWorkerLoad] using h j (List.mem_of_mem_erase hj)
    · cases hs
  | markOffline id =>
    simp only [DispatchState.step, Option.some.injEq] at hs
    subst hs
    intro j hj
    simpa [markOffline] using h j hj
  | markOnline id =>
    simp only [DispatchState.step, Option.some.injEq] at hs
    subst hs
    intro j hj
    simpa [markOnline] using h j hj

/-- A worker on the local host, as `worker_cfg` defaults have it. -/
def sampleWorker (port : Int) : JudgeWorkerConfig :=
  ⟨ascii "127.0.0.1", port, ascii "/healthz", ascii "/judge", 3000⟩

/-! ## 3. The counter is never too high

An invariant of every interleaving, without any condition. -/

/-- No counter exceeds the jobs in flight on its node.  This holds of every run, whatever is
registered again or marked. -/
def NoPhantom (s : DispatchState) : Prop :=
  ∀ (i : Nat) (node : WorkerNode), s.bal.nodes[i]? = some node → node.load ≤ s.jobs i

/-- A reset only lowers the counter, and a release takes one from both sides while the
counter's subtraction stops at 0. -/
theorem NoPhantom.step {s s' : DispatchState} {a : DispatchAction} (h : s.NoPhantom)
    (hs : s.step a = some s') : s'.NoPhantom := by
  intro i node' hnode'
  obtain ⟨-, -, hzero, -⟩ | ⟨node, hnode, hchange⟩ := step_node hs hnode'
  · omega
  · have hle : node.load ≤ s.jobs i := h i node hnode
    generalize node.online = on, node.load = load, s.jobs i = jobs, node'.online = on',
      node'.load = load', s'.jobs i = jobs' at hchange hle ⊢
    cases hchange <;> omega

/-- **No phantom load.**  In every state reached by any interleaving of dispatches,
registrations and health probes, a node's counter is at most the number of jobs selected on it
and not yet released; so when nothing is in flight every counter is 0. -/
theorem load_le_inFlight (as : List DispatchAction) (s : DispatchState)
    (h : Transition.exec step initial as = some s) :
    (∀ (i : Nat) (node : WorkerNode), s.bal.nodes[i]? = some node → node.load ≤ s.jobs i) ∧
      (s.inFlight = [] → ∀ node ∈ s.bal.nodes, node.load = 0) := by
  have hinit : initial.NoPhantom := by
    intro i node hnode
    simp [initial, JudgeWorkerBalancer.empty] at hnode
  have hbound : s.NoPhantom :=
    Transition.exec_invariant (fun _ _ _ hi hs => NoPhantom.step hi hs) hinit h
  refine ⟨hbound, fun hnone node hmem => ?_⟩
  obtain ⟨i, hnode⟩ := List.mem_iff_getElem?.mp hmem
  have hle := hbound i node hnode
  rw [jobs, hnone, List.count_nil] at hle
  omega

/-- A worker that serves one job and finishes it. -/
theorem load_le_inFlight_one_job :
    Transition.exec step initial
      [.upsertWorker (sampleWorker 9001), .selectWorker, .releaseWorkerLoad 0] =
        some ⟨⟨[⟨sampleWorker 9001, 0, true⟩], 0⟩, []⟩ ∧
      ∀ node ∈ [(⟨sampleWorker 9001, 0, true⟩ : WorkerNode)], node.load = 0 :=
  ⟨by decide, (load_le_inFlight
    [.upsertWorker (sampleWorker 9001), .selectWorker, .releaseWorkerLoad 0]
    ⟨⟨[⟨sampleWorker 9001, 0, true⟩], 0⟩, []⟩ (by decide)).2 rfl⟩

/-! ## 4. When the counter is right

The condition is about the steps: no worker comes back with jobs in flight.  Under it the counter of
a worker that is online is exact, and the smallest counter is the smallest number of jobs. -/

/-- A node that comes back has no job in flight: neither when its endpoint registers again,
nor when a probe switches it on. -/
def ReturnsIdle (s : DispatchState) : DispatchAction → Prop
  | .upsertWorker cfg => ∀ i < s.bal.nodes.length, s.bal.Known cfg i → s.jobs i = 0
  | .markOnline id => ∀ i < s.bal.nodes.length, (i : Int) = id →
      (∀ node ∈ s.bal.nodes[i]?, node.online = false) → s.jobs i = 0
  | _ => True

instance (s : DispatchState) : ∀ a, Decidable (s.ReturnsIdle a)
  | .upsertWorker cfg =>
    inferInstanceAs (Decidable (∀ i < s.bal.nodes.length, s.bal.Known cfg i → s.jobs i = 0))
  | .markOnline id =>
    inferInstanceAs (Decidable (∀ i < s.bal.nodes.length, (i : Int) = id →
      (∀ node ∈ s.bal.nodes[i]?, node.online = false) → s.jobs i = 0))
  | .selectWorker | .releaseWorkerLoad _ | .markOffline _ => inferInstanceAs (Decidable True)

/-- A selection is truthful: no online worker has fewer jobs in flight than the selected
one. -/
def Truthful (s : DispatchState) : DispatchAction → Prop
  | .selectWorker => ∀ sel bal, s.bal.selectWorker = some (sel, bal) →
      ∀ (j : Nat) (other : WorkerNode), s.bal.nodes[j]? = some other → other.online = true →
        s.jobs sel.id ≤ s.jobs j
  | _ => True

/-- The counter of every online node is its number of jobs in flight.  Offline nodes are left out,
since their counter is 0 by force and nobody looks at it. -/
structure Accurate (s : DispatchState) : Prop where
  known : s.IdsKnown
  noPhantom : s.NoPhantom
  exact : ∀ (i : Nat) (node : WorkerNode), s.bal.nodes[i]? = some node → node.online = true →
    node.load = s.jobs i

/-- **Accuracy survives every step after which no node has come back busy.**  A node that goes
offline loses its count, but it is not selected until it comes back, and by then its old jobs
have been released. -/
theorem Accurate.step {s s' : DispatchState} {a : DispatchAction} (h : s.Accurate)
    (hidle : s.ReturnsIdle a) (hs : s.step a = some s') : s'.Accurate := by
  refine ⟨h.known.step hs, h.noPhantom.step hs, fun i node' hnode' hon' => ?_⟩
  obtain ⟨hi, -, hzero, hjobs⟩ | ⟨node, hnode, hchange⟩ := step_node hs hnode'
  · rw [hzero, hjobs, h.known.jobs_eq_zero hi.ge]
  · have hle : node.load ≤ s.jobs i := h.noPhantom i node hnode
    have heq : node.online = true → node.load = s.jobs i := h.exact i node hnode
    have hlt : i < s.bal.nodes.length := (List.getElem?_eq_some_iff.mp hnode).1
    have hback : node.online = false → a = .markOnline i → s.jobs i = 0 := by
      rintro hoff rfl
      refine hidle i hlt rfl fun other hother => ?_
      rw [hnode, Option.mem_some_iff] at hother
      exact hother ▸ hoff
    have hreset : ∀ cfg, a = .upsertWorker cfg → s.bal.Known cfg i → s.jobs i = 0 := by
      rintro cfg rfl hk
      exact hidle i hlt hk
    generalize node.online = on, node.load = load, s.jobs i = jobs, node'.online = on',
      node'.load = load', s'.jobs i = jobs' at hchange hle heq hback hreset hon' ⊢
    cases hchange with
    | untouched => exact heq hon'
    | reset cfg _ _ _ hk => exact (hreset cfg rfl hk).symm
    | selected => rw [heq rfl]
    | released _ _ jobs =>
      have := heq hon'
      omega
    | wentOffline => cases hon'
    | wentOnline =>
      cases on with
      | true => exact heq rfl
      | false =>
        have := hback rfl rfl
        omega

/-- With accurate counters, the smallest counter is the smallest number of jobs. -/
theorem Accurate.truthful {s : DispatchState} (h : s.Accurate) (a : DispatchAction) :
    s.Truthful a := by
  cases a with
  | selectWorker =>
    intro sel bal hsel j other hother hon
    obtain ⟨node, hnode, hnodeOn, -, -, -, hmin, -⟩ := selectWorker_cases hsel
    calc s.jobs sel.id = node.load := (h.exact _ node hnode hnodeOn).symm
      _ ≤ other.load := hmin j other hother hon
      _ = s.jobs j := h.exact j other hother hon
  | _ => trivial

theorem accurate_initial : initial.Accurate where
  known := by simp [IdsKnown, initial]
  noPhantom := by
    intro i node hnode
    simp [initial, JudgeWorkerBalancer.empty] at hnode
  exact := by
    intro i node hnode
    simp [initial, JudgeWorkerBalancer.empty] at hnode

/-- **Least-connection dispatch is truthful as long as workers come back idle.**  In every run from
the empty balancer in which no node is brought back with jobs still in flight on it, each selection
picks a node that has the fewest jobs in flight of all that are online. -/
theorem truthful_of_returnsIdle (as : List DispatchAction)
    (hidle : Transition.Along step ReturnsIdle initial as) :
    Transition.Along step Truthful initial as :=
  Transition.along_of_invariant (fun _ _ _ hi hc hs => Accurate.step hi hc hs)
    (fun _ a hi _ => hi.truthful a) accurate_initial hidle

/-- Two workers share two jobs; the first job ends, its worker is taken off and comes back. -/
theorem truthful_of_returnsIdle_two_workers :
    Transition.Along step Truthful initial
      [.upsertWorker (sampleWorker 9001), .upsertWorker (sampleWorker 9002), .selectWorker,
        .selectWorker, .releaseWorkerLoad 0, .markOffline 0, .markOnline 0, .selectWorker] :=
  truthful_of_returnsIdle _ (by decide)

/-- Two workers with one job each; the second job ends and the first worker registers again. -/
def resetWhileBusy : List DispatchAction :=
  [.upsertWorker (sampleWorker 9001), .upsertWorker (sampleWorker 9002), .selectWorker,
    .selectWorker, .releaseWorkerLoad 1, .upsertWorker (sampleWorker 9001)]

/-- **Least-connection dispatch is not truthful.**  After `resetWhileBusy` worker 0 still has a
job in flight and worker 1 has none, and the next job goes to worker 0. -/
theorem not_always_truthful :
    ¬ ∀ as : List DispatchAction, Transition.Along step Truthful initial as := by
  intro h
  have hlast := (h (resetWhileBusy ++ [.selectWorker])).at_step step
    (t := ⟨⟨[⟨sampleWorker 9001, 0, true⟩, ⟨sampleWorker 9002, 0, true⟩], 0⟩, [0]⟩) (by decide)
  have hbusy := hlast ⟨0, sampleWorker 9001, 0⟩
    ⟨[⟨sampleWorker 9001, 1, true⟩, ⟨sampleWorker 9002, 0, true⟩], 1⟩ (by decide)
    1 ⟨sampleWorker 9002, 0, true⟩ (by decide) rfl
  exact absurd hbusy (by decide)

end DispatchState

end OnlineJudge.Judge
