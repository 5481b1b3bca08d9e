/-
# The load balancer of the judge workers

`JudgeWorkerBalancer` (`judge_worker_balancer.h`) keeps one node per registered worker: its
configuration, a load counter and an online flag.  Every member function runs under one mutex, so
each of them is one atomic action here.

`SelectWorker` scans the nodes cyclically from a cursor and keeps the first online node with the
smallest counter.  That scan is `List.argmin` over the online nodes in cursor order (`foldl_scan`),
and everything later modules need about it is in `selectWorker_cases`.

A counter is a natural number here.  It is a `uint64_t` in the source, and `load_le_inFlight` bounds
it by the number of jobs in flight, so it never comes near the end of its range.
-/
import Mathlib.Data.List.MinMax
import Mathlib.Tactic.Common
import OnlineJudge.Lib.ByteString

namespace OnlineJudge.Judge

/-! ## 1. The data

The nodes are never removed, so the id of a node is its index in the list. -/

/-- `JudgeWorkerConfig` (`config.h`). -/
structure JudgeWorkerConfig where
  host : Bytes
  port : Int
  healthPath : Bytes
  judgePath : Bytes
  timeoutMs : Int
deriving DecidableEq, Repr

structure WorkerNode where
  cfg : JudgeWorkerConfig
  load : Nat
  online : Bool
deriving DecidableEq, Repr

/-- The balancer: the nodes in order of registration, and the cursor `next_worker_`. -/
structure JudgeWorkerBalancer where
  nodes : List WorkerNode
  nextWorker : Nat
deriving DecidableEq, Repr

/-- `std::numeric_limits<std::uint64_t>::max()`. -/
def uint64Max : Nat := 2 ^ 64 - 1

/-- What `SelectWorker` hands back through its pointers. -/
structure Selection where
  id : Nat
  cfg : JudgeWorkerConfig
  loadBefore : Nat
deriving DecidableEq, Repr

namespace JudgeWorkerBalancer

/-- A balancer with no workers. -/
def empty : JudgeWorkerBalancer := ⟨[], 0⟩

/-- Two configurations name the same worker. -/
def sameEndpoint (lhs rhs : JudgeWorkerConfig) : Bool :=
  lhs.host == rhs.host && lhs.port == rhs.port

/-! ## 2. The member functions

As they stand in the source, each from its lock to its return. -/

/-- `UpsertWorker`: refresh the node of a known endpoint, or append a node.  Returns the id
and the `refreshed` flag. -/
def upsertWorker (b : JudgeWorkerBalancer) (cfg : JudgeWorkerConfig) :
    JudgeWorkerBalancer × Nat × Bool :=
  match b.nodes.findIdx? (fun node => sameEndpoint node.cfg cfg) with
  | some i => ({ b with nodes := b.nodes.set i ⟨cfg, 0, true⟩ }, i, true)
  | none => ({ b with nodes := b.nodes ++ [⟨cfg, 0, true⟩] }, b.nodes.length, false)

/-- One round of the loop in `SelectWorker`: `best` and `best_load` after looking at node
`i`. -/
def scan (nodes : List WorkerNode) (best : Option Nat × Nat) (i : Nat) : Option Nat × Nat :=
  match nodes[i]? with
  | none => best
  | some node =>
    if !node.online then best
    else if node.load < best.2 then (some i, node.load)
    else best

/-- The indices in the order of the loop: `(next_worker_ + offset) % n`. -/
def scanOrder (b : JudgeWorkerBalancer) : List Nat :=
  (List.range b.nodes.length).map fun offset => (b.nextWorker + offset) % b.nodes.length

/-- `SelectWorker`: the scan, and then the count and the cursor.  Without a candidate nothing
changes. -/
def selectWorker (b : JudgeWorkerBalancer) : Option (Selection × JudgeWorkerBalancer) :=
  if b.nodes.isEmpty then none
  else
    let best := b.scanOrder.foldl (scan b.nodes) (none, uint64Max)
    best.1.bind fun i =>
      b.nodes[i]?.map fun node =>
        (⟨i, node.cfg, best.2⟩,
          { nodes := b.nodes.set i { node with load := node.load + 1 }
            nextWorker := (i + 1) % b.nodes.length })

/-- Apply `f` to the node with this id; an id out of range does nothing. -/
def updateNode (b : JudgeWorkerBalancer) (id : Int) (f : WorkerNode → WorkerNode) :
    JudgeWorkerBalancer :=
  if id < 0 then b else { b with nodes := b.nodes.modify id.toNat f }

/-- The decrement of `ReleaseWorkerLoad`, which stops at 0. -/
def releaseNode (node : WorkerNode) : WorkerNode :=
  if node.load > 0 then { node with load := node.load - 1 } else node

/-- `ReleaseWorkerLoad`: one job less on this node. -/
def releaseWorkerLoad (b : JudgeWorkerBalancer) (id : Int) : JudgeWorkerBalancer :=
  b.updateNode id releaseNode

/-- `MarkOffline`: the node is not selected any more, and its counter starts again at 0. -/
def markOffline (b : JudgeWorkerBalancer) (id : Int) : JudgeWorkerBalancer :=
  b.updateNode id fun node => { node with online := false, load := 0 }

/-- `MarkOnline`: it is selected again, with the counter it has. -/
def markOnline (b : JudgeWorkerBalancer) (id : Int) : JudgeWorkerBalancer :=
  b.updateNode id fun node => { node with online := true }

/-! ## 3. What `SelectWorker` selects

The loop keeps an index and a load that belong together.  As a running minimum it has a
specification that does not mention the order of its rounds, but for equals. -/

/-- Node `i` takes part in the scan: it is online and its counter is below the start value of
`best_load`. -/
def candidate (nodes : List WorkerNode) (i : Nat) : Bool :=
  nodes[i]?.any fun node => node.online && decide (node.load < uint64Max)

/-- The load counter of node `i`. -/
def loadAt (nodes : List WorkerNode) (i : Nat) : Nat := (nodes[i]?.map WorkerNode.load).getD 0

/-- The pair `(best, best_load)` that a choice of `best` fixes. -/
def bestOf (nodes : List WorkerNode) (best : Option Nat) : Option Nat × Nat :=
  (best, best.elim uint64Max (loadAt nodes))

theorem loadAt_eq {nodes : List WorkerNode} {i : Nat} {node : WorkerNode}
    (h : nodes[i]? = some node) : loadAt nodes i = node.load := by
  simp [loadAt, h]

theorem candidate_iff {nodes : List WorkerNode} {i : Nat} :
    candidate nodes i = true ↔
      ∃ node, nodes[i]? = some node ∧ node.online = true ∧ node.load < uint64Max := by
  simp [candidate, Option.any_eq_true]

/-- One round of the loop is one step of the running arg-min, on candidates. -/
theorem scan_bestOf {nodes : List WorkerNode} {best : Option Nat} {i : Nat}
    (hbest : ∀ c ∈ best, loadAt nodes c < uint64Max) :
    scan nodes (bestOf nodes best) i =
      bestOf nodes (if candidate nodes i then
        List.argAux (fun b c => loadAt nodes b < loadAt nodes c) best i else best) := by
  cases hi : nodes[i]? with
  | none => simp [scan, candidate, hi]
  | some node =>
    have hload : loadAt nodes i = node.load := loadAt_eq hi
    cases hon : node.online with
    | false => simp [scan, candidate, hi, hon]
    | true =>
      cases best with
      | none =>
        by_cases hlt : node.load < uint64Max
        · simp [scan, candidate, hi, hon, hlt, bestOf, List.argAux, hload]
        · simp [scan, candidate, hi, hon, hlt, bestOf]
      | some c =>
        have hc : loadAt nodes c < uint64Max := hbest c rfl
        by_cases hlt : node.load < loadAt nodes c
        · have hmax : node.load < uint64Max := hlt.trans hc
          simp [scan, candidate, hi, hon, hlt, hmax, bestOf, List.argAux, hload]
        · simp [scan, candidate, hi, hon, hlt, bestOf, List.argAux, hload]

/-- **The loop of `SelectWorker` computes an arg-min**: the first candidate, in the order of the
scan, whose counter is smallest. -/
theorem foldl_scan (nodes : List WorkerNode) (order : List Nat) (best : Option Nat)
    (hbest : ∀ c ∈ best, loadAt nodes c < uint64Max) :
    order.foldl (scan nodes) (bestOf nodes best) =
      bestOf nodes ((order.filter (candidate nodes)).foldl
        (List.argAux fun b c => loadAt nodes b < loadAt nodes c) best) := by
  induction order generalizing best with
  | nil => rfl
  | cons i order ih =>
    rw [List.foldl_cons, scan_bestOf hbest, List.filter_cons]
    by_cases hi : candidate nodes i = true
    · obtain ⟨node, hnode, -, hlt⟩ := candidate_iff.mp hi
      rw [if_pos hi, if_pos hi, List.foldl_cons]
      refine ih _ fun c hc => ?_
      rw [← loadAt_eq hnode] at hlt
      cases best with
      | none =>
        simp only [List.argAux, Option.mem_def, Option.some.injEq] at hc
        exact hc ▸ hlt
      | some b =>
        simp only [List.argAux] at hc
        split at hc
        · simp only [Option.mem_def, Option.some.injEq] at hc
          exact hc ▸ hlt
        · exact hbest c hc
    · rw [if_neg hi, if_neg hi]
      exact ih best hbest

theorem mem_scanOrder {b : JudgeWorkerBalancer} {i : Nat} :
    i ∈ b.scanOrder ↔ i < b.nodes.length := by
  constructor
  · intro hi
    obtain ⟨offset, hoff, rfl⟩ := List.mem_map.mp hi
    exact Nat.mod_lt _ (Nat.zero_lt_of_lt (List.mem_range.mp hoff))
  · intro hi
    have hpos : 0 < b.nodes.length := Nat.zero_lt_of_lt hi
    have hcur : b.nextWorker % b.nodes.length < b.nodes.length := Nat.mod_lt _ hpos
    -- the offset from the cursor to `i`, without and with a wrap around the end of the list
    rcases Nat.lt_or_ge i (b.nextWorker % b.nodes.length) with h | h
    · refine List.mem_map.mpr ⟨i + b.nodes.length - b.nextWorker % b.nodes.length,
        List.mem_range.mpr (by omega), ?_⟩
      rw [Nat.add_mod, Nat.mod_eq_of_lt (a := i + _ - _) (by omega),
        Nat.add_sub_cancel' (by omega), Nat.add_mod_right, Nat.mod_eq_of_lt hi]
    · refine List.mem_map.mpr ⟨i - b.nextWorker % b.nodes.length,
        List.mem_range.mpr (by omega), ?_⟩
      rw [Nat.add_mod, Nat.mod_eq_of_lt (a := i - _) (by omega),
        Nat.add_sub_cancel' h, Nat.mod_eq_of_lt hi]

theorem selectWorker_eq (b : JudgeWorkerBalancer) :
    b.selectWorker =
      ((b.scanOrder.filter (candidate b.nodes)).argmin (loadAt b.nodes)).bind fun i =>
        b.nodes[i]?.map fun node =>
          (⟨i, node.cfg, loadAt b.nodes i⟩,
            { nodes := b.nodes.set i { node with load := node.load + 1 }
              nextWorker := (i + 1) % b.nodes.length }) := by
  have hfold : b.scanOrder.foldl (scan b.nodes) (none, uint64Max) =
      bestOf b.nodes ((b.scanOrder.filter (candidate b.nodes)).argmin (loadAt b.nodes)) :=
    foldl_scan b.nodes b.scanOrder none (by simp)
  rw [selectWorker]
  split
  · rename_i hempty
    have hnil : b.nodes = [] := List.isEmpty_iff.mp hempty
    simp [scanOrder, hnil]
  · simp only [hfold, bestOf]
    cases (b.scanOrder.filter (candidate b.nodes)).argmin (loadAt b.nodes) with
    | none => rfl
    | some i => rfl

/-- **Everything a successful `SelectWorker` does.**  The chosen node is online, no online node
has a smaller counter, its counter goes up by one, and the cursor moves behind it. -/
theorem selectWorker_cases {b b' : JudgeWorkerBalancer} {sel : Selection}
    (h : b.selectWorker = some (sel, b')) :
    ∃ node, b.nodes[sel.id]? = some node ∧ node.online = true ∧ node.load < uint64Max ∧
      sel.cfg = node.cfg ∧ sel.loadBefore = node.load ∧
      (∀ (j : Nat) (other : WorkerNode), b.nodes[j]? = some other → other.online = true →
        node.load ≤ other.load) ∧
      b' = { nodes := b.nodes.set sel.id { node with load := node.load + 1 }
             nextWorker := (sel.id + 1) % b.nodes.length } := by
  rw [selectWorker_eq, Option.bind_eq_some_iff] at h
  obtain ⟨i, hmin, h⟩ := h
  obtain ⟨node, hnode, heq⟩ := Option.map_eq_some_iff.mp h
  rw [Prod.mk.injEq] at heq
  obtain ⟨rfl, rfl⟩ := heq
  have hcand : candidate b.nodes i = true := (List.mem_filter.mp (List.argmin_mem hmin)).2
  obtain ⟨node', hnode', hon, hlt⟩ := candidate_iff.mp hcand
  obtain rfl : node = node' := Option.some.inj (hnode.symm.trans hnode')
  refine ⟨node, hnode, hon, hlt, rfl, loadAt_eq hnode, ?_, rfl⟩
  intro j other hother hotherOn
  rcases Nat.lt_or_ge other.load uint64Max with hj | hj
  · have hjcand : candidate b.nodes j = true := candidate_iff.mpr ⟨other, hother, hotherOn, hj⟩
    have hjlt : j < b.nodes.length := (List.getElem?_eq_some_iff.mp hother).1
    have hle := List.le_of_mem_argmin (List.mem_filter.mpr ⟨mem_scanOrder.mpr hjlt, hjcand⟩) hmin
    rwa [loadAt_eq hnode, loadAt_eq hother] at hle
  · omega

/-! ## 4. What the other operations change

An id that denotes no node is ignored, and every other node is left alone. -/

/-- `ReleaseWorkerLoad`, `MarkOffline` and `MarkOnline` change at most the node they name. -/
theorem getElem?_updateNode (b : JudgeWorkerBalancer) (id : Int) (f : WorkerNode → WorkerNode)
    (i : Nat) :
    (b.updateNode id f).nodes[i]? =
      b.nodes[i]?.map fun node => if (i : Int) = id then f node else node := by
  unfold updateNode
  split
  · rename_i hneg
    have hne : ¬ (i : Int) = id := by omega
    simp [hne]
  · rename_i hpos
    have hiff : (id.toNat = i) ↔ ((i : Int) = id) := by omega
    rw [List.getElem?_modify]
    cases b.nodes[i]? with
    | none => rfl
    | some node => simp [hiff]

@[simp] theorem length_updateNode (b : JudgeWorkerBalancer) (id : Int)
    (f : WorkerNode → WorkerNode) : (b.updateNode id f).nodes.length = b.nodes.length := by
  unfold updateNode
  split
  · rfl
  · exact List.length_modify _ _ _

@[simp] theorem online_releaseNode (node : WorkerNode) :
    (releaseNode node).online = node.online := by
  unfold releaseNode
  split <;> rfl

@[simp] theorem load_releaseNode (node : WorkerNode) :
    (releaseNode node).load = node.load - 1 := by
  unfold releaseNode
  split
  · rfl
  · omega

/-- The endpoint of this configuration is already registered, as node `i`, which is the first that
has it. -/
def Known (b : JudgeWorkerBalancer) (cfg : JudgeWorkerConfig) (i : Nat) : Prop :=
  b.nodes.findIdx? (fun node => sameEndpoint node.cfg cfg) = some i

instance (b : JudgeWorkerBalancer) (cfg : JudgeWorkerConfig) (i : Nat) :
    Decidable (b.Known cfg i) :=
  inferInstanceAs (Decidable (b.nodes.findIdx? _ = some i))

/-- `UpsertWorker` resets the node of a known endpoint in place, or appends a fresh node. -/
theorem upsertWorker_cases (b : JudgeWorkerBalancer) (cfg : JudgeWorkerConfig) :
    (∃ i, b.Known cfg i ∧ i < b.nodes.length ∧
      b.upsertWorker cfg = ({ b with nodes := b.nodes.set i ⟨cfg, 0, true⟩ }, i, true)) ∨
    ((∀ i, ¬ b.Known cfg i) ∧
      b.upsertWorker cfg =
        ({ b with nodes := b.nodes ++ [⟨cfg, 0, true⟩] }, b.nodes.length, false)) := by
  unfold upsertWorker Known
  cases h : b.nodes.findIdx? (fun node => sameEndpoint node.cfg cfg) with
  | none => exact Or.inr ⟨by simp, rfl⟩
  | some i =>
    have hi : i < b.nodes.length := (List.findIdx?_eq_some_iff_getElem.mp h).1
    exact Or.inl ⟨i, rfl, hi, rfl⟩

end JudgeWorkerBalancer

end OnlineJudge.Judge
