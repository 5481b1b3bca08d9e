/-
# Which worker `SelectWorker` selects

`SelectWorker` (`judge_worker_balancer.h`) scans all nodes once, from the cursor around, and keeps
an online node only if its counter is smaller than the best one so far.  So of the least loaded
online nodes it keeps the first in cyclic order, and the cursor moves behind it.

The online nodes in the order of the scan are a queue (`onlineOrder`), and while their counters are
equal a selection serves the first one and sends it to the end (`Level.selectWorker`).  This holds
whether the selected jobs are released before the next selection or not: in the second case the
nodes that have been served in the current round have one job more, and they are behind the others.

* `selectWorker_spec`: what one call does, in any state.
* `even_distribution`: what any number of calls does to nodes that are equally loaded.
-/
import OnlineJudge.Judge.Dispatch
import OnlineJudge.Lib.RoundRobin

namespace OnlineJudge.Judge.JudgeWorkerBalancer

open DispatchState (sampleWorker)

/-! ## 1. The order of the scan

The scan starts at the cursor and goes around once.  As a rotation of the list of nodes it has each
of them once. -/

/-- The scan is one turn around the list. -/
theorem scanOrder_eq_rotate (b : JudgeWorkerBalancer) :
    b.scanOrder = (List.range b.nodes.length).rotate b.nextWorker := by
  refine List.ext_getElem (by simp [scanOrder]) fun offset h h' => ?_
  simp [scanOrder, List.getElem_rotate, Nat.add_comm]

theorem nodup_scanOrder (b : JudgeWorkerBalancer) : b.scanOrder.Nodup := by
  rw [scanOrder_eq_rotate]
  exact List.nodup_rotate.mpr List.nodup_range

/-- A node is where its distance from the cursor puts it. -/
theorem scanOrder_split {b : JudgeWorkerBalancer} {pre post : List Nat} {i : Nat}
    (h : b.scanOrder = pre ++ i :: post) :
    pre.length < b.nodes.length ∧ i = (b.nextWorker + pre.length) % b.nodes.length ∧
      ∀ offset < pre.length, (b.nextWorker + offset) % b.nodes.length ∈ pre := by
  have hlength : b.nodes.length = pre.length + (post.length + 1) := by
    have hboth := congrArg List.length h
    simpa [scanOrder] using hboth
  have hget : ∀ offset < b.nodes.length,
      b.scanOrder[offset]? = some ((b.nextWorker + offset) % b.nodes.length) := by
    intro offset hoffset
    rw [scanOrder, List.getElem?_map, List.getElem?_range hoffset]
    rfl
  refine ⟨by omega, ?_, fun offset hoffset => ?_⟩
  · have hi := hget pre.length (by omega)
    rw [h, List.getElem?_append_right (le_refl _), Nat.sub_self] at hi
    exact Option.some.inj hi
  · have hj := hget offset (by omega)
    rw [h, List.getElem?_append_left hoffset] at hj
    exact List.mem_of_getElem? hj

/-- Node `i` is online. -/
def onlineAt (nodes : List WorkerNode) (i : Nat) : Bool := nodes[i]?.any WorkerNode.online

theorem onlineAt_iff {nodes : List WorkerNode} {i : Nat} :
    onlineAt nodes i = true ↔ ∃ node, nodes[i]? = some node ∧ node.online = true := by
  simp [onlineAt, Option.any_eq_true]

/-- A counter below the start value of the scan does not keep a node out. -/
theorem candidate_of_lt {nodes : List WorkerNode} {i : Nat} (h : loadAt nodes i < uint64Max) :
    candidate nodes i = onlineAt nodes i := by
  unfold candidate onlineAt
  cases hi : nodes[i]? with
  | none => rfl
  | some node =>
    rw [loadAt_eq hi] at h
    simp [h]

/-! ## 2. One selection

The smallest load comes first and the place in the scan second.  Both are needed to say which node
is selected, and both are on the page here. -/

/-- What a selection of node `i` leaves. -/
def afterSelect (b : JudgeWorkerBalancer) (i : Nat) : JudgeWorkerBalancer where
  nodes := b.nodes.modify i fun node => { node with load := node.load + 1 }
  nextWorker := (i + 1) % b.nodes.length

/-- **A selection, by the place of the node in the scan**: whoever takes part before it has more
load, and whoever takes part behind it has no less. -/
theorem selectWorker_eq_some_iff {b b' : JudgeWorkerBalancer} {sel : Selection} :
    b.selectWorker = some (sel, b') ↔
      ∃ pre post node, b.scanOrder = pre ++ sel.id :: post ∧ b.nodes[sel.id]? = some node ∧
        node.online = true ∧ node.load < uint64Max ∧
        (∀ j ∈ pre, candidate b.nodes j = true → node.load < loadAt b.nodes j) ∧
        (∀ j ∈ post, candidate b.nodes j = true → node.load ≤ loadAt b.nodes j) ∧
        sel.cfg = node.cfg ∧ sel.loadBefore = node.load ∧ b' = b.afterSelect sel.id := by
  have hnodup : (b.scanOrder.filter (candidate b.nodes)).Nodup := b.nodup_scanOrder.filter _
  rw [selectWorker_eq, Option.bind_eq_some_iff]
  constructor
  · rintro ⟨i, hmin, h⟩
    obtain ⟨node, hnode, heq⟩ := Option.map_eq_some_iff.mp h
    rw [Prod.mk.injEq] at heq
    obtain ⟨rfl, rfl⟩ := heq
    have hload : loadAt b.nodes i = node.load := loadAt_eq hnode
    obtain ⟨pre, post, hsplit, hpre, hpost⟩ := (RoundRobin.argmin_eq_some_iff hnodup).mp hmin
    obtain ⟨first, rest, hscan, hfirst, hrest⟩ := List.filter_eq_append_iff.mp hsplit
    obtain ⟨skipped, last, rfl, hskipped, hi, hlast⟩ := List.filter_eq_cons_iff.mp hrest
    obtain ⟨node', hnode', hon, hlt⟩ := candidate_iff.mp hi
    obtain rfl : node = node' := Option.some.inj (hnode.symm.trans hnode')
    refine ⟨first ++ skipped, last, node, by rw [hscan, List.append_assoc], hnode, hon, hlt,
      fun j hj hcand => ?_, fun j hj hcand => ?_, rfl, hload, ?_⟩
    · rcases List.mem_append.mp hj with hj | hj
      · exact hload ▸ hpre j (hfirst ▸ List.mem_filter.mpr ⟨hj, hcand⟩)
      · exact absurd hcand (hskipped j hj)
    · exact hload ▸ hpost j (hlast ▸ List.mem_filter.mpr ⟨hj, hcand⟩)
    · rw [afterSelect, List.modify_eq_set_getElem?, hnode]
      rfl
  · rintro ⟨pre, post, node, hscan, hnode, hon, hlt, hpre, hpost, hcfg, hbefore, rfl⟩
    have hload : loadAt b.nodes sel.id = node.load := loadAt_eq hnode
    have hcand : candidate b.nodes sel.id = true := candidate_iff.mpr ⟨node, hnode, hon, hlt⟩
    refine ⟨sel.id, (RoundRobin.argmin_eq_some_iff hnodup).mpr
      ⟨pre.filter (candidate b.nodes), post.filter (candidate b.nodes), ?_, fun j hj => ?_,
        fun j hj => ?_⟩, ?_⟩
    · rw [hscan, List.filter_append, List.filter_cons_of_pos hcand]
    · obtain ⟨hj, hc⟩ := List.mem_filter.mp hj
      exact hload ▸ hpre j hj hc
    · obtain ⟨hj, hc⟩ := List.mem_filter.mp hj
      exact hload ▸ hpost j hj hc
    · rw [hnode, Option.map_some, Option.some.injEq, Prod.mk.injEq]
      refine ⟨?_, ?_⟩
      · rw [hload, ← hcfg, ← hbefore]
      · rw [afterSelect, List.modify_eq_set_getElem?, hnode]
        rfl

/-- Nothing is selected when nobody takes part. -/
theorem selectWorker_eq_none_iff {b : JudgeWorkerBalancer} :
    b.selectWorker = none ↔ ∀ i, candidate b.nodes i = false := by
  constructor
  · intro h i
    by_contra hcand
    rw [Bool.not_eq_false] at hcand
    obtain ⟨node, hnode, -⟩ := candidate_iff.mp hcand
    have hmem : i ∈ b.scanOrder.filter (candidate b.nodes) :=
      List.mem_filter.mpr ⟨mem_scanOrder.mpr (List.getElem?_eq_some_iff.mp hnode).1, hcand⟩
    rw [selectWorker_eq, Option.bind_eq_none_iff] at h
    cases hmin : (b.scanOrder.filter (candidate b.nodes)).argmin (loadAt b.nodes) with
    | none =>
      rw [List.argmin_eq_none.mp hmin] at hmem
      cases hmem
    | some j =>
      have hj := (List.mem_filter.mp (List.argmin_mem hmin)).2
      obtain ⟨other, hother, -⟩ := candidate_iff.mp hj
      have hnone := h j hmin
      rw [hother] at hnone
      cases hnone
  · intro h
    have hnil : b.scanOrder.filter (candidate b.nodes) = [] := by
      rw [List.filter_eq_nil_iff]
      intro i _
      rw [h i]
      exact Bool.false_ne_true
    rw [selectWorker_eq, hnil]
    rfl

/-- **`SelectWorker`**, in any state in which no counter has come to its end.  It fails exactly
when no node is online.  Otherwise it selects the first node in cyclic order, from the cursor on,
among the online nodes with the smallest load; it hands back the node's configuration and load,
and the node has one job more and the cursor is behind it. -/
theorem selectWorker_spec (b : JudgeWorkerBalancer)
    (hloads : ∀ node ∈ b.nodes, node.load < uint64Max) :
    (b.selectWorker = none ↔ ∀ node ∈ b.nodes, node.online = false) ∧
      ∀ sel b', b.selectWorker = some (sel, b') →
        ∃ node offset, offset < b.nodes.length ∧
          sel.id = (b.nextWorker + offset) % b.nodes.length ∧
          b.nodes[sel.id]? = some node ∧ node.online = true ∧
          (∀ other ∈ b.nodes, other.online = true → node.load ≤ other.load) ∧
          (∀ earlier < offset, ∀ other,
            b.nodes[(b.nextWorker + earlier) % b.nodes.length]? = some other →
              other.online = true → node.load < other.load) ∧
          sel.cfg = node.cfg ∧ sel.loadBefore = node.load ∧
          b' = { nodes := b.nodes.modify sel.id fun node => { node with load := node.load + 1 }
                 nextWorker := (sel.id + 1) % b.nodes.length } := by
  have hcandidate : ∀ i, candidate b.nodes i = onlineAt b.nodes i := by
    refine fun i => candidate_of_lt ?_
    cases hi : b.nodes[i]? with
    | none => simp [loadAt, hi, uint64Max]
    | some node =>
      rw [loadAt_eq hi]
      exact hloads node (List.mem_of_getElem? hi)
  refine ⟨?_, fun sel b' hsel => ?_⟩
  · rw [selectWorker_eq_none_iff]
    constructor
    · intro h node hmem
      obtain ⟨i, hnode⟩ := List.mem_iff_getElem?.mp hmem
      have hoff := h i
      rw [hcandidate, onlineAt, hnode] at hoff
      exact hoff
    · intro h i
      rw [hcandidate, onlineAt]
      cases hi : b.nodes[i]? with
      | none => rfl
      | some node => exact h node (List.mem_of_getElem? hi)
  · obtain ⟨pre, post, node, hscan, hnode, hon, hlt, hpre, hpost, hcfg, hbefore, rfl⟩ :=
      selectWorker_eq_some_iff.mp hsel
    obtain ⟨hlength, hid, hearlier⟩ := scanOrder_split hscan
    have hload : ∀ j other, b.nodes[j]? = some other → other.online = true →
        candidate b.nodes j = true ∧ loadAt b.nodes j = other.load := by
      intro j other hother hotherOn
      rw [hcandidate]
      exact ⟨onlineAt_iff.mpr ⟨other, hother, hotherOn⟩, loadAt_eq hother⟩
    refine ⟨node, pre.length, hlength, hid, hnode, hon, fun other hmem hotherOn => ?_,
      fun earlier hlt other hother hotherOn => ?_, hcfg, hbefore, rfl⟩
    · obtain ⟨j, hother⟩ := List.mem_iff_getElem?.mp hmem
      obtain ⟨hcand, heq⟩ := hload j other hother hotherOn
      have hj : j ∈ pre ++ sel.id :: post :=
        hscan ▸ mem_scanOrder.mpr (List.getElem?_eq_some_iff.mp hother).1
      rw [← heq]
      rcases List.mem_append.mp hj with hj | hj
      · exact (hpre j hj hcand).le
      · rcases List.mem_cons.mp hj with rfl | hj
        · exact (loadAt_eq hnode).ge
        · exact hpost j hj hcand
    · obtain ⟨hcand, heq⟩ := hload _ other hother hotherOn
      rw [← heq]
      exact hpre _ (hearlier earlier hlt) hcand

/-- Three workers, the second of them offline, with the cursor at it. -/
def threeWorkers : JudgeWorkerBalancer :=
  ⟨[⟨sampleWorker 9001, 0, true⟩, ⟨sampleWorker 9002, 0, false⟩, ⟨sampleWorker 9003, 0, true⟩], 1⟩

theorem selectWorker_spec_threeWorkers :
    ∃ offset < 3, (2 : Nat) = (1 + offset) % 3 ∧
      threeWorkers.selectWorker = some (⟨2, sampleWorker 9003, 0⟩,
        ⟨[⟨sampleWorker 9001, 0, true⟩, ⟨sampleWorker 9002, 0, false⟩,
          ⟨sampleWorker 9003, 1, true⟩], 0⟩) := by
  have hsel : threeWorkers.selectWorker = some (⟨2, sampleWorker 9003, 0⟩,
      ⟨[⟨sampleWorker 9001, 0, true⟩, ⟨sampleWorker 9002, 0, false⟩,
        ⟨sampleWorker 9003, 1, true⟩], 0⟩) := by decide
  obtain ⟨-, offset, hlt, hid, -⟩ := (selectWorker_spec threeWorkers (by decide)).2 _ _ hsel
  exact ⟨offset, hlt, hid, hsel⟩

/-! ## 3. The queue of the online nodes

The nodes that are offline stand in between and are passed over.  Without them the scan is a queue,
and a selection sends its first member to the end. -/

/-- The online nodes in the order of the scan. -/
def onlineOrder (b : JudgeWorkerBalancer) : List Nat := b.scanOrder.filter (onlineAt b.nodes)

/-- `OnlineCount`: how many nodes are online. -/
def onlineCount (b : JudgeWorkerBalancer) : Nat := b.nodes.countP WorkerNode.online

theorem mem_onlineOrder {b : JudgeWorkerBalancer} {i : Nat} :
    i ∈ b.onlineOrder ↔ onlineAt b.nodes i = true := by
  rw [onlineOrder, List.mem_filter, mem_scanOrder, and_iff_right_iff_imp]
  intro h
  obtain ⟨node, hnode, -⟩ := onlineAt_iff.mp h
  exact (List.getElem?_eq_some_iff.mp hnode).1

theorem nodup_onlineOrder (b : JudgeWorkerBalancer) : b.onlineOrder.Nodup :=
  b.nodup_scanOrder.filter _

theorem length_onlineOrder (b : JudgeWorkerBalancer) : b.onlineOrder.length = b.onlineCount := by
  have hperm : b.onlineOrder.Perm ((List.range b.nodes.length).filter (onlineAt b.nodes)) := by
    rw [onlineOrder, scanOrder_eq_rotate]
    exact (List.rotate_perm _ _).filter _
  have hnodes : b.nodes.map some = (List.range b.nodes.length).map fun i => b.nodes[i]? := by
    refine List.ext_getElem? fun i => ?_
    rcases Nat.lt_or_ge i b.nodes.length with hi | hi
    · simp [hi]
    · simp [hi]
  have hcount : b.nodes.countP WorkerNode.online =
      (b.nodes.map some).countP fun node => node.any WorkerNode.online := by
    rw [List.countP_map]
    rfl
  rw [hperm.length_eq, onlineCount, hcount, hnodes, List.countP_map, ← List.countP_eq_length_filter]
  rfl

theorem onlineAt_modify {nodes : List WorkerNode} {f : WorkerNode → WorkerNode}
    (hf : ∀ node, (f node).online = node.online) (i : Nat) :
    onlineAt (nodes.modify i f) = onlineAt nodes := by
  funext j
  rw [onlineAt, onlineAt, List.getElem?_modify]
  cases nodes[j]? with
  | none => rfl
  | some node =>
    by_cases hij : i = j
    · simp [hij, hf]
    · simp [hij]

/-- The queue after a selection: the node goes to its end. -/
theorem onlineOrder_afterSelect {b : JudgeWorkerBalancer} {i : Nat} {rest : List Nat}
    (h : b.onlineOrder = i :: rest) : (b.afterSelect i).onlineOrder = rest ++ [i] := by
  obtain ⟨pre, post, hscan, hpre, hi, hpost⟩ := List.filter_eq_cons_iff.mp h
  obtain ⟨hlength, hplace, -⟩ := scanOrder_split hscan
  have hnext : (i + 1) % b.nodes.length =
      (b.nextWorker + (pre.length + 1)) % b.nodes.length := by
    rw [hplace, Nat.mod_add_mod, Nat.add_assoc]
  have hturn : (pre ++ [i] ++ post).rotate (pre.length + 1) = post ++ (pre ++ [i]) := by
    have happend := List.rotate_append_length_eq (pre ++ [i]) post
    rwa [List.length_append, List.length_singleton] at happend
  have hrange : (b.afterSelect i).scanOrder =
      (List.range b.nodes.length).rotate (b.nextWorker + (pre.length + 1)) := by
    have hmod := List.rotate_mod (List.range b.nodes.length) (b.nextWorker + (pre.length + 1))
    rw [List.length_range, ← hnext] at hmod
    rw [scanOrder_eq_rotate]
    simpa only [afterSelect, List.length_modify] using hmod
  have hscan' : (b.afterSelect i).scanOrder = post ++ (pre ++ [i]) := by
    rw [hrange, ← List.rotate_rotate, ← scanOrder_eq_rotate, hscan, ← List.singleton_append,
      ← List.append_assoc, hturn]
  have honline : onlineAt (b.afterSelect i).nodes = onlineAt b.nodes :=
    onlineAt_modify (f := fun node => { node with load := node.load + 1 }) (fun _ => rfl) i
  have hpre' : pre.filter (onlineAt b.nodes) = [] := List.filter_eq_nil_iff.mpr hpre
  rw [onlineOrder, honline, hscan', List.filter_append, List.filter_append, hpre', hpost,
    List.nil_append, List.filter_cons_of_pos hi, List.filter_nil]

/-! ## 4. Equally loaded nodes take turns

While loads are equal only the place decides.  A round in which jobs are not released makes the
loads unequal by one, and the queue then has two parts. -/

/-- The job of a selection is released, or it is not. -/
def settle (release : Bool) (b : JudgeWorkerBalancer) (i : Nat) : JudgeWorkerBalancer :=
  if release then b.releaseWorkerLoad i else b

/-- `k` selections in a row; each job is released before the next one is selected, or none is.
The ids are in the order of the selections. -/
def selections (release : Bool) : Nat → JudgeWorkerBalancer →
    Option (List Nat × JudgeWorkerBalancer)
  | 0, b => some ([], b)
  | k + 1, b =>
    match b.selectWorker with
    | none => none
    | some (sel, b') =>
      (selections release k (settle release b' sel.id)).map fun p => (sel.id :: p.1, p.2)

/-- The nodes at the front of the queue have load `load`, and those at the back have been served in
this round and have one job more. -/
structure Level (b : JudgeWorkerBalancer) (front back : List Nat) (load : Nat) : Prop where
  order : b.onlineOrder = front ++ back
  front : ∀ i ∈ front, loadAt b.nodes i = load
  back : ∀ i ∈ back, loadAt b.nodes i = load + 1

theorem loadAt_modify_self {nodes : List WorkerNode} {f : WorkerNode → WorkerNode} {i : Nat}
    {node : WorkerNode} (h : nodes[i]? = some node) :
    loadAt (nodes.modify i f) i = (f node).load := by
  rw [loadAt, List.getElem?_modify, h]
  simp

theorem loadAt_modify_of_ne {nodes : List WorkerNode} {f : WorkerNode → WorkerNode} {i j : Nat}
    (hne : j ≠ i) : loadAt (nodes.modify i f) j = loadAt nodes j := by
  rw [loadAt, List.getElem?_modify, loadAt]
  simp [Ne.symm hne]

/-- **The front of the queue is selected**, as long as no counter has come to the greatest number
there is. -/
theorem Level.selectWorker {b : JudgeWorkerBalancer} {i load : Nat} {front back : List Nat}
    (h : b.Level (i :: front) back load) (hload : load < uint64Max) :
    ∃ sel, b.selectWorker = some (sel, b.afterSelect i) ∧ sel.id = i := by
  have hi := h.front i List.mem_cons_self
  have horder : b.onlineOrder = i :: (front ++ back) := h.order
  obtain ⟨pre, post, hscan, hpre, honline, hpost⟩ := List.filter_eq_cons_iff.mp horder
  obtain ⟨node, hnode, hon⟩ := onlineAt_iff.mp honline
  rw [loadAt_eq hnode] at hi
  refine ⟨⟨i, node.cfg, node.load⟩, selectWorker_eq_some_iff.mpr
    ⟨pre, post, node, hscan, hnode, hon, hi ▸ hload, fun j hj hcand => ?_, fun j hj hcand => ?_,
      rfl, rfl, rfl⟩, rfl⟩
  · obtain ⟨other, hother, hotherOn, -⟩ := candidate_iff.mp hcand
    exact absurd (onlineAt_iff.mpr ⟨other, hother, hotherOn⟩) (hpre j hj)
  · obtain ⟨other, hother, hotherOn, -⟩ := candidate_iff.mp hcand
    have hmem : j ∈ front ++ back :=
      hpost ▸ List.mem_filter.mpr ⟨hj, onlineAt_iff.mpr ⟨other, hother, hotherOn⟩⟩
    rcases List.mem_append.mp hmem with hmem | hmem
    · rw [hi, h.front j (List.mem_cons_of_mem _ hmem)]
    · rw [hi, h.back j hmem]
      exact Nat.le_succ _

theorem Level.nodup {b : JudgeWorkerBalancer} {load : Nat} {front back : List Nat}
    (h : b.Level front back load) : (front ++ back).Nodup := h.order ▸ b.nodup_onlineOrder

/-- It goes to the back with one job more. -/
theorem Level.afterSelect {b : JudgeWorkerBalancer} {i load : Nat} {front back : List Nat}
    (h : b.Level (i :: front) back load) :
    (b.afterSelect i).Level front (back ++ [i]) load := by
  have hnodup := h.nodup
  rw [List.cons_append, List.nodup_cons] at hnodup
  have hother : ∀ j ∈ front ++ back, loadAt (b.afterSelect i).nodes j = loadAt b.nodes j := by
    intro j hj
    exact loadAt_modify_of_ne fun heq => hnodup.1 (heq ▸ hj)
  have hself : loadAt (b.afterSelect i).nodes i = load + 1 := by
    have honline : onlineAt b.nodes i = true :=
      mem_onlineOrder.mp (h.order ▸ List.mem_cons_self)
    obtain ⟨node, hnode, -⟩ := onlineAt_iff.mp honline
    have hi := h.front i List.mem_cons_self
    rw [loadAt_eq hnode] at hi
    exact (loadAt_modify_self hnode).trans (congrArg (· + 1) hi)
  have horder : b.onlineOrder = i :: (front ++ back) := h.order
  refine ⟨?_, fun j hj => ?_, fun j hj => ?_⟩
  · rw [onlineOrder_afterSelect horder, List.append_assoc]
  · rw [hother j (List.mem_append_left _ hj)]
    exact h.front j (List.mem_cons_of_mem _ hj)
  · rcases List.mem_append.mp hj with hj | hj
    · rw [hother j (List.mem_append_right _ hj)]
      exact h.back j hj
    · rw [List.mem_singleton.mp hj]
      exact hself

/-- When the round is over, the back of the queue is the front of the next one. -/
theorem Level.nextRound {b : JudgeWorkerBalancer} {load : Nat} {back : List Nat}
    (h : b.Level [] back load) : b.Level back [] (load + 1) :=
  ⟨by rw [h.order, List.nil_append, List.append_nil], h.back, by simp⟩

/-- A job that is released: the queue stays as it is, and the node has one job less. -/
theorem Level.released {b : JudgeWorkerBalancer} {i load : Nat} {front : List Nat}
    (h : b.Level front [i] load) : (b.releaseWorkerLoad i).Level (front ++ [i]) [] load := by
  have hnodes : (b.releaseWorkerLoad i).nodes = b.nodes.modify i releaseNode := by
    rw [releaseWorkerLoad, updateNode, if_neg (by omega)]
    rfl
  have hcursor : (b.releaseWorkerLoad i).nextWorker = b.nextWorker := by
    rw [releaseWorkerLoad, updateNode, if_neg (by omega)]
  have horder : (b.releaseWorkerLoad i).onlineOrder = b.onlineOrder := by
    rw [onlineOrder, scanOrder, hcursor, hnodes, onlineAt_modify online_releaseNode,
      List.length_modify]
    rfl
  have hself : loadAt (b.nodes.modify i releaseNode) i = load := by
    have honline : onlineAt b.nodes i = true :=
      mem_onlineOrder.mp (h.order ▸ List.mem_append_right _ List.mem_cons_self)
    obtain ⟨node, hnode, -⟩ := onlineAt_iff.mp honline
    have hi := h.back i List.mem_cons_self
    rw [loadAt_eq hnode] at hi
    rw [loadAt_modify_self hnode, load_releaseNode, hi, Nat.add_sub_cancel]
  refine ⟨?_, fun j hj => ?_, by simp⟩
  · rw [horder, h.order, List.append_nil]
  · rw [hnodes]
    by_cases hji : j = i
    · rw [hji]
      exact hself
    · rw [loadAt_modify_of_ne hji]
      rcases List.mem_append.mp hj with hj | hj
      · exact h.front j hj
      · exact absurd (List.mem_singleton.mp hj) hji

/-- The queue is level, with someone at its front; while jobs are released nobody is at its
back. -/
structure Ready (release : Bool) (b : JudgeWorkerBalancer) (queue : List Nat) (load : Nat) :
    Prop where
  level : ∃ front back, queue = front ++ back ∧ front ≠ [] ∧ (release = true → back = []) ∧
    b.Level front back load

/-- **The step lemma**: the first one in the queue is selected and goes to its end. -/
theorem Ready.select {release : Bool} {b : JudgeWorkerBalancer} {queue : List Nat} {load : Nat}
    (h : Ready release b queue load) (hload : load < uint64Max) :
    ∃ sel b' i rest load', b.selectWorker = some (sel, b') ∧ sel.id = i ∧ queue = i :: rest ∧
      load' ≤ load + 1 ∧ (release = true → load' = load) ∧
      Ready release (settle release b' i) (rest ++ [i]) load' := by
  obtain ⟨front, back, rfl, hfront, hback, hlevel⟩ := h.level
  cases front with
  | nil => exact absurd rfl hfront
  | cons i front =>
    obtain ⟨sel, hsel, hid⟩ := hlevel.selectWorker hload
    have hafter := hlevel.afterSelect
    cases release with
    | true =>
      obtain rfl := hback rfl
      refine ⟨sel, _, i, front, load, hsel, hid, by rw [List.append_nil], Nat.le_succ _,
        fun _ => rfl, ⟨front ++ [i], [], by rw [List.append_nil], by simp, fun _ => rfl, ?_⟩⟩
      exact Level.released hafter
    | false =>
      by_cases hround : front = []
      · -- the round is over
        subst hround
        refine ⟨sel, _, i, back, load + 1, hsel, hid, rfl, le_refl _, by simp,
          ⟨back ++ [i], [], by rw [List.append_nil], by simp, by simp, hafter.nextRound⟩⟩
      · refine ⟨sel, _, i, front ++ back, load, hsel, hid, rfl, Nat.le_succ _, by simp,
          ⟨front, back ++ [i], by rw [List.append_assoc], hround, by simp, hafter⟩⟩

theorem Ready.load_lt {release : Bool} {b b' : JudgeWorkerBalancer} {queue : List Nat} {load : Nat}
    (h : Ready release b queue load) {sel : Selection} (hsel : b.selectWorker = some (sel, b')) :
    load < uint64Max := by
  obtain ⟨front, back, rfl, -, -, hlevel⟩ := h.level
  obtain ⟨-, -, node, -, hnode, hon, hlt, -⟩ := selectWorker_eq_some_iff.mp hsel
  have hmem : sel.id ∈ front ++ back :=
    hlevel.order ▸ mem_onlineOrder.mpr (onlineAt_iff.mpr ⟨node, hnode, hon⟩)
  rcases List.mem_append.mp hmem with hmem | hmem
  · have hload := hlevel.front _ hmem
    rw [loadAt_eq hnode] at hload
    omega
  · have hload := hlevel.back _ hmem
    rw [loadAt_eq hnode] at hload
    omega

/-- **The run lemma**: the members of the queue take turns. -/
theorem Ready.selections {release : Bool} {k : Nat} {b : JudgeWorkerBalancer} {queue : List Nat}
    {load : Nat} (h : Ready release b queue load) {ids : List Nat} {b' : JudgeWorkerBalancer}
    (hrun : selections release k b = some (ids, b')) : ids = RoundRobin.turns k queue := by
  induction k generalizing b queue load ids with
  | zero =>
    obtain ⟨rfl, -⟩ := Prod.mk.inj (Option.some.inj hrun)
    exact (RoundRobin.turns_zero _).symm
  | succ k ih =>
    rw [JudgeWorkerBalancer.selections] at hrun
    cases hsel : b.selectWorker with
    | none =>
      rw [hsel] at hrun
      cases hrun
    | some p =>
      obtain ⟨sel, b₁, i, rest, load', hsel', hid, rfl, -, -, hnext⟩ := h.select (h.load_lt hsel)
      simp only [hsel', hid] at hrun
      obtain ⟨⟨later, b₂⟩, hlater, heq⟩ := Option.map_eq_some_iff.mp hrun
      obtain ⟨rfl, rfl⟩ := Prod.mk.inj heq
      rw [RoundRobin.turns_cons, ← ih hnext hlater]

/-- A run goes on until a counter comes to its end, and when the jobs are released none does. -/
theorem Ready.exists_selections {release : Bool} {k : Nat} {b : JudgeWorkerBalancer}
    {queue : List Nat} {load : Nat} (h : Ready release b queue load)
    (hload : load + (if release then min k 1 else k) ≤ uint64Max) :
    ∃ p, JudgeWorkerBalancer.selections release k b = some p := by
  induction k generalizing b queue load with
  | zero => exact ⟨_, rfl⟩
  | succ k ih =>
    obtain ⟨sel, b', i, rest, load', hsel, hid, -, hle, heq, hnext⟩ :=
      h.select (by split at hload <;> omega)
    obtain ⟨p, hp⟩ := ih hnext <| by
      cases release with
      | true =>
        rw [heq rfl]
        simp only [if_true] at hload ⊢
        omega
      | false =>
        simp only [Bool.false_eq_true, if_false] at hload ⊢
        omega
    refine ⟨(i :: p.1, p.2), ?_⟩
    simp only [JudgeWorkerBalancer.selections, hsel, hid, hp, Option.map_some]

/-- Equally loaded nodes are such a queue. -/
theorem ready_of_level {b : JudgeWorkerBalancer} {load : Nat}
    (hlevel : ∀ node ∈ b.nodes, node.online = true → node.load = load)
    (honline : 1 ≤ b.onlineCount) (release : Bool) : Ready release b b.onlineOrder load := by
  refine ⟨b.onlineOrder, [], (List.append_nil _).symm, ?_, fun _ => rfl,
    (List.append_nil _).symm, fun i hi => ?_, by simp⟩
  · rw [← List.length_pos_iff, length_onlineOrder]
    exact honline
  · obtain ⟨node, hnode, hon⟩ := onlineAt_iff.mp (mem_onlineOrder.mp hi)
    rw [loadAt_eq hnode]
    exact hlevel node (List.mem_of_getElem? hnode) hon

/-- **Even distribution.**  From any state in which the online nodes are equally loaded, whether
every job is released before the next selection or none is: `k` selections can be made as long as
the counters last (they last for ever when the jobs are released), any `OnlineCount` of them in a
row are of different online nodes, and every online node is selected `k / OnlineCount` times,
rounded down or up. -/
theorem even_distribution (b : JudgeWorkerBalancer) (load : Nat)
    (hlevel : ∀ node ∈ b.nodes, node.online = true → node.load = load)
    (honline : 1 ≤ b.onlineCount) (release : Bool) (k : Nat) :
    (load + (if release then min k 1 else k) ≤ uint64Max →
        ∃ p, selections release k b = some p) ∧
      ∀ ids b', selections release k b = some (ids, b') →
        ids.length = k ∧ (∀ id ∈ ids, onlineAt b.nodes id = true) ∧
        (∀ i, ((ids.drop i).take b.onlineCount).Nodup) ∧
        ∀ id, onlineAt b.nodes id = true →
          ids.count id = k / b.onlineCount ∨
            ids.count id = (k + b.onlineCount - 1) / b.onlineCount := by
  have hready := ready_of_level hlevel honline release
  have hne : b.onlineOrder ≠ [] := by
    rw [← List.length_pos_iff, length_onlineOrder]
    exact honline
  refine ⟨hready.exists_selections, fun ids b' hrun => ?_⟩
  obtain rfl := hready.selections hrun
  rw [← length_onlineOrder]
  refine ⟨RoundRobin.length_turns k hne,
    fun id hmem => mem_onlineOrder.mp (RoundRobin.mem_of_mem_turns hmem),
    fun i => RoundRobin.nodup_window b.nodup_onlineOrder k i, fun id hid => ?_⟩
  exact RoundRobin.count_turns b.nodup_onlineOrder (mem_onlineOrder.mpr hid) k

theorem even_distribution_threeWorkers :
    selections false 3 threeWorkers = some ([2, 0, 2],
      ⟨[⟨sampleWorker 9001, 1, true⟩, ⟨sampleWorker 9002, 0, false⟩,
        ⟨sampleWorker 9003, 2, true⟩], 0⟩) ∧ ([2, 0, 2] : List Nat).count 2 = (3 + 2 - 1) / 2 := by
  have hrun : selections false 3 threeWorkers = some ([2, 0, 2],
      ⟨[⟨sampleWorker 9001, 1, true⟩, ⟨sampleWorker 9002, 0, false⟩,
        ⟨sampleWorker 9003, 2, true⟩], 0⟩) := by decide
  refine ⟨hrun, ?_⟩
  have hcount := ((even_distribution threeWorkers 0 (by decide) (by decide) false 3).2 _ _
    hrun).2.2.2 2 (by decide)
  exact hcount.resolve_left (by decide)

end OnlineJudge.Judge.JudgeWorkerBalancer
