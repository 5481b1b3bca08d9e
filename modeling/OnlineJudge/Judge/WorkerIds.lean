/-
# What the id of a worker means

Judge threads and probes hold the id of a worker across slow network calls, and hand it back to
`ReleaseWorkerLoad`, `MarkOffline` and `MarkOnline`.  An id is an index into `nodes_`, so that is
right only if an index keeps meaning the worker it was handed out for.

It does, since for its endpoints the list is a register that is only ever appended to (`enrol`),
and each member function is one entry in it or none (`endpoints_call`).

* `worker_ids_stable`: after any calls, with any arguments, the endpoints are pairwise different
  and every id denotes what it denoted before; `refreshed` says whether the endpoint was known.
-/
import OnlineJudge.Judge.Balancer

namespace OnlineJudge.Judge

/-! ## 1. A register of names

Names are entered at the end, each once.  What is entered keeps its place, and that is all there is
to say of such a list. -/

section Enrol

variable {α : Type*} [DecidableEq α]

/-- Enter a name, unless it is there. -/
def enrol (known : List α) (name : α) : List α :=
  if name ∈ known then known else known ++ [name]

theorem enrol_of_mem {known : List α} {name : α} (h : name ∈ known) : enrol known name = known :=
  if_pos h

theorem enrol_of_not_mem {known : List α} {name : α} (h : name ∉ known) :
    enrol known name = known ++ [name] :=
  if_neg h

theorem prefix_enrol (known : List α) (name : α) : known <+: enrol known name := by
  by_cases h : name ∈ known
  · exact (enrol_of_mem h).symm ▸ List.prefix_refl known
  · rw [enrol_of_not_mem h]
    exact List.prefix_append _ _

theorem nodup_enrol {known : List α} (h : known.Nodup) (name : α) : (enrol known name).Nodup := by
  by_cases hmem : name ∈ known
  · rwa [enrol_of_mem hmem]
  · rw [enrol_of_not_mem hmem, List.nodup_append]
    refine ⟨h, List.pairwise_singleton _ name, fun a ha b hb => ?_⟩
    rw [List.mem_singleton.mp hb]
    rintro rfl
    exact hmem ha

end Enrol

/-! ## 2. The calls

The member functions with any arguments, in any order.  Ids that denote nothing are among the
arguments. -/

/-- A call of a member function, with any arguments. -/
inductive BalancerCall
  | upsertWorker (cfg : JudgeWorkerConfig)
  | selectWorker
  | releaseWorkerLoad (id : Int)
  | markOffline (id : Int)
  | markOnline (id : Int)
deriving DecidableEq

namespace JudgeWorkerBalancer

/-- The balancer after a call. -/
def call (b : JudgeWorkerBalancer) : BalancerCall → JudgeWorkerBalancer
  | .upsertWorker cfg => (b.upsertWorker cfg).1
  | .selectWorker => (b.selectWorker.map Prod.snd).getD b
  | .releaseWorkerLoad id => b.releaseWorkerLoad id
  | .markOffline id => b.markOffline id
  | .markOnline id => b.markOnline id

/-- The balancer after some calls in a row. -/
def after (b : JudgeWorkerBalancer) (calls : List BalancerCall) : JudgeWorkerBalancer :=
  calls.foldl call b

/-- What `SameEndpoint` compares. -/
def endpoint (cfg : JudgeWorkerConfig) : Bytes × Int := (cfg.host, cfg.port)

theorem sameEndpoint_iff {lhs rhs : JudgeWorkerConfig} :
    sameEndpoint lhs rhs = true ↔ endpoint lhs = endpoint rhs := by
  simp [sameEndpoint, endpoint]

/-- The endpoints in the order of the ids. -/
def endpoints (b : JudgeWorkerBalancer) : List (Bytes × Int) :=
  b.nodes.map fun node => endpoint node.cfg

theorem length_endpoints (b : JudgeWorkerBalancer) : b.endpoints.length = b.nodes.length :=
  List.length_map _

theorem getElem?_endpoints {b : JudgeWorkerBalancer} {i : Nat} {node : WorkerNode}
    (h : b.nodes[i]? = some node) : b.endpoints[i]? = some (endpoint node.cfg) := by
  rw [endpoints, List.getElem?_map, h]
  rfl

/-! ## 3. One call

Each call either enters one endpoint or leaves the register as it is; loads and flags are not part
of it. -/

/-- The endpoint is known as node `i`. -/
theorem Known.getElem? {b : JudgeWorkerBalancer} {cfg : JudgeWorkerConfig} {i : Nat}
    (h : b.Known cfg i) : b.endpoints[i]? = some (endpoint cfg) := by
  obtain ⟨hi, hsame, -⟩ := List.findIdx?_eq_some_iff_getElem.mp h
  rw [getElem?_endpoints (List.getElem?_eq_getElem hi), sameEndpoint_iff.mp hsame]

/-- It is known as one of the nodes, if it is among their endpoints. -/
theorem exists_known {b : JudgeWorkerBalancer} {cfg : JudgeWorkerConfig}
    (h : endpoint cfg ∈ b.endpoints) : ∃ i, b.Known cfg i := by
  obtain ⟨node, hmem, heq⟩ := List.mem_map.mp h
  cases hfind : b.nodes.findIdx? (fun node => sameEndpoint node.cfg cfg) with
  | some i => exact ⟨i, hfind⟩
  | none =>
    have hnot := List.findIdx?_eq_none_iff.mp hfind node hmem
    rw [sameEndpoint_iff.mpr heq] at hnot
    cases hnot

/-- A node that is written in place keeps its endpoint. -/
theorem endpoints_set {b : JudgeWorkerBalancer} {i : Nat} {node : WorkerNode} {cursor : Nat}
    (h : b.endpoints[i]? = some (endpoint node.cfg)) :
    endpoints ⟨b.nodes.set i node, cursor⟩ = b.endpoints := by
  have hset : endpoints ⟨b.nodes.set i node, cursor⟩ = b.endpoints.set i (endpoint node.cfg) :=
    List.map_set
  rw [hset]
  obtain ⟨hi, heq⟩ := List.getElem?_eq_some_iff.mp h
  rw [← heq, List.set_getElem_self]

/-- **`UpsertWorker`**: the endpoint is entered, the id denotes it, and `refreshed` says whether it
was there. -/
theorem upsertWorker_spec (b : JudgeWorkerBalancer) (cfg : JudgeWorkerConfig) :
    (b.upsertWorker cfg).1.endpoints = enrol b.endpoints (endpoint cfg) ∧
      (b.upsertWorker cfg).1.endpoints[(b.upsertWorker cfg).2.1]? = some (endpoint cfg) ∧
      ((b.upsertWorker cfg).2.2 = true ↔ endpoint cfg ∈ b.endpoints) := by
  rcases b.upsertWorker_cases cfg with ⟨i, hknown, -, heq⟩ | ⟨hnew, heq⟩
  · have hplace := hknown.getElem?
    have hmem : endpoint cfg ∈ b.endpoints := List.mem_of_getElem? hplace
    have hsame : endpoints { b with nodes := b.nodes.set i ⟨cfg, 0, true⟩ } = b.endpoints :=
      endpoints_set hplace
    rw [heq, enrol_of_mem hmem]
    exact ⟨hsame, by rw [hsame]; exact hplace, by simpa using hmem⟩
  · have hmem : endpoint cfg ∉ b.endpoints := by
      intro h
      obtain ⟨i, hi⟩ := exists_known h
      exact hnew i hi
    have happend : endpoints { b with nodes := b.nodes ++ [⟨cfg, 0, true⟩] } =
        b.endpoints ++ [endpoint cfg] := List.map_append
    rw [heq, enrol_of_not_mem hmem]
    refine ⟨happend, ?_, by simpa using hmem⟩
    rw [happend, ← length_endpoints, List.getElem?_concat_length]

theorem endpoints_updateNode (b : JudgeWorkerBalancer) (id : Int) {f : WorkerNode → WorkerNode}
    (hf : ∀ node, (f node).cfg = node.cfg) : (b.updateNode id f).endpoints = b.endpoints := by
  refine List.ext_getElem? fun i => ?_
  rw [endpoints, endpoints, List.getElem?_map, List.getElem?_map, getElem?_updateNode]
  cases b.nodes[i]? with
  | none => rfl
  | some node =>
    by_cases hid : (i : Int) = id
    · simp [hid, hf]
    · simp [hid]

/-- `SelectWorker` changes no endpoint, and the id denotes the worker it hands back. -/
theorem endpoints_selectWorker {b b' : JudgeWorkerBalancer} {sel : Selection}
    (h : b.selectWorker = some (sel, b')) :
    b'.endpoints = b.endpoints ∧ b.endpoints[sel.id]? = some (endpoint sel.cfg) := by
  obtain ⟨node, hnode, -, -, hcfg, -, -, rfl⟩ := selectWorker_cases h
  have hplace := getElem?_endpoints hnode
  refine ⟨endpoints_set hplace, ?_⟩
  rw [hcfg]
  exact hplace

/-- **A call is one entry, or none**: only a registration appends, and only of an endpoint that is
not there. -/
theorem endpoints_call (b : JudgeWorkerBalancer) (c : BalancerCall) :
    (∃ cfg, c = .upsertWorker cfg ∧ (b.call c).endpoints = enrol b.endpoints (endpoint cfg)) ∨
      (b.call c).endpoints = b.endpoints := by
  cases c with
  | upsertWorker cfg => exact Or.inl ⟨cfg, rfl, (b.upsertWorker_spec cfg).1⟩
  | selectWorker =>
    right
    rw [call]
    cases h : b.selectWorker with
    | none => rfl
    | some p => exact (endpoints_selectWorker h).1
  | releaseWorkerLoad id =>
    refine Or.inr (endpoints_updateNode b id fun node => ?_)
    unfold releaseNode
    split <;> rfl
  | markOffline id => exact Or.inr (endpoints_updateNode b id fun _ => rfl)
  | markOnline id => exact Or.inr (endpoints_updateNode b id fun _ => rfl)

/-! ## 4. Any calls

By induction on the list of the calls. -/

theorem prefix_endpoints_after (b : JudgeWorkerBalancer) (calls : List BalancerCall) :
    b.endpoints <+: (b.after calls).endpoints := by
  induction calls generalizing b with
  | nil => exact List.prefix_refl _
  | cons c calls ih =>
    have hstep : b.endpoints <+: (b.call c).endpoints := by
      rcases b.endpoints_call c with ⟨cfg, -, heq⟩ | heq
      · rw [heq]
        exact prefix_enrol _ _
      · exact heq ▸ List.prefix_refl b.endpoints
    exact hstep.trans (ih (b.call c))

theorem nodup_endpoints_after {b : JudgeWorkerBalancer} (h : b.endpoints.Nodup)
    (calls : List BalancerCall) : (b.after calls).endpoints.Nodup := by
  induction calls generalizing b with
  | nil => exact h
  | cons c calls ih =>
    refine ih ?_
    rcases b.endpoints_call c with ⟨cfg, -, heq⟩ | heq
    · rw [heq]
      exact nodup_enrol h _
    · rwa [heq]

theorem getElem?_endpoints_after {b : JudgeWorkerBalancer} {id : Nat} {e : Bytes × Int}
    (h : b.endpoints[id]? = some e) (calls : List BalancerCall) :
    (b.after calls).endpoints[id]? = some e := by
  obtain ⟨rest, heq⟩ := b.prefix_endpoints_after calls
  rw [← heq, List.getElem?_append_left (List.getElem?_eq_some_iff.mp h).1]
  exact h

/-- **Ids are stable and endpoints unique.**  Let `calls` be made on an empty balancer and `later`
after them.  No two nodes have the same endpoint, the list does not shrink, an id keeps its
endpoint, `UpsertWorker` reports a refresh exactly when the endpoint is there, and the ids that it
and `SelectWorker` hand out denote the worker they were handed out for. -/
theorem worker_ids_stable (calls later : List BalancerCall) :
    (empty.after calls).endpoints.Nodup ∧
      (empty.after calls).nodes.length ≤ ((empty.after calls).after later).nodes.length ∧
      (∀ (id : Nat) (e : Bytes × Int), (empty.after calls).endpoints[id]? = some e →
        ((empty.after calls).after later).endpoints[id]? = some e) ∧
      (∀ cfg b' id refreshed, (empty.after calls).upsertWorker cfg = (b', id, refreshed) →
        (refreshed = true ↔ endpoint cfg ∈ (empty.after calls).endpoints) ∧
          (b'.after later).endpoints[id]? = some (endpoint cfg)) ∧
      ∀ sel b', (empty.after calls).selectWorker = some (sel, b') →
        (b'.after later).endpoints[sel.id]? = some (endpoint sel.cfg) := by
  refine ⟨nodup_endpoints_after (b := empty) List.nodup_nil calls, ?_,
    fun id e h => getElem?_endpoints_after h later, fun cfg b' id refreshed h => ?_,
    fun sel b' h => ?_⟩
  · rw [← length_endpoints, ← length_endpoints]
    exact (prefix_endpoints_after _ later).length_le
  · obtain ⟨-, hid, hflag⟩ := (empty.after calls).upsertWorker_spec cfg
    rw [h] at hid hflag
    exact ⟨hflag, getElem?_endpoints_after hid later⟩
  · obtain ⟨hsame, hid⟩ := endpoints_selectWorker h
    rw [← hsame] at hid
    exact getElem?_endpoints_after hid later

end JudgeWorkerBalancer

end OnlineJudge.Judge
