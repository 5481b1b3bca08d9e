/-
# The life of a submission

A submission is a row that is written twice: `POST /api/submissions` creates it, pending, and
somebody stores its result.  Who that is depends on what happens in between.  If `submit` has put
the job into the queue, it is the judge thread that takes it; if `submit` has refused it, it is the
handler itself.  Handlers, judge threads and the shutdown of the manager run at the same time, and
nothing locks the row.

The system here is all of them over one table: the manager is `QueueState`, a judge thread's update
is `settle`, and a request goes through the calls of `Handled` one by one.  Every update runs in a
transaction of its own and may fail (`up`).

* `Booked`: every submission is in exactly one place, and its row is what that place says.
* `submission_life`: over every interleaving no submission is lost or judged twice, a row holds its
  one result or is as it was created, and a result is final.
-/
import OnlineJudge.Handler.SubmitCalls
import OnlineJudge.Judge.Queue

namespace OnlineJudge.Judge

open ByteString Db

/-! ## 1. The system

The parts are those of other modules, put over one table.  The two records are no part of the
program: they remember what was created and what was written, so that a statement can speak of the
past. -/

/-- Where a request is, from its row on. -/
inductive RequestPc
  /-- before the call of `submit` -/
  | stored (job : JudgeJob)
  /-- `submit` has returned false -/
  | refused (id : Int)
  /-- it has nothing more to do with the submission -/
  | over

/-- The submission that the request is responsible for. -/
def RequestPc.inHand : RequestPc → List Int
  | .stored job => [job.submissionId]
  | .refused id => [id]
  | .over => []

/-- `rows` is the table.  The last two fields are records: the submissions that were created, with
their first `result_json`, and the calls of `UpdateResult`, with whether the database was up. -/
structure JudgeSite where
  manager : QueueState
  rows : Submissions
  requests : List RequestPc
  created : List (Int × Bytes)
  writes : List (UpdateCall × Bool)

inductive SiteAction
  /-- `SubmissionDao::Create` of a request. -/
  | create (job : JudgeJob) (resultJson : Bytes)
  /-- Its `submit` reads `running_`. -/
  | submit (i : Nat)
  /-- Its `UpdateResult`, after `submit` has returned false. -/
  | giveUp (i : Nat) (text : Bytes) (up : Bool)
  /-- A judge thread is through with its job. -/
  | finish (t : Nat) (reply : Option Bytes) (up : Bool)
  | push (i : Nat)
  | readRunning (t : Nat)
  | take (t : Nat)
  | shutdown

/-- A row as it is created. -/
def pendingRow (resultJson : Bytes) : SubmissionRow := ⟨.pending, resultJson, 0, 0⟩

/-- The call that gives a submission up. -/
def giveUpCall (id : Int) (text : Bytes) : UpdateCall := ⟨id, ascii "system_error", text, 0, 0⟩

namespace JudgeSite

def initial (maxConcurrency : Int) : JudgeSite where
  manager := .initial maxConcurrency
  rows _ := none
  requests := []
  created := []
  writes := []

variable (codec : Json.Codec) (validJson : Bytes → Bool)

/-- An action of the manager that does not concern the table. -/
def manage (s : JudgeSite) (a : QueueAction) : Option JudgeSite :=
  (QueueState.step codec s.manager a).map fun manager => { s with manager := manager }

/-- One step.  The primary key of a new row is not in the table. -/
def step (s : JudgeSite) : SiteAction → Option JudgeSite
  | .create job resultJson =>
    if s.rows job.submissionId = none then
      some { s with
        rows := fun id => if id = job.submissionId then some (pendingRow resultJson) else s.rows id
        requests := s.requests ++ [.stored job]
        created := s.created ++ [(job.submissionId, resultJson)] }
    else none
  | .submit i =>
    match s.requests[i]? with
    | some (.stored job) =>
      (QueueState.step codec s.manager (.submit job)).map fun manager =>
        { s with
          manager := manager
          requests := s.requests.set i
            (if s.manager.running then .over else .refused job.submissionId) }
    | _ => none
  | .giveUp i text up =>
    match s.requests[i]? with
    | some (.refused id) =>
      let call := giveUpCall id text
      some { s with
        rows := if up then afterUpdate validJson s.rows call else s.rows
        requests := s.requests.set i .over
        writes := s.writes ++ [(call, up)] }
    | _ => none
  | .finish t reply up =>
    match s.manager.threads[t]? with
    | some (.processing job) =>
      (QueueState.step codec s.manager (.finish t reply)).map fun manager =>
        { s with
          manager := manager
          rows := if up then settle codec validJson job reply s.rows else s.rows
          writes := s.writes ++ ((processJob codec job reply).getD []).map fun call => (call, up) }
    | _ => none
  | .push i => s.manage codec (.push i)
  | .readRunning t => s.manage codec (.readRunning t)
  | .take t => s.manage codec (.take t)
  | .shutdown => s.manage codec .shutdown

end JudgeSite

/-! ## 2. Where the submissions are

A submission is in somebody's hand until it is written.  The books say where, and what its row is
meanwhile; every action either moves one submission on or touches none. -/

/-- An action of the manager that neither brings a job nor ends one. -/
def QueueAction.isInternal : QueueAction → Bool
  | .submit _ | .finish _ _ => false
  | .push _ | .readRunning _ | .take _ | .shutdown => true

namespace QueueState

/-- On the way into the queue, in it, or with a judge thread. -/
def places (m : QueueState) : List Int :=
  m.submitting.map JudgeJob.submissionId ++ m.queue.map JudgeJob.submissionId ++
    m.threads.flatMap ThreadPc.inHand

variable {codec : Json.Codec} {m m' : QueueState}

theorem count_places (m : QueueState) (id : Int) : m.places.count id =
    (m.submitting.map JudgeJob.submissionId).count id +
      (m.queue.map JudgeJob.submissionId).count id +
      (m.threads.flatMap ThreadPc.inHand).count id := by
  rw [places, List.count_append, List.count_append]

theorem count_places_setPc {t : Nat} {pc pc' : ThreadPc} (hpc : m.threads[t]? = some pc)
    (hidle : pc.inHand = []) (hidle' : pc'.inHand = []) (id : Int) :
    (m.setPc t pc').places.count id = m.places.count id := by
  have hset := Counting.count_flatMap_set hpc pc' (f := ThreadPc.inHand) id
  rw [hidle, hidle'] at hset
  rw [count_places, count_places]
  simp only [setPc]
  omega

/-- `submit` of a running manager takes the submission over. -/
theorem count_places_submit {job : JudgeJob} (hrunning : m.running = true)
    (h : step codec m (.submit job) = some m') (id : Int) :
    m'.places.count id = m.places.count id + [job.submissionId].count id := by
  simp only [step, hrunning, if_true, Option.some.injEq] at h
  subst h
  rw [count_places, count_places]
  simp only [List.map_append, List.map_cons, List.map_nil, List.count_append]
  omega

/-- A thread that is through with its job has nothing in hand. -/
theorem count_places_finish {t : Nat} {reply : Option Bytes} {job : JudgeJob}
    (hpc : m.threads[t]? = some (.processing job))
    (h : step codec m (.finish t reply) = some m') (id : Int) :
    m'.places.count id + [job.submissionId].count id = m.places.count id := by
  simp only [step, hpc, Option.map_eq_some_iff] at h
  obtain ⟨calls, -, rfl⟩ := h
  have hset := Counting.count_flatMap_set hpc .loopHead (f := ThreadPc.inHand) id
  rw [count_places, count_places]
  simp only [ThreadPc.inHand, List.count_nil, setPc] at hset ⊢
  omega

/-- **Within the manager a job changes its place**, and no other action touches any. -/
theorem count_places_step {a : QueueAction} (ha : a.isInternal = true)
    (h : step codec m a = some m') (id : Int) : m'.places.count id = m.places.count id := by
  cases moves_of_step h with
  | submit | reject | finish => cases ha
  | push i job hjob =>
    have herase := Counting.count_map_eraseIdx hjob (f := JudgeJob.submissionId) id
    rw [count_places, count_places]
    simp only [List.map_append, List.map_cons, List.map_nil, Counting.count_append_singleton]
    omega
  | take t job rest hpc hqueue =>
    have hset := Counting.count_flatMap_set hpc (.processing job) (f := ThreadPc.inHand) id
    rw [count_places, count_places, hqueue]
    simp only [ThreadPc.inHand, List.count_nil, setPc, List.map_cons, List.count_cons] at hset ⊢
    omega
  | enter t hpc | leave t hpc | drained t hpc => exact count_places_setPc hpc rfl rfl id
  | shutdown => rfl

end QueueState

namespace JudgeSite

variable (validJson : Bytes → Bool)

/-- With a request, with the manager, or written. -/
def places (s : JudgeSite) : List Int :=
  s.requests.flatMap RequestPc.inHand ++ s.manager.places ++ s.writes.map fun w => w.1.id

theorem count_places (s : JudgeSite) (id : Int) : s.places.count id =
    (s.requests.flatMap RequestPc.inHand).count id + s.manager.places.count id +
      (s.writes.map fun w => w.1.id).count id := by
  rw [places, List.count_append, List.count_append]

/-- The ids of the submissions. -/
def ids (s : JudgeSite) : List Int := s.created.map Prod.fst

/-- What one call of `UpdateResult` makes of the row of its submission, with the database up or
down. -/
def outcome (w : UpdateCall × Bool) (row : SubmissionRow) : SubmissionRow :=
  if w.2 && validJson w.1.resultJson then
    match SubmissionStatus.ofText w.1.status with
    | some st => ⟨st, w.1.resultJson, w.1.timeMs, w.1.memoryKb⟩
    | none => row
  else row

/-- **The books**: each submission is in one place, and the row of each is what that place says. -/
structure Booked (s : JudgeSite) : Prop where
  places : ∀ id, s.places.count id = s.ids.count id
  nodup : s.ids.Nodup
  known : ∀ id, id ∉ s.ids → s.rows id = none
  waiting : ∀ c ∈ s.created, c.1 ∉ s.writes.map (fun w => w.1.id) →
    s.rows c.1 = some (pendingRow c.2)
  written : ∀ c ∈ s.created, ∀ w ∈ s.writes, w.1.id = c.1 →
    s.rows c.1 = some (outcome validJson w (pendingRow c.2))

theorem booked_initial (maxConcurrency : Int) : (initial maxConcurrency).Booked validJson where
  places id := by
    have hthreads : (initial maxConcurrency).manager.threads.flatMap ThreadPc.inHand = [] := by
      refine List.flatMap_eq_nil_iff.mpr fun pc hpc => ?_
      rw [List.eq_of_mem_replicate hpc]
      rfl
    rw [count_places, QueueState.count_places, hthreads]
    rfl
  nodup := .nil
  known _ _ := rfl
  waiting := nofun
  written := nofun

variable {validJson} {s s' : JudgeSite}

/-- An update touches the row of its submission. -/
theorem rows_write (rows : Submissions) (call : UpdateCall) (up : Bool) (id : Int) :
    (if up then afterUpdate validJson rows call else rows) id =
      if id = call.id then (rows id).map (outcome validJson (call, up)) else rows id := by
  cases up with
  | false =>
    have hsame : outcome validJson (call, false) = fun row => row := rfl
    rw [if_neg (by decide), hsame, Option.map_id', ite_self]
  | true =>
    rw [if_pos rfl]
    split
    · rename_i heq
      subst heq
      cases hrow : rows call.id with
      | none =>
        unfold afterUpdate updateResult
        cases SubmissionStatus.ofText call.status with
        | none => exact hrow
        | some st => cases validJson call.resultJson <;> simp [hrow]
      | some row =>
        rw [afterUpdate_self hrow, Option.map_some, outcome]
        cases SubmissionStatus.ofText call.status with
        | none => simp
        | some st => cases validJson call.resultJson <;> simp
    · rename_i hne
      exact afterUpdate_of_ne hne

/-- A submission that somebody has in hand has been created and is not written. -/
theorem Booked.in_hand (h : s.Booked validJson) {id : Int}
    (hhand : id ∈ s.requests.flatMap RequestPc.inHand ∨ id ∈ s.manager.places) :
    id ∈ s.ids ∧ id ∉ s.writes.map fun w => w.1.id := by
  have hcount := h.places id
  have honce := List.nodup_iff_count_le_one.mp h.nodup id
  rw [count_places] at hcount
  have hpos : 0 < (s.requests.flatMap RequestPc.inHand).count id + s.manager.places.count id := by
    rcases hhand with hrequest | hmanager
    · exact Nat.add_pos_left (List.count_pos_iff.mpr hrequest) _
    · exact Nat.add_pos_right _ (List.count_pos_iff.mpr hmanager)
  refine ⟨List.count_pos_iff.mp (by omega), fun hwritten => ?_⟩
  have hwrite := List.count_pos_iff.mpr hwritten
  omega

/-- What changes neither the table nor the records. -/
theorem Booked.move (h : s.Booked validJson) {requests : List RequestPc} {manager : QueueState}
    (hplaces : ∀ id, (requests.flatMap RequestPc.inHand).count id + manager.places.count id =
      (s.requests.flatMap RequestPc.inHand).count id + s.manager.places.count id) :
    ({ s with requests := requests, manager := manager } : JudgeSite).Booked validJson := by
  refine ⟨fun id => ?_, h.nodup, h.known, h.waiting, h.written⟩
  have hcount := h.places id
  have hsame := hplaces id
  rw [count_places] at hcount ⊢
  dsimp only at hsame ⊢
  have hids : ({ s with requests := requests, manager := manager } : JudgeSite).ids = s.ids := rfl
  rw [hids]
  omega

/-- **An update**, of a submission that is in somebody's hand. -/
theorem Booked.write (h : s.Booked validJson) (manager : QueueState) (requests : List RequestPc)
    (call : UpdateCall) (up : Bool)
    (hplaces : ∀ id, (requests.flatMap RequestPc.inHand).count id + manager.places.count id +
      [call.id].count id =
        (s.requests.flatMap RequestPc.inHand).count id + s.manager.places.count id)
    (hhand : call.id ∈ s.requests.flatMap RequestPc.inHand ∨ call.id ∈ s.manager.places) :
    ({ s with
      manager := manager
      rows := if up then afterUpdate validJson s.rows call else s.rows
      requests := requests
      writes := s.writes ++ [(call, up)] } : JudgeSite).Booked validJson := by
  obtain ⟨hcreated, hfresh⟩ := h.in_hand hhand
  refine ⟨fun id => ?_, h.nodup, fun id hid => ?_, fun c hc hid => ?_, fun c hc w hw hid => ?_⟩
  · have hcount := h.places id
    have hsame := hplaces id
    rw [count_places] at hcount ⊢
    dsimp only at hsame ⊢
    rw [List.map_append, List.count_append]
    refine Eq.trans ?_ hcount
    simp only [List.map_cons, List.map_nil]
    omega
  · dsimp only
    rw [rows_write, if_neg, h.known id hid]
    rintro rfl
    exact hid hcreated
  · dsimp only at hid ⊢
    simp only [List.map_append, List.map_cons, List.map_nil, List.mem_append,
      List.mem_singleton, not_or] at hid
    rw [rows_write, if_neg hid.2]
    exact h.waiting c hc hid.1
  · dsimp only at hc ⊢
    rw [rows_write]
    rcases List.mem_append.mp hw with hold | hnew
    · -- An earlier update: of another submission.
      rw [if_neg, h.written c hc w hold hid]
      intro heq
      exact hfresh (heq ▸ hid ▸ List.mem_map_of_mem hold)
    · obtain rfl := List.mem_singleton.mp hnew
      dsimp only at hid
      rw [if_pos hid.symm, h.waiting c hc (hid ▸ hfresh)]
      rfl

theorem Booked.isSome_row (h : s.Booked validJson) {c : Int × Bytes} (hc : c ∈ s.created) :
    ∃ row, s.rows c.1 = some row := by
  by_cases hid : c.1 ∈ s.writes.map fun w => w.1.id
  · obtain ⟨w, hw, hwid⟩ := List.mem_map.mp hid
    exact ⟨_, h.written c hc w hw hwid⟩
  · exact ⟨_, h.waiting c hc hid⟩

theorem Booked.create (h : s.Booked validJson) {job : JudgeJob} (resultJson : Bytes)
    (hfree : s.rows job.submissionId = none) :
    ({ s with
      rows := fun id => if id = job.submissionId then some (pendingRow resultJson) else s.rows id
      requests := s.requests ++ [.stored job]
      created := s.created ++ [(job.submissionId, resultJson)] } : JudgeSite).Booked validJson := by
  have hnew : job.submissionId ∉ s.ids := by
    intro hid
    obtain ⟨c, hc, heq⟩ := List.mem_map.mp hid
    obtain ⟨row, hrow⟩ := h.isSome_row hc
    cases hfree.symm.trans (heq ▸ hrow)
  have hids : s.created.map Prod.fst ++ [job.submissionId] =
      (s.created ++ [(job.submissionId, resultJson)]).map Prod.fst := by
    rw [List.map_append]
    rfl
  have hne : ∀ {c : Int × Bytes}, c ∈ s.created → c.1 ≠ job.submissionId := fun hc heq =>
    hnew (heq ▸ List.mem_map_of_mem hc)
  refine ⟨fun id => ?_, ?_, fun id hid => ?_, fun c hc hid => ?_, fun c hc w hw hid => ?_⟩
  · have hcount := h.places id
    rw [count_places] at hcount ⊢
    rw [ids, ← hids, List.count_append, List.flatMap_append, List.count_append]
    simp only [List.flatMap_cons, List.flatMap_nil, List.append_nil, RequestPc.inHand]
    rw [ids] at hcount
    omega
  · rw [ids, ← hids]
    exact List.nodup_append.mpr ⟨h.nodup, List.nodup_singleton _, by
      intro a ha b hb
      obtain rfl := List.mem_singleton.mp hb
      exact fun heq => hnew (heq ▸ ha)⟩
  · rw [ids, ← hids, List.mem_append, List.mem_singleton, not_or] at hid
    dsimp only
    rw [if_neg hid.2]
    exact h.known id hid.1
  · dsimp only
    rcases List.mem_append.mp hc with hold | hlast
    · rw [if_neg (hne hold)]
      exact h.waiting c hold hid
    · obtain rfl := List.mem_singleton.mp hlast
      rw [if_pos rfl]
  · dsimp only
    rcases List.mem_append.mp hc with hold | hlast
    · rw [if_neg (hne hold)]
      exact h.written c hold w hw hid
    · -- Nothing that is new has been written.
      obtain rfl := List.mem_singleton.mp hlast
      have hcount := h.places job.submissionId
      rw [count_places, List.count_eq_zero.mpr hnew] at hcount
      have hwrite := List.count_pos_iff.mpr (List.mem_map_of_mem (f := fun w => w.1.id) hw)
      dsimp only at hwrite hid
      rw [hid] at hwrite
      omega

variable {codec : Json.Codec}

theorem Booked.manage (h : s.Booked validJson) {a : QueueAction} (ha : a.isInternal = true)
    (hstep : s.manage codec a = some s') : s'.Booked validJson := by
  obtain ⟨manager, hmanager, rfl⟩ := Option.map_eq_some_iff.mp hstep
  refine h.move fun id => ?_
  rw [QueueState.count_places_step ha hmanager]

/-- **One step keeps the books**: for each action what it adds to the lists agrees with what it does
to the rows. -/
theorem Booked.step (hdump : codec.DumpsUtf8) (h : s.Booked validJson) {a : SiteAction}
    (hstep : s.step codec validJson a = some s') : s'.Booked validJson := by
  cases a with
  | create job resultJson =>
    simp only [JudgeSite.step] at hstep
    split at hstep
    · rename_i hfree
      obtain rfl := Option.some.inj hstep
      exact h.create resultJson hfree
    · cases hstep
  | submit i =>
    simp only [JudgeSite.step] at hstep
    split at hstep
    · rename_i job hpc
      obtain ⟨manager, hmanager, rfl⟩ := Option.map_eq_some_iff.mp hstep
      refine h.move fun id => ?_
      by_cases hrunning : s.manager.running = true
      · have hset := Counting.count_flatMap_set hpc .over (f := RequestPc.inHand) id
        rw [if_pos hrunning, QueueState.count_places_submit hrunning hmanager]
        simp only [RequestPc.inHand, List.count_nil] at hset
        omega
      · -- The submission stays with the request.
        have hset := Counting.count_flatMap_set hpc (.refused job.submissionId)
          (f := RequestPc.inHand) id
        have hsame : manager = s.manager := by
          simp only [QueueState.step, if_neg hrunning, Option.some.injEq] at hmanager
          exact hmanager.symm
        rw [if_neg hrunning, hsame]
        simp only [RequestPc.inHand] at hset
        omega
    · cases hstep
  | giveUp i text up =>
    simp only [JudgeSite.step] at hstep
    split at hstep
    · rename_i id hpc
      obtain rfl := Option.some.inj hstep
      refine h.write s.manager _ (giveUpCall id text) up (fun id' => ?_) (.inl ?_)
      · have hset := Counting.count_flatMap_set hpc .over (f := RequestPc.inHand) id'
        simp only [RequestPc.inHand, List.count_nil, giveUpCall] at hset ⊢
        omega
      · exact List.mem_flatMap.mpr ⟨_, List.mem_of_getElem? hpc, List.mem_singleton.mpr rfl⟩
    · cases hstep
  | finish t reply up =>
    simp only [JudgeSite.step] at hstep
    split at hstep
    · rename_i job hpc
      obtain ⟨manager, hmanager, rfl⟩ := Option.map_eq_some_iff.mp hstep
      obtain ⟨call, hcall, hid⟩ := processJob_of_dumps hdump job reply
      have hfinish := QueueState.count_places_finish hpc hmanager
      rw [settle_eq hcall, hcall]
      refine h.write manager s.requests call up (fun id => ?_) (.inr ?_)
      · rw [hid]
        have := hfinish id
        omega
      · rw [← List.count_pos_iff, hid, ← hfinish, List.count_singleton_self]
        omega
    · cases hstep
  | push i => exact h.manage rfl hstep
  | readRunning t => exact h.manage rfl hstep
  | take t => exact h.manage rfl hstep
  | shutdown => exact h.manage rfl hstep

/-! ## 3. Over whole runs

From the invariant and from the records, which only grow: what was written once is written for good,
since a submission that is written is in no hand. -/

/-- The records only grow: what has been created and what has been written stays in them, in its
order. -/
structure Extends (s s' : JudgeSite) : Prop where
  created : s.created <+: s'.created
  writes : s.writes <+: s'.writes

theorem Extends.refl (s : JudgeSite) : s.Extends s := ⟨List.prefix_refl _, List.prefix_refl _⟩

theorem Extends.trans {s'' : JudgeSite} (h : s.Extends s') (h' : s'.Extends s'') :
    s.Extends s'' :=
  ⟨h.created.trans h'.created, h.writes.trans h'.writes⟩

theorem extends_manage {a : QueueAction} (hstep : s.manage codec a = some s') : s.Extends s' := by
  obtain ⟨manager, -, rfl⟩ := Option.map_eq_some_iff.mp hstep
  exact ⟨List.prefix_refl _, List.prefix_refl _⟩

theorem extends_step {a : SiteAction} (hstep : s.step codec validJson a = some s') :
    s.Extends s' := by
  cases a with
  | create job resultJson =>
    simp only [JudgeSite.step] at hstep
    split at hstep
    · obtain rfl := Option.some.inj hstep
      exact ⟨List.prefix_append _ _, List.prefix_refl _⟩
    · cases hstep
  | submit i =>
    simp only [JudgeSite.step] at hstep
    split at hstep
    · obtain ⟨manager, -, rfl⟩ := Option.map_eq_some_iff.mp hstep
      exact ⟨List.prefix_refl _, List.prefix_refl _⟩
    · cases hstep
  | giveUp i text up =>
    simp only [JudgeSite.step] at hstep
    split at hstep
    · obtain rfl := Option.some.inj hstep
      exact ⟨List.prefix_refl _, List.prefix_append _ _⟩
    · cases hstep
  | finish t reply up =>
    simp only [JudgeSite.step] at hstep
    split at hstep
    · obtain ⟨manager, -, rfl⟩ := Option.map_eq_some_iff.mp hstep
      exact ⟨List.prefix_refl _, List.prefix_append _ _⟩
    · cases hstep
  | push | readRunning | take | shutdown => exact extends_manage hstep

theorem extends_of_exec {as : List SiteAction}
    (h : Transition.exec (step codec validJson) s as = some s') : s.Extends s' :=
  Transition.exec_invariant (I := fun t => s.Extends t)
    (fun _ _ _ hi hstep => hi.trans (extends_step hstep)) (.refl s) h

theorem booked_of_exec (hdump : codec.DumpsUtf8) {t : JudgeSite} {as : List SiteAction}
    (hs : s.Booked validJson)
    (h : Transition.exec (step codec validJson) s as = some t) : t.Booked validJson :=
  Transition.exec_invariant (fun _ _ _ hi hstep => Booked.step hdump hi hstep) hs h

/-- A row that holds a result has been written. -/
theorem Booked.exists_write (h : s.Booked validJson) {id : Int} {row : SubmissionRow}
    (hrow : s.rows id = some row) (hstatus : row.status ≠ .pending) :
    ∃ c ∈ s.created, ∃ w ∈ s.writes, c.1 = id ∧ w.1.id = id := by
  have hid : id ∈ s.ids := by
    by_contra hnot
    cases (h.known id hnot).symm.trans hrow
  obtain ⟨c, hc, rfl⟩ := List.mem_map.mp hid
  by_cases hwritten : c.1 ∈ s.writes.map fun w => w.1.id
  · obtain ⟨w, hw, hwid⟩ := List.mem_map.mp hwritten
    exact ⟨c, hc, w, hw, rfl, hwid⟩
  · obtain rfl := Option.some.inj ((h.waiting c hc hwritten).symm.trans hrow)
    exact absurd rfl hstatus

/-- **The life of a submission.**  Over every interleaving of requests, judge threads and shutdown,
with updates that work or fail: every submission that was created is in exactly one place, with its
request, with the manager or written, and in no place twice.  As long as it is not written its row
is as it was created; from its one update on, the row is what that update makes of it, and nothing
else.  A row with another status than `pending` never changes again.  And when no request is under
way and the manager has nothing, everything that was created has been written, once. -/
theorem submission_life (codec : Json.Codec) (hdump : codec.DumpsUtf8) (validJson : Bytes → Bool)
    (maxConcurrency : Int) (as : List SiteAction) (s : JudgeSite)
    (h : Transition.exec (step codec validJson) (initial maxConcurrency) as = some s) :
    s.ids.Nodup ∧ s.places.Perm s.ids ∧
      (∀ c ∈ s.created, c.1 ∉ s.writes.map (fun w => w.1.id) →
        s.rows c.1 = some (pendingRow c.2)) ∧
      (∀ c ∈ s.created, ∀ w ∈ s.writes, w.1.id = c.1 →
        s.rows c.1 = some (outcome validJson w (pendingRow c.2))) ∧
      (∀ bs t, Transition.exec (step codec validJson) s bs = some t → ∀ id row,
        s.rows id = some row → row.status ≠ .pending → t.rows id = some row) ∧
      (s.requests.flatMap RequestPc.inHand = [] → s.manager.places = [] →
        (s.writes.map fun w => w.1.id).Perm s.ids) := by
  have hbooked := booked_of_exec hdump (booked_initial validJson maxConcurrency) h
  have hperm : s.places.Perm s.ids := List.perm_iff_count.mpr hbooked.places
  refine ⟨hbooked.nodup, hperm, hbooked.waiting, hbooked.written, ?_, ?_⟩
  · intro bs t hbs id row hrow hstatus
    have hbooked' := booked_of_exec hdump hbooked hbs
    have hextends := extends_of_exec hbs
    obtain ⟨c, hc, w, hw, rfl, hwid⟩ := hbooked.exists_write hrow hstatus
    have hnow := hbooked.written c hc w hw hwid
    have hthen := hbooked'.written c (hextends.created.subset hc) w (hextends.writes.subset hw) hwid
    exact hthen.trans (hnow.symm.trans hrow)
  · intro hrequests hmanager
    rw [places, hrequests, hmanager] at hperm
    exact hperm

/-- Two submissions: one goes through the queue, the other comes after the shutdown. -/
def lateSubmission : List SiteAction :=
  [.create sampleJob [], .submit 0, .push 0, .readRunning 0, .take 0, .shutdown,
    .create { sampleJob with submissionId := 8 } [], .submit 1, .giveUp 1 systemErrorText true,
    .finish 0 none true]

theorem submission_life_lateSubmission :
    ∃ s, Transition.exec (step systemErrorCodec systemErrorValid) (initial 1) lateSubmission =
      some s ∧ s.ids = [7, 8] ∧ (s.writes.map fun w => w.1.id).Perm [7, 8] ∧
        (∀ id row, s.rows id = some row → row.status ≠ .pending →
          ∀ bs t, Transition.exec (step systemErrorCodec systemErrorValid) s bs = some t →
            t.rows id = some row) := by
  obtain ⟨-, -, -, -, hfinal, hall⟩ := submission_life systemErrorCodec systemErrorCodec_dumpsUtf8
    systemErrorValid 1 lateSubmission _ rfl
  exact ⟨_, rfl, rfl, hall rfl rfl, fun id row hrow hstatus bs t hbs =>
    hfinal bs t hbs id row hrow hstatus⟩

end JudgeSite

end OnlineJudge.Judge
