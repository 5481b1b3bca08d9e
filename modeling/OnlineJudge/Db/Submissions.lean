/-
# The `submissions` table

The columns of `submissions` (`init_db.sql`) that the judge writes, and
`SubmissionDao::UpdateResult` (`submission_dao.cpp`), which writes them.

The database itself is not part of the repository.  It is taken as documented: an `UPDATE` is
accepted exactly when the new status is a value of the `ENUM` column and the new `result_json` is
valid JSON text, which the parameter `validJson` decides; otherwise the call raises and no row
changes.

The other columns of the table stand in `Db.SubmissionReads`; judging reads and writes these four
only, so what is said of a run of the judge is said of this part of a row.
-/
import OnlineJudge.Lib.ByteString

namespace OnlineJudge.Db

open ByteString

/-! ## 1. The status column

The column has nine values.  Seven of them are final, and a submission waits in one of the other
two. -/

/-- The values of the `status` column. -/
inductive SubmissionStatus
  | pending
  | running
  | accepted
  | wrongAnswer
  | timeLimitExceeded
  | memoryLimitExceeded
  | runtimeError
  | compileError
  | systemError
deriving DecidableEq, Repr

namespace SubmissionStatus

/-- The value as the column spells it. -/
def text : SubmissionStatus → Bytes
  | pending => ascii "pending"
  | running => ascii "running"
  | accepted => ascii "accepted"
  | wrongAnswer => ascii "wrong_answer"
  | timeLimitExceeded => ascii "time_limit_exceeded"
  | memoryLimitExceeded => ascii "memory_limit_exceeded"
  | runtimeError => ascii "runtime_error"
  | compileError => ascii "compile_error"
  | systemError => ascii "system_error"

/-- The column's values in the order of the declaration. -/
def all : List SubmissionStatus :=
  [pending, running, accepted, wrongAnswer, timeLimitExceeded, memoryLimitExceeded,
    runtimeError, compileError, systemError]

/-- The value a text denotes; a text that is no value of the column is refused. -/
def ofText (s : Bytes) : Option SubmissionStatus := all.find? fun st => st.text == s

/-- Judging is over: neither `pending` nor `running`. -/
def terminal : SubmissionStatus → Bool
  | pending | running => false
  | _ => true

@[simp] theorem ofText_text (st : SubmissionStatus) : ofText st.text = some st := by
  cases st <;> decide

theorem ofText_eq_some {s : Bytes} {st : SubmissionStatus} : ofText s = some st ↔ s = st.text := by
  constructor
  · intro h
    have := List.find?_some h
    exact (eq_of_beq this).symm
  · rintro rfl
    exact ofText_text st

theorem text_injective {st st' : SubmissionStatus} (h : st.text = st'.text) : st = st' :=
  Option.some.inj ((ofText_text st).symm.trans (h ▸ ofText_text st'))

end SubmissionStatus

/-! ## 2. The rows and `UpdateResult`

One statement sets all four columns, so that a row never has the status of one judgement and the
result of another. -/

/-- The columns of a row that judging reads and writes. -/
structure SubmissionRow where
  status : SubmissionStatus
  resultJson : Bytes
  timeMs : Int
  memoryKb : Int
deriving DecidableEq, Repr

/-- The table, by primary key. -/
abbrev Submissions := Int → Option SubmissionRow

/-- The arguments of a call of `UpdateResult`. -/
structure UpdateCall where
  id : Int
  status : Bytes
  resultJson : Bytes
  timeMs : Int
  memoryKb : Int
deriving DecidableEq, Repr

/-- `SubmissionDao::UpdateResult`; `none` when it raises.  A submission that is not there is no
error. -/
def updateResult (validJson : Bytes → Bool) (rows : Submissions) (c : UpdateCall) :
    Option Submissions :=
  match SubmissionStatus.ofText c.status with
  | none => none
  | some st =>
    if validJson c.resultJson then
      some fun id =>
        if id = c.id then (rows id).map fun _ => ⟨st, c.resultJson, c.timeMs, c.memoryKb⟩
        else rows id
    else none

/-- The table after a call whose exception, if any, is caught. -/
def afterUpdate (validJson : Bytes → Bool) (rows : Submissions) (c : UpdateCall) : Submissions :=
  (updateResult validJson rows c).getD rows

/-- **The row of the updated submission.**  It holds the new values if the database accepts
them and is unchanged otherwise. -/
theorem afterUpdate_self {validJson : Bytes → Bool} {rows : Submissions} {c : UpdateCall}
    {row : SubmissionRow} (hrow : rows c.id = some row) :
    afterUpdate validJson rows c c.id =
      match SubmissionStatus.ofText c.status with
      | none => some row
      | some st =>
        if validJson c.resultJson then some ⟨st, c.resultJson, c.timeMs, c.memoryKb⟩
        else some row := by
  unfold afterUpdate updateResult
  cases SubmissionStatus.ofText c.status with
  | none => exact hrow
  | some st =>
    by_cases hv : validJson c.resultJson = true
    · simp [hv, hrow]
    · simp [hv, hrow]

/-- **When an update ends the judging.**  A submission that is not in a terminal status gets
into one exactly when the database accepts the call and the status it names is terminal. -/
theorem afterUpdate_terminal_iff {validJson : Bytes → Bool} {rows : Submissions} {c : UpdateCall}
    {row : SubmissionRow} (hrow : rows c.id = some row) (hold : row.status.terminal = false) :
    (∃ row', afterUpdate validJson rows c c.id = some row' ∧ row'.status.terminal = true) ↔
      validJson c.resultJson = true ∧
        ∃ st : SubmissionStatus, c.status = st.text ∧ st.terminal = true := by
  rw [afterUpdate_self hrow]
  cases hst : SubmissionStatus.ofText c.status with
  | none =>
    have hnone : ∀ st : SubmissionStatus, c.status ≠ st.text := by
      intro st heq
      rw [SubmissionStatus.ofText_eq_some.mpr heq] at hst
      cases hst
    simp [hold, hnone]
  | some st =>
    have htext : c.status = st.text := SubmissionStatus.ofText_eq_some.mp hst
    by_cases hv : validJson c.resultJson = true
    · simp only [hv, if_true, Option.some.injEq, exists_eq_left', true_and, htext]
      constructor
      · intro hterm
        exact ⟨st, rfl, hterm⟩
      · rintro ⟨st', heq, hterm⟩
        rwa [SubmissionStatus.text_injective heq]
    · simp [hv, hold]

theorem afterUpdate_of_ne {validJson : Bytes → Bool} {rows : Submissions} {c : UpdateCall}
    {id : Int} (h : id ≠ c.id) : afterUpdate validJson rows c id = rows id := by
  unfold afterUpdate updateResult
  cases SubmissionStatus.ofText c.status with
  | none => rfl
  | some st =>
    by_cases hv : validJson c.resultJson = true
    · simp [hv, h]
    · simp [hv]

end OnlineJudge.Db
