/-
# Updating a row

The three operations that set columns of one row: `ProblemDao::Update`, `LanguageDao::Update` and
`UserDao::UpdateStatus`.  Each is one `UPDATE` with the id in its `WHERE`, and returns
`mysql_stmt_affected_rows(stmt) > 0`.

How the database turns the texts of a statement into the values of its columns is the database's
(`Conversion`); it refuses a row that they do not fit, and touches none if there is no such row.

`runUpdate_again` is the consequence that matters to a caller: the return value says whether a row
was changed, and not whether there is one.
-/
import OnlineJudge.Db.Writes
import OnlineJudge.Lib.KeyedTable

namespace OnlineJudge.Db

open ByteString

/-! ## 1. The columns

Which columns a statement sets decides whether it changes a row.  `updated_at` is set by the
database along with a change, and is none of them. -/

/-- The columns that `ProblemDao::Update` sets. -/
structure ProblemValues where
  title : Varchar 256
  description : Text
  difficulty : Option Difficulty
  timeLimitMs : Int32
  memoryLimitKb : Int32
  status : Option ProblemStatus
deriving DecidableEq

/-- The columns that `LanguageDao::Update` sets. -/
structure LanguageValues where
  name : Varchar 32
  extension : Varchar 8
  compileCmd : Varchar 512
  runCmd : Varchar 512
  enabled : Option Int8
deriving DecidableEq

/-- `UPDATE problems SET .. WHERE id=?`.  `updated_at` follows a change. -/
def problemUpdate : Assignment ProblemRow Int64 ProblemValues DateTime where
  key := ProblemRow.id
  values row :=
    ⟨row.title, row.description, row.difficulty, row.timeLimitMs, row.memoryLimitKb, row.status⟩
  assign time v row :=
    { row with title := v.title, description := v.description, difficulty := v.difficulty,
               timeLimitMs := v.timeLimitMs, memoryLimitKb := v.memoryLimitKb, status := v.status,
               updatedAt := some time }
  key_assign _ _ _ := rfl
  values_assign _ _ _ := rfl

/-- `UPDATE languages SET .. WHERE id=?`. -/
def languageUpdate : Assignment LanguageRow Int32 LanguageValues DateTime where
  key := LanguageRow.id
  values row := ⟨row.name, row.extension, row.compileCmd, row.runCmd, row.enabled⟩
  assign _ v row :=
    { row with name := v.name, extension := v.extension, compileCmd := v.compileCmd,
               runCmd := v.runCmd, enabled := v.enabled }
  key_assign _ _ _ := rfl
  values_assign _ _ _ := rfl

/-- `UPDATE users SET status=? WHERE id=?`. -/
def userStatusUpdate : Assignment UserRow Int64 (Option UserStatus) DateTime where
  key := UserRow.id
  values := UserRow.status
  assign time v row := { row with status := v, updatedAt := some time }
  key_assign _ _ _ := rfl
  values_assign _ _ _ := rfl

/-! ## 2. The operations

An operation fails, or finds no row, or finds one that is as it should be, or changes one; the
middle two return the same. -/

/-- What the database makes of the texts and numbers of a statement: the values of the columns,
or the message of its refusal. -/
abbrev Conversion (α υ : Type) := α → Except Bytes υ

section

variable {ρ κ υ α : Type} [DecidableEq κ] [DecidableEq υ]

/-- An `Update` of a DAO: the table, and whether a row was affected. -/
def runUpdate (a : Assignment ρ κ υ DateTime) (convert : Conversion α υ) (time : DateTime)
    (rows : List ρ) (id : κ) (record : α) : Except Raised (List ρ × Bool) :=
  if rows.any fun row => decide (a.key row = id) then
    match convert record with
    | .error message => .error (refusal message)
    | .ok v => .ok (a.update time rows id v, decide (0 < a.affected rows id v))
  else .ok (rows, false)

variable {a : Assignment ρ κ υ DateTime} {convert : Conversion α υ} {time : DateTime}
  {rows : List ρ} {id : κ} {record : α}

theorem runUpdate_of_absent (h : ¬ ∃ row ∈ rows, a.key row = id) :
    runUpdate a convert time rows id record = .ok (rows, false) := by
  rw [runUpdate, if_neg (by simpa using h)]

theorem runUpdate_of_refused {message : Bytes} (h : ∃ row ∈ rows, a.key row = id)
    (hrefused : convert record = .error message) :
    runUpdate a convert time rows id record = .error (refusal message) := by
  rw [runUpdate, if_pos (by simpa using h), hrefused]

theorem runUpdate_of_stored {v : υ} (h : ∃ row ∈ rows, a.key row = id)
    (hstored : convert record = .ok v) :
    runUpdate a convert time rows id record =
      .ok (a.update time rows id v, decide (0 < a.affected rows id v)) := by
  rw [runUpdate, if_pos (by simpa using h), hstored]

/-- **An update twice.**  The second time no row is affected, whenever it comes. -/
theorem runUpdate_again {v : υ} (h : ∃ row ∈ rows, a.key row = id)
    (hstored : convert record = .ok v) (time' : DateTime) :
    runUpdate a convert time' (a.update time rows id v) id record =
      .ok (a.update time rows id v, false) := by
  have hzero : a.affected (a.update time rows id v) id v = 0 := Assignment.affected_update time
  rw [runUpdate_of_stored (Assignment.exists_key_update.mpr h) hstored, hzero,
    Assignment.update_of_affected_eq_zero hzero]
  rfl

end

/-- `UserDao::UpdateStatus` is such an update, of a status that the column has. -/
theorem UserDao.updateStatus_eq (time : DateTime) (message : Bytes) (users : List UserRow)
    (id : Int64) (status : UserStatus) :
    UserDao.updateStatus time message users id status.text =
      runUpdate userStatusUpdate (fun status => .ok (some status)) time users id status := by
  have hchanges : UserDao.changes id status = userStatusUpdate.changes id (some status) := by
    funext row
    rw [Bool.eq_iff_iff]
    simp only [UserDao.changes, Assignment.changes, userStatusUpdate, Bool.and_eq_true,
      beq_iff_eq, bne_iff_ne]
    exact decide_eq_true_iff.symm
  have hany : users.any (UserDao.changes id status) =
      decide (0 < userStatusUpdate.affected users id (some status)) := by
    rw [Bool.eq_iff_iff, decide_eq_true_eq, Assignment.affected, List.countP_pos_iff, hchanges,
      List.any_eq_true]
  have hstep : UserDao.updateStatus time message users id status.text =
      .ok (userStatusUpdate.update time users id (some status),
        decide (0 < userStatusUpdate.affected users id (some status))) := by
    rw [UserDao.updateStatus, UserStatus.ofText_eq_some.mpr rfl]
    dsimp only
    rw [hany, UserDao.setStatus, hchanges]
    rfl
  rw [hstep]
  by_cases hrow : ∃ row ∈ users, userStatusUpdate.key row = id
  · exact (runUpdate_of_stored (v := some status) hrow rfl).symm
  · have hzero : userStatusUpdate.affected users id (some status) = 0 :=
      Assignment.affected_of_absent fun row hmem hkey => hrow ⟨row, hmem, hkey⟩
    rw [runUpdate_of_absent hrow, hzero, Assignment.update_of_affected_eq_zero hzero]
    rfl

end OnlineJudge.Db
