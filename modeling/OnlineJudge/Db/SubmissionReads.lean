/-
# Reading a submission

`SubmissionDao::GetById`.  Its buffer for `result_json` has 256 KB; every other buffer is as large
as the column can need.

The column is of type `JSON`.  MySQL keeps the document and not the text, so what is selected is the
document printed again, by MySQL; that printer is the parameter `selectJson`.

* `getById_eq_ok_iff`: a submission is returned exactly if what is selected fits that buffer.
* `listByUser_eq_ok`: the submissions of a user, which leave that column out, can always be listed.

Since the document is printed again, its length is not that of the text that was stored: MySQL puts
a blank behind each comma and each colon.  A result that was short enough when it was written may be
too long to be read.
-/
import OnlineJudge.Db.Reads
import OnlineJudge.Db.Submissions

namespace OnlineJudge.Db

open ByteString

/-! ## 1. The columns

The columns of a submission that are set when it is created, and never again. -/

/-- The values of the `mode` column. -/
inductive SubmissionMode
  | run
  | submit
deriving DecidableEq, Repr

/-- The value as the column spells it. -/
def SubmissionMode.text : SubmissionMode → Bytes
  | run => ascii "run"
  | submit => ascii "submit"

/-- The columns of a submission that judging leaves alone. -/
structure SubmissionColumns where
  userId : Int64
  problemId : Int64
  languageId : Int32
  sourceCode : Text
  mode : Option SubmissionMode
  createdAt : Option DateTime
  createdAt_utf8 : ∀ time ∈ createdAt, Utf8.wellFormed time.bytes = true

/-- The table: what judging writes, and the rest. -/
structure SubmissionTable where
  judged : Submissions
  columns : Int → SubmissionColumns

/-! ## 2. `GetById`

A fetch fails if one of its buffers is too small.  All of them but one are large enough for whatever
their column holds, so the one decides. -/

namespace SubmissionDao

/-- The size of `out_json`. -/
def resultJsonBuffer : Nat := 262144

/-- The fetch of `GetById`. -/
def fetchSubmission (selectJson : Bytes → Bytes) (id : Int64) (columns : SubmissionColumns)
    (row : SubmissionRow) : Except Raised Submission := do
  let sourceCode ← fetchString 65536 (some columns.sourceCode.bytes)
  let mode ← fetchString 16 (columns.mode.map SubmissionMode.text)
  let status ← fetchString 32 (some row.status.text)
  let resultJson ← fetchString resultJsonBuffer (some (selectJson row.resultJson))
  let createdAt ← fetchString 32 (columns.createdAt.map DateTime.bytes)
  return { id := id, userId := columns.userId, problemId := columns.problemId,
           languageId := columns.languageId, sourceCode := sourceCode, mode := mode,
           status := status, resultJson := resultJson, timeMs := row.timeMs,
           memoryKb := row.memoryKb, createdAt := createdAt }

def getById (selectJson : Bytes → Bytes) (table : SubmissionTable) (id : Int64) :
    Except Raised (Option Submission) :=
  readOne (fetchSubmission selectJson id (table.columns id.toInt)) (table.judged id.toInt)

end SubmissionDao

/-- The record of a row. -/
def SubmissionRow.record (selectJson : Bytes → Bytes) (id : Int64) (columns : SubmissionColumns)
    (row : SubmissionRow) : Submission where
  id := id
  userId := columns.userId
  problemId := columns.problemId
  languageId := columns.languageId
  sourceCode := columns.sourceCode.bytes
  mode := nullable SubmissionMode.text columns.mode
  status := row.status.text
  resultJson := selectJson row.resultJson
  timeMs := row.timeMs
  memoryKb := row.memoryKb
  createdAt := nullable DateTime.bytes columns.createdAt

theorem SubmissionMode.length_text (mode : SubmissionMode) : mode.text.length ≤ 16 := by
  cases mode <;> decide

theorem SubmissionStatus.length_text (status : SubmissionStatus) : status.text.length ≤ 32 := by
  cases status <;> decide

namespace SubmissionDao

/-- Only the result can be too long for its buffer. -/
theorem fetchSubmission_eq_ok (selectJson : Bytes → Bytes) (id : Int64)
    (columns : SubmissionColumns) (row : SubmissionRow) :
    fetchSubmission selectJson id columns row = .ok (row.record selectJson id columns) ↔
      (selectJson row.resultJson).length ≤ resultJsonBuffer := by
  simp only [fetchSubmission, Except.bind_eq_ok, fetchString_eq_ok, Option.getD_some]
  constructor
  · rintro ⟨_, -, _, -, _, -, _, ⟨-, hresult⟩, -⟩
    exact hresult
  · intro hresult
    exact ⟨_, ⟨rfl, Nat.le_trans columns.sourceCode.fits (by decide)⟩,
      _, ⟨rfl, length_nullable_le SubmissionMode.length_text columns.mode⟩,
      _, ⟨rfl, row.status.length_text⟩, _, ⟨rfl, hresult⟩,
      _, ⟨rfl, length_nullable_le DateTime.length_bytes columns.createdAt⟩, rfl⟩

/-- A result that is too long makes the fetch fail. -/
theorem fetchSubmission_of_long {selectJson : Bytes → Bytes} {row : SubmissionRow}
    (h : resultJsonBuffer < (selectJson row.resultJson).length) (id : Int64)
    (columns : SubmissionColumns) :
    fetchSubmission selectJson id columns row = .error (.runtime (ascii "fetch: ")) := by
  have hsource : fetchString 65536 (some columns.sourceCode.bytes) =
      .ok columns.sourceCode.bytes :=
    fetchString_eq_ok.mpr ⟨rfl, Nat.le_trans columns.sourceCode.fits (by decide)⟩
  have hmode : fetchString 16 (columns.mode.map SubmissionMode.text) = .ok _ :=
    fetchString_eq_ok.mpr ⟨rfl, length_nullable_le SubmissionMode.length_text columns.mode⟩
  have hstatus : fetchString 32 (some row.status.text) = .ok row.status.text :=
    fetchString_eq_ok.mpr ⟨rfl, row.status.length_text⟩
  have hresult : fetchString resultJsonBuffer (some (selectJson row.resultJson)) =
      .error (.runtime (ascii "fetch: ")) := if_neg (by omega)
  rw [fetchSubmission, hsource, hmode, hstatus, hresult]
  rfl

theorem getById_of_long {selectJson : Bytes → Bytes} {table : SubmissionTable} {id : Int64}
    {row : SubmissionRow} (hrow : table.judged id.toInt = some row)
    (h : resultJsonBuffer < (selectJson row.resultJson).length) :
    getById selectJson table id = .error (.runtime (ascii "fetch: ")) := by
  rw [getById, hrow, readOne, fetchSubmission_of_long h]
  rfl

/-- **When a submission is returned**: the result fits its buffer. -/
theorem getById_eq_ok_iff {selectJson : Bytes → Bytes} {table : SubmissionTable} {id : Int64}
    {row : SubmissionRow} (hrow : table.judged id.toInt = some row) (s : Submission) :
    getById selectJson table id = .ok (some s) ↔
      s = row.record selectJson id (table.columns id.toInt) ∧
        (selectJson row.resultJson).length ≤ resultJsonBuffer := by
  by_cases hfits : (selectJson row.resultJson).length ≤ resultJsonBuffer
  · rw [getById, hrow, readOne,
      (fetchSubmission_eq_ok selectJson id (table.columns id.toInt) row).mpr hfits]
    simp [Except.map, hfits, eq_comm]
  · rw [getById_of_long hrow (Nat.lt_of_not_le hfits)]
    simp [hfits]

end SubmissionDao

/-! ## 3. `ListByUser`

A list is read row by row, and one row that cannot be read would make the whole list fail. -/

/-- A row of the table: its id, the columns that are written once, and those that a verdict changes.
-/
structure StoredSubmission where
  id : Int64
  columns : SubmissionColumns
  row : SubmissionRow

/-- What a list says of a submission: nothing of its source code and its result. -/
def StoredSubmission.summary (s : StoredSubmission) : Submission :=
  { s.row.record (fun text => text) s.id s.columns with sourceCode := [], resultJson := [] }

namespace SubmissionDao

/-- `GetById`, of a table that is a list of rows. -/
def getStored (selectJson : Bytes → Bytes) (submissions : List StoredSubmission) (id : Int64) :
    Except Raised (Option Submission) :=
  readOne (fun s => fetchSubmission selectJson s.id s.columns s.row)
    (submissions.find? fun s => s.id == id)

/-- A fetch of `ListByUser`. -/
def fetchListed (s : StoredSubmission) : Except Raised Submission := do
  let mode ← fetchString 16 (s.columns.mode.map SubmissionMode.text)
  let status ← fetchString 32 (some s.row.status.text)
  let createdAt ← fetchString 32 (s.columns.createdAt.map DateTime.bytes)
  return { id := s.id, userId := s.columns.userId, problemId := s.columns.problemId,
           languageId := s.columns.languageId, sourceCode := [], mode := mode, status := status,
           resultJson := [], timeMs := s.row.timeMs, memoryKb := s.row.memoryKb,
           createdAt := createdAt }

/-- The rows that `ListByUser` selects. -/
def selectByUser (submissions : List StoredSubmission) (userId : Int64) (limit offset : Nat) :
    List StoredSubmission :=
  let rows := submissions.filter fun s => s.columns.userId == userId
  ((rows.insertionSort fun a b => b.id ≤ a.id).drop offset).take limit

def listByUser (submissions : List StoredSubmission) (userId : Int64) (limit offset : Nat) :
    Except Raised (List Submission) :=
  fetchAll (fun _ s => fetchListed s) (fun vars _ => vars) ()
    (selectByUser submissions userId limit offset)

/-- **A list of submissions can always be read**: nothing that a row can have in these columns is
too long for its buffer. -/
theorem listByUser_eq_ok (submissions : List StoredSubmission) (userId : Int64)
    (limit offset : Nat) : listByUser submissions userId limit offset =
      .ok ((selectByUser submissions userId limit offset).map StoredSubmission.summary) := by
  have hfetch : ∀ s : StoredSubmission, fetchListed s = .ok s.summary := by
    intro s
    simp only [fetchListed, Except.bind_eq_ok, fetchString_eq_ok]
    exact ⟨_, ⟨rfl, length_nullable_le SubmissionMode.length_text s.columns.mode⟩,
      _, ⟨rfl, s.row.status.length_text⟩,
      _, ⟨rfl, length_nullable_le DateTime.length_bytes s.columns.createdAt⟩, rfl⟩
  have hrow : ∀ (_ : Unit) (s : StoredSubmission),
      fetchListed s = .ok s.summary ↔ True ∧ True :=
    fun _ s => iff_of_true (hfetch s) ⟨trivial, trivial⟩
  exact (fetchAll_eq_ok_map hrow () _).mpr ⟨fun _ _ => trivial, fun _ _ _ _ => trivial⟩

end SubmissionDao

end OnlineJudge.Db
