/-
# Writing rows

The operations of `TestCaseDao` and `UserDao` that change a table.  A table is the list of its rows,
and each operation is one statement that the database commits on its own.

The database takes a text only if the column can hold it, and a user only if no other has the name;
otherwise the statement fails and changes nothing.  The id of a new row and the time are the
database's (`Stamp`).

A failure of the connection is none of this: it is the DAO layer's (`AccountServer.fails`,
`Dao.perform`), which may fail before a statement is tried.
-/
import OnlineJudge.Db.Reads

namespace OnlineJudge.Db

open ByteString

/-! ## 1. Values that a column takes

What the program gives is bytes.  Whether they are a value of the column is decided here, and an
operation that gets none of it is refused. -/

/-- The value of a `TEXT` column. -/
def Text.ofBytes (s : Bytes) : Option Text :=
  if h : Utf8.wellFormed s = true ∧ s.length ≤ 65535 then some ⟨s, h.1, h.2⟩ else none

/-- The value of a `VARCHAR(n)` column. -/
def Varchar.ofBytes (n : Nat) (s : Bytes) : Option (Varchar n) :=
  if h : Utf8.wellFormed s = true ∧ Utf8.chars s ≤ n then some ⟨s, h.1, h.2⟩ else none

theorem Text.ofBytes_eq_some {s : Bytes} {v : Text} : Text.ofBytes s = some v ↔ v.bytes = s := by
  unfold Text.ofBytes
  constructor
  · intro h
    split at h
    · rw [← Option.some.inj h]
    · cases h
  · rintro rfl
    rw [dif_pos ⟨v.utf8, v.fits⟩]

theorem Text.ofBytes_isSome {s : Bytes} :
    (Text.ofBytes s).isSome ↔ Utf8.wellFormed s = true ∧ s.length ≤ 65535 := by
  unfold Text.ofBytes
  split <;> simp_all

theorem Varchar.ofBytes_eq_some {n : Nat} {s : Bytes} {v : Varchar n} :
    Varchar.ofBytes n s = some v ↔ v.bytes = s := by
  unfold Varchar.ofBytes
  constructor
  · intro h
    split at h
    · rw [← Option.some.inj h]
    · cases h
  · rintro rfl
    rw [dif_pos ⟨v.utf8, v.fits⟩]

/-- The role that a text names. -/
def Role.ofText (s : Bytes) : Option Role := [Role.student, .admin].find? fun r => r.text == s

/-- The status that a text names. -/
def UserStatus.ofText (s : Bytes) : Option UserStatus :=
  [UserStatus.active, .banned].find? fun st => st.text == s

theorem UserStatus.ofText_eq_some {s : Bytes} {status : UserStatus} :
    UserStatus.ofText s = some status ↔ s = status.text := by
  constructor
  · intro h
    have hfound := List.find?_some h
    exact (eq_of_beq hfound).symm
  · rintro rfl
    cases status <;> decide

/-- What the database puts into a row of its own: the next id and the time. -/
structure Stamp where
  id : Int64
  time : DateTime

/-- The exception of a statement that the database refuses, with the database's message. -/
def refusal (message : Bytes) : Raised := .runtime (ascii "execute: " ++ message)

/-! ## 2. `TestCaseDao`

`Add` makes one row; a loop over it adds as many as have been tried before one is refused. -/

namespace TestCaseDao

/-- The row that `Add` inserts. -/
def add (stamp : Stamp) (message : Bytes) (tc : TestCase) : Except Raised TestCaseRow :=
  match Text.ofBytes tc.input, Text.ofBytes tc.output with
  | some input, some output =>
    .ok { id := stamp.id, problemId := tc.problemId,
          isSample := some (if tc.isSample then 1 else 0), input := input, output := output,
          sortOrder := some tc.sortOrder, createdAt := some stamp.time }
  | _, _ => .error (refusal message)

/-- The rows that `DeleteByProblem` deletes. -/
def deletes (problemId : Int64) (onlyNonSample : Bool) (row : TestCaseRow) : Bool :=
  row.problemId == problemId && (!onlyNonSample || row.isSample == some 0)

/-- `DeleteByProblem`: the table, and how many rows are gone. -/
def deleteByProblem (rows : List TestCaseRow) (problemId : Int64) (onlyNonSample : Bool) :
    List TestCaseRow × Int32 :=
  (rows.filter fun row => !deletes problemId onlyNonSample row,
    .ofNat (rows.countP (deletes problemId onlyNonSample)))

/-- **What can be inserted**: input and output fit a `TEXT` column. -/
theorem add_isOk_iff {stamp : Stamp} {message : Bytes} {tc : TestCase} :
    (∃ row, add stamp message tc = .ok row) ↔
      (Utf8.wellFormed tc.input = true ∧ tc.input.length ≤ 65535) ∧
        (Utf8.wellFormed tc.output = true ∧ tc.output.length ≤ 65535) := by
  rw [← Text.ofBytes_isSome, ← Text.ofBytes_isSome, add]
  cases Text.ofBytes tc.input <;> cases Text.ofBytes tc.output <;> simp

/-- What is inserted says what was given. -/
theorem add_eq_ok {stamp : Stamp} {message : Bytes} {tc : TestCase} {row : TestCaseRow}
    (h : add stamp message tc = .ok row) :
    row.id = stamp.id ∧ row.problemId = tc.problemId ∧
      row.isSample = some (if tc.isSample then 1 else 0) ∧ row.input.bytes = tc.input ∧
      row.output.bytes = tc.output ∧ row.sortOrder = some tc.sortOrder := by
  unfold add at h
  split at h
  · rename_i input output hinput houtput
    obtain rfl := Except.ok.inj h
    exact ⟨rfl, rfl, rfl, Text.ofBytes_eq_some.mp hinput, Text.ofBytes_eq_some.mp houtput, rfl⟩
  · cases h

end TestCaseDao

/-! ## 3. `UserDao`

Names are unique in the collation of the column, in which two spellings may be the same name. -/

namespace UserDao

/-- `CreateUser`: the table with the new row.  Neither the name, in the collation of the column,
nor the id may be in it. -/
def createUser (same : Bytes → Bytes → Bool) (stamp : Stamp) (message : Bytes)
    (users : List UserRow) (username passwordHash email role status : Bytes) :
    Except Raised (List UserRow) :=
  if users.any fun row => same row.username.bytes username || row.id == stamp.id then
    .error (refusal message)
  else
    match Varchar.ofBytes 64 username, Varchar.ofBytes 256 passwordHash, Varchar.ofBytes 128 email,
        Role.ofText role, UserStatus.ofText status with
    | some username, some password, some email, some role, some status =>
      .ok (users ++ [{ id := stamp.id, username := username, password := password, email := email,
                       role := some role, status := some status, createdAt := some stamp.time,
                       updatedAt := some stamp.time }])
    | _, _, _, _, _ => .error (refusal message)

/-- A row that an update to this status changes: it is the user's, and it has another status. -/
def changes (id : Int64) (status : UserStatus) (row : UserRow) : Bool :=
  row.id == id && row.status != some status

/-- The table after an update of a status. -/
def setStatus (time : DateTime) (users : List UserRow) (id : Int64) (status : UserStatus) :
    List UserRow :=
  users.map fun row =>
    if changes id status row then { row with status := some status, updatedAt := some time }
    else row

/-- `UpdateStatus`: the table, and whether a row was changed. -/
def updateStatus (time : DateTime) (message : Bytes) (users : List UserRow) (id : Int64)
    (status : Bytes) : Except Raised (List UserRow × Bool) :=
  match UserStatus.ofText status with
  | none => .error (refusal message)
  | some status => .ok (setStatus time users id status, users.any (changes id status))

/-- A new row has a new id. -/
theorem createUser_eq_ok {same : Bytes → Bytes → Bool} {stamp : Stamp} {message : Bytes}
    {users users' : List UserRow} {username passwordHash email role status : Bytes}
    (h : createUser same stamp message users username passwordHash email role status = .ok users') :
    ∃ row, users' = users ++ [row] ∧ ∀ old ∈ users, old.id ≠ row.id := by
  unfold createUser at h
  split at h
  · cases h
  · rename_i hfree
    split at h
    · obtain rfl := Except.ok.inj h
      refine ⟨_, rfl, fun old hold hid => hfree ?_⟩
      refine List.any_eq_true.mpr ⟨old, hold, ?_⟩
      rw [Bool.or_eq_true]
      exact Or.inr (beq_iff_eq.mpr hid)
    · cases h

/-- **After an update the user has the status.** -/
theorem status_of_mem_setStatus {time : DateTime} {users : List UserRow} {id : Int64}
    {status : UserStatus} {row : UserRow} (h : row ∈ setStatus time users id status)
    (hid : row.id = id) : row.status = some status := by
  obtain ⟨old, -, rfl⟩ := List.mem_map.mp h
  by_cases hchange : changes id status old = true
  · rw [if_pos hchange]
  · rw [if_neg hchange] at hid ⊢
    by_contra hne
    exact hchange (by simp [changes, hid, hne])

/-- Other users keep their rows, and nobody gets another id. -/
theorem mem_of_mem_setStatus {time : DateTime} {users : List UserRow} {id : Int64}
    {status : UserStatus} {row : UserRow} (h : row ∈ setStatus time users id status)
    (hid : row.id ≠ id) : row ∈ users := by
  obtain ⟨old, hold, rfl⟩ := List.mem_map.mp h
  by_cases hchange : changes id status old = true
  · rw [if_pos hchange] at hid
    simp only [changes, Bool.and_eq_true, beq_iff_eq] at hchange
    exact absurd hchange.1 hid
  · rw [if_neg hchange]
    exact hold

/-- Where no row changes, the table stays. -/
theorem setStatus_of_unchanged {time : DateTime} {users : List UserRow} {id : Int64}
    {status : UserStatus} (h : users.any (changes id status) = false) :
    setStatus time users id status = users := by
  refine (List.map_congr_left fun row hrow => ?_).trans (List.map_id users)
  rw [if_neg (List.any_eq_false.mp h row hrow)]
  rfl

theorem map_id_setStatus (time : DateTime) (users : List UserRow) (id : Int64)
    (status : UserStatus) :
    (setStatus time users id status).map UserRow.id = users.map UserRow.id := by
  rw [setStatus, List.map_map]
  refine List.map_congr_left fun row _ => ?_
  by_cases hchange : changes id status row = true <;> simp [hchange]

end UserDao

end OnlineJudge.Db
