/-
# The schema

The tables `users`, `languages`, `problems` and `test_cases` of `init_db.sql`: what their columns
can hold, and the records of `model/*.h` that the program reads them into.

A `VARCHAR(n)` column counts characters, and the character set is `utf8mb4`, so a value has up to
four bytes for each (`Varchar.length_le`).  Whether a column may be `NULL` is as the table
definition says; a record has no `NULL`, an empty text or 0 stands for it.

So a row and a record of it are two things.  The row is what the database keeps, and its fields have
types that can only hold what the column can; the record is what the program has, in strings and
integers of its own.  `UserRow.record` and its like say what a row means to the program, and reading
is right where it gives that.
-/
import OnlineJudge.Lib.Utf8

namespace OnlineJudge.Db

open ByteString

/-! ## 1. Columns

A value that a column cannot hold is refused by the database in strict mode.  Here such a value does
not exist: that it fits is a field of it. -/

/-- A value of a `VARCHAR(n)` column: at most `n` characters, not bytes. -/
structure Varchar (n : Nat) where
  bytes : Bytes
  utf8 : Utf8.wellFormed bytes = true
  fits : Utf8.chars bytes ≤ n
deriving DecidableEq

/-- A value of a `TEXT` column, which counts bytes. -/
structure Text where
  bytes : Bytes
  utf8 : Utf8.wellFormed bytes = true
  fits : bytes.length ≤ 65535
deriving DecidableEq

/-- A value of a `DATETIME` column, as it is read into a string: `YYYY-MM-DD HH:MM:SS`. -/
structure DateTime where
  bytes : Bytes
  fits : bytes.length = 19
deriving DecidableEq

/-- A column of `n` characters holds at most `4 * n` bytes, since UTF-8 has no character of more
than four. -/
theorem Varchar.length_le {n : Nat} (v : Varchar n) : v.bytes.length ≤ 4 * n :=
  Nat.le_trans (Utf8.length_le_chars v.utf8) (Nat.mul_le_mul_left 4 v.fits)

/-- The `role` of a user. -/
inductive Role
  | student
  | admin
deriving DecidableEq, Repr

/-- The value as the column spells it. -/
def Role.text : Role → Bytes
  | student => ascii "student"
  | admin => ascii "admin"

/-- The `status` of a user. -/
inductive UserStatus
  | active
  | banned
deriving DecidableEq, Repr

/-- The value as the column spells it. -/
def UserStatus.text : UserStatus → Bytes
  | active => ascii "active"
  | banned => ascii "banned"

/-- The `difficulty` of a problem. -/
inductive Difficulty
  | easy
  | medium
  | hard
deriving DecidableEq, Repr

/-- The value as the column spells it. -/
def Difficulty.text : Difficulty → Bytes
  | easy => ascii "easy"
  | medium => ascii "medium"
  | hard => ascii "hard"

/-- The `status` of a problem. -/
inductive ProblemStatus
  | draft
  | published
  | archived
deriving DecidableEq, Repr

/-- The value as the column spells it. -/
def ProblemStatus.text : ProblemStatus → Bytes
  | draft => ascii "draft"
  | published => ascii "published"
  | archived => ascii "archived"

/-! ## 2. Rows

The columns in the order of the table definition; `Option` where it does not say `NOT NULL`. -/

/-- A row of `users`.  A column that may be `NULL` is an option, and a text is one that the column
can hold. -/
structure UserRow where
  id : Int64
  username : Varchar 64
  password : Varchar 256
  email : Varchar 128
  role : Option Role
  status : Option UserStatus
  createdAt : Option DateTime
  updatedAt : Option DateTime
deriving DecidableEq

/-- A row of `languages`. -/
structure LanguageRow where
  id : Int32
  name : Varchar 32
  extension : Varchar 8
  compileCmd : Varchar 512
  runCmd : Varchar 512
  enabled : Option Int8
  createdAt : Option DateTime
deriving DecidableEq

/-- A row of `problems`. -/
structure ProblemRow where
  id : Int64
  title : Varchar 256
  description : Text
  difficulty : Option Difficulty
  timeLimitMs : Int32
  memoryLimitKb : Int32
  status : Option ProblemStatus
  createdBy : Option Int64
  createdAt : Option DateTime
  updatedAt : Option DateTime
deriving DecidableEq

/-- A row of `test_cases`. -/
structure TestCaseRow where
  id : Int64
  problemId : Int64
  isSample : Option Int8
  input : Text
  output : Text
  sortOrder : Option Int32
  createdAt : Option DateTime
deriving DecidableEq

/-! ## 3. Records

The structures of the source, with the defaults of a record that is read from a row with `NULL` in
it. -/

structure User where
  id : Int64
  username : Bytes
  password : Bytes
  email : Bytes
  role : Bytes
  status : Bytes
  createdAt : Bytes
  updatedAt : Bytes
deriving DecidableEq

structure Language where
  id : Int32
  name : Bytes
  extension : Bytes
  compileCmd : Bytes
  runCmd : Bytes
  enabled : Bool
  createdAt : Bytes
deriving DecidableEq

structure Problem where
  id : Int64
  title : Bytes
  description : Bytes
  difficulty : Bytes
  timeLimitMs : Int32
  memoryLimitKb : Int32
  status : Bytes
  createdBy : Int64
  createdAt : Bytes
  updatedAt : Bytes
deriving DecidableEq

structure TestCase where
  id : Int64
  problemId : Int64
  isSample : Bool
  input : Bytes
  output : Bytes
  sortOrder : Int32
  createdAt : Bytes
deriving DecidableEq

structure Submission where
  id : Int64
  userId : Int64
  problemId : Int64
  languageId : Int32
  sourceCode : Bytes
  mode : Bytes
  status : Bytes
  resultJson : Bytes
  timeMs : Int
  memoryKb : Int
  createdAt : Bytes
deriving DecidableEq

/-- The bytes of a column that may be `NULL`, which reads as the empty text. -/
def nullable {α : Type} (text : α → Bytes) (v : Option α) : Bytes := (v.map text).getD []

/-- What a row of `users` says. -/
def UserRow.record (row : UserRow) : User where
  id := row.id
  username := row.username.bytes
  password := row.password.bytes
  email := row.email.bytes
  role := nullable Role.text row.role
  status := nullable UserStatus.text row.status
  createdAt := nullable DateTime.bytes row.createdAt
  updatedAt := nullable DateTime.bytes row.updatedAt

/-- What a row of `languages` says. -/
def LanguageRow.record (row : LanguageRow) : Language where
  id := row.id
  name := row.name.bytes
  extension := row.extension.bytes
  compileCmd := row.compileCmd.bytes
  runCmd := row.runCmd.bytes
  enabled := row.enabled.getD 0 != 0
  createdAt := nullable DateTime.bytes row.createdAt

/-- What a row of `problems` says. -/
def ProblemRow.record (row : ProblemRow) : Problem where
  id := row.id
  title := row.title.bytes
  description := row.description.bytes
  difficulty := nullable Difficulty.text row.difficulty
  timeLimitMs := row.timeLimitMs
  memoryLimitKb := row.memoryLimitKb
  status := nullable ProblemStatus.text row.status
  createdBy := row.createdBy.getD 0
  createdAt := nullable DateTime.bytes row.createdAt
  updatedAt := nullable DateTime.bytes row.updatedAt

/-- What a row of `problems` says without its description, which a list leaves out. -/
def ProblemRow.summary (row : ProblemRow) : Problem := { row.record with description := [] }

/-- What a row of `test_cases` says. -/
def TestCaseRow.record (row : TestCaseRow) : TestCase where
  id := row.id
  problemId := row.problemId
  isSample := row.isSample.getD 0 != 0
  input := row.input.bytes
  output := row.output.bytes
  sortOrder := row.sortOrder.getD 0
  createdAt := nullable DateTime.bytes row.createdAt

end OnlineJudge.Db
