/-
# Reading rows

The reading operations of `UserDao`, `ProblemDao`, `LanguageDao` and `TestCaseDao`.  Each binds an
output variable to every column of its `SELECT`: a buffer of fixed size for a text, a variable for
a number.  `mysql_stmt_fetch` reports a text longer than its buffer as truncated, which
`CheckStmt` turns into an exception; a `NULL` leaves the variable of a number as it was, and the
variables of a list are shared by all of its rows.

The buffers are sized in bytes and the columns in characters, and most buffers are smaller than
what their column can hold.  `rows_readable_iff` says for each operation exactly which rows it
returns as they are stored.
-/
import Mathlib.Data.List.Sort
import OnlineJudge.Db.Schema
import OnlineJudge.Lib.Program

namespace OnlineJudge.Db

open ByteString

/-! ## 1. Output variables

A variable is bound once and fetched into for each row.  What a row does not write stays, and the
next row reads it: that is where stale numbers come from. -/

/-- `str()` of a `StringOut` with `cap` bytes, after a fetch. -/
def fetchString (cap : Nat) (v : Option Bytes) : Except Raised Bytes :=
  match v with
  | none => .ok []
  | some s => if s.length ≤ cap then .ok s else .error (.runtime (ascii "fetch: "))

/-- The variable of a number after a fetch. -/
def fetchNumber {α : Type} (old : α) (v : Option α) : α := v.getD old

theorem fetchString_eq_ok {cap : Nat} {v : Option Bytes} {s : Bytes} :
    fetchString cap v = .ok s ↔ s = v.getD [] ∧ (v.getD []).length ≤ cap := by
  cases v with
  | none => simp [fetchString, eq_comm]
  | some t =>
    simp only [fetchString, Option.getD_some]
    split
    · rename_i hfits
      simp [hfits, eq_comm]
    · rename_i hlong
      simp [hlong]

/-- The loop over the rows of a result: fetch, and append what the variables hold.  `keep` is what
a row leaves in the variables of numbers. -/
def fetchAll {β ρ α : Type} (fetch : β → ρ → Except Raised α) (keep : β → ρ → β) :
    β → List ρ → Except Raised (List α)
  | _, [] => .ok []
  | vars, row :: rows => do
    let a ← fetch vars row
    let rest ← fetchAll fetch keep (keep vars row) rows
    return a :: rest

/-- A read of at most one row: `MYSQL_NO_DATA`, or its fetch. -/
def readOne {ρ α : Type} (fetch : ρ → Except Raised α) : Option ρ → Except Raised (Option α)
  | none => .ok none
  | some row => (fetch row).map some

/-- A read of one row is right if its fetch is. -/
theorem readOne_eq_ok {ρ α : Type} {fetch : ρ → Except Raised α} {record : ρ → α}
    {fits : ρ → Prop} (hfetch : ∀ row, fetch row = .ok (record row) ↔ fits row)
    (found : Option ρ) :
    readOne fetch found = .ok (found.map record) ↔ ∀ row ∈ found, fits row := by
  cases found with
  | none => simp [readOne]
  | some row =>
    simp only [readOne, Option.map_some, Option.mem_some_iff, forall_eq', ← hfetch row]
    cases fetch row <;> simp [Except.map]

/-- The rows of a result, each with the rows before it.  A read fails at the first row that cannot
be fetched, and what a fetch leaves in the buffers depends on the rows before. -/
def EachAfter {ρ : Type} (rows : List ρ) (p : List ρ → ρ → Prop) : Prop :=
  ∀ before row after, rows = before ++ row :: after → p before row

theorem eachAfter_cons {ρ : Type} {row : ρ} {rows : List ρ} {p : List ρ → ρ → Prop} :
    EachAfter (row :: rows) p ↔ p [] row ∧ EachAfter rows fun before => p (row :: before) := by
  constructor
  · intro h
    refine ⟨h [] row rows rfl, fun before r after heq => h (row :: before) r after ?_⟩
    rw [heq, List.cons_append]
  · rintro ⟨hrow, hrows⟩ before r after heq
    cases before with
    | nil =>
      obtain ⟨rfl, -⟩ := List.cons.inj heq
      exact hrow
    | cons b before =>
      obtain ⟨rfl, htail⟩ := List.cons.inj heq
      exact hrows before r after htail

/-- **A list is right if each fetch is**, with the variables as the rows before have left them. -/
theorem fetchAll_eq_ok_map {β ρ α : Type} {fetch : β → ρ → Except Raised α} {keep : β → ρ → β}
    {record : ρ → α} {fits : ρ → Prop} {fresh : β → ρ → Prop}
    (hfetch : ∀ vars row, fetch vars row = .ok (record row) ↔ fits row ∧ fresh vars row)
    (vars : β) (rows : List ρ) :
    fetchAll fetch keep vars rows = .ok (rows.map record) ↔
      (∀ row ∈ rows, fits row) ∧
        EachAfter rows fun before row => fresh (before.foldl keep vars) row := by
  induction rows generalizing vars with
  | nil => simp [fetchAll, EachAfter]
  | cons row rows ih =>
    rw [fetchAll, List.map_cons, eachAfter_cons, List.forall_mem_cons]
    simp only [Except.bind_eq_ok]
    constructor
    · rintro ⟨a, ha, rest, hrest, hcons⟩
      obtain ⟨rfl, rfl⟩ := List.cons.inj (Except.ok.inj hcons)
      obtain ⟨hfits, hfresh⟩ := (hfetch vars row).mp ha
      obtain ⟨hfitsAll, hfreshAll⟩ := (ih (keep vars row)).mp hrest
      exact ⟨⟨hfits, hfitsAll⟩, hfresh, hfreshAll⟩
    · rintro ⟨⟨hfits, hfitsAll⟩, hfresh, hfreshAll⟩
      exact ⟨record row, (hfetch vars row).mpr ⟨hfits, hfresh⟩, rows.map record,
        (ih (keep vars row)).mpr ⟨hfitsAll, hfreshAll⟩, rfl⟩

/-- What the rows have left in the variable of a number that starts as 0. -/
def lastValue {ρ β : Type} [Zero β] (col : ρ → Option β) (rows : List ρ) : β :=
  (rows.filterMap col).getLastD 0

theorem foldl_fetchNumber {ρ β : Type} (col : ρ → Option β) (rows : List ρ) (old : β) :
    rows.foldl (fun b row => fetchNumber b (col row)) old = (rows.filterMap col).getLastD old := by
  induction rows generalizing old with
  | nil => rfl
  | cons row rows ih =>
    rw [List.foldl_cons, ih]
    cases hcol : col row with
    | none => rw [List.filterMap_cons_none hcol, fetchNumber, Option.getD_none]
    | some v => rw [List.filterMap_cons_some hcol, fetchNumber, Option.getD_some,
        List.getLastD_cons]

/-- **No stale number**: a row that is `NULL` in this column has 0 in the nearest row before it
that is not, if there is one. -/
def NoStale {ρ β : Type} [Zero β] (col : ρ → Option β) (rows : List ρ) : Prop :=
  EachAfter rows fun before row => col row = none → lastValue col before = 0

/-! ## 2. `UserDao`

Both reads select all columns and bind the same buffers. -/

/-- The texts of a row fit the buffers of `UserDao`.  The buffers are of bytes and the columns of
characters, so a row that the table takes need not fit. -/
structure UserRow.Fits (row : UserRow) : Prop where
  username : row.username.bytes.length ≤ 128
  password : row.password.bytes.length ≤ 512
  email : row.email.bytes.length ≤ 256

namespace UserDao

/-- The fetch of both reads. -/
def fetchUser (row : UserRow) : Except Raised User := do
  let username ← fetchString 128 (some row.username.bytes)
  let password ← fetchString 512 (some row.password.bytes)
  let email ← fetchString 256 (some row.email.bytes)
  let role ← fetchString 32 (row.role.map Role.text)
  let status ← fetchString 32 (row.status.map UserStatus.text)
  let createdAt ← fetchString 32 (row.createdAt.map DateTime.bytes)
  let updatedAt ← fetchString 32 (row.updatedAt.map DateTime.bytes)
  return { id := row.id, username := username, password := password, email := email,
           role := role, status := status, createdAt := createdAt, updatedAt := updatedAt }

/-- `GetByUsername`; `same` is equality in the collation of the column. -/
def getByUsername (same : Bytes → Bytes → Bool) (users : List UserRow) (username : Bytes) :
    Except Raised (Option User) :=
  readOne fetchUser (users.find? fun row => same row.username.bytes username)

def getById (users : List UserRow) (id : Int64) : Except Raised (Option User) :=
  readOne fetchUser (users.find? fun row => row.id == id)

end UserDao

/-! ## 3. `ProblemDao`

The list leaves the description out, which has no length that a buffer would have to fit. -/

/-- The title of a row fits its buffer. -/
def ProblemRow.Fits (row : ProblemRow) : Prop := row.title.bytes.length ≤ 512

namespace ProblemDao

/-- The fetch of `GetById`. -/
def fetchProblem (row : ProblemRow) : Except Raised Problem := do
  let title ← fetchString 512 (some row.title.bytes)
  let description ← fetchString 65536 (some row.description.bytes)
  let difficulty ← fetchString 32 (row.difficulty.map Difficulty.text)
  let status ← fetchString 32 (row.status.map ProblemStatus.text)
  let createdAt ← fetchString 32 (row.createdAt.map DateTime.bytes)
  let updatedAt ← fetchString 32 (row.updatedAt.map DateTime.bytes)
  return { id := row.id, title := title, description := description, difficulty := difficulty,
           timeLimitMs := row.timeLimitMs, memoryLimitKb := row.memoryLimitKb, status := status,
           createdBy := fetchNumber 0 row.createdBy, createdAt := createdAt,
           updatedAt := updatedAt }

def getById (problems : List ProblemRow) (id : Int64) : Except Raised (Option Problem) :=
  readOne fetchProblem (problems.find? fun row => row.id == id)

/-- A fetch of `List`, with what is in the variable of `created_by`. -/
def fetchSummary (createdBy : Int64) (row : ProblemRow) : Except Raised Problem := do
  let title ← fetchString 512 (some row.title.bytes)
  let difficulty ← fetchString 32 (row.difficulty.map Difficulty.text)
  let status ← fetchString 32 (row.status.map ProblemStatus.text)
  let createdAt ← fetchString 32 (row.createdAt.map DateTime.bytes)
  let updatedAt ← fetchString 32 (row.updatedAt.map DateTime.bytes)
  return { id := row.id, title := title, description := [], difficulty := difficulty,
           timeLimitMs := row.timeLimitMs, memoryLimitKb := row.memoryLimitKb, status := status,
           createdBy := fetchNumber createdBy row.createdBy, createdAt := createdAt,
           updatedAt := updatedAt }

/-- The rows that `List` selects. -/
def select (same : Bytes → Bytes → Bool) (problems : List ProblemRow) (limit offset : Nat)
    (statusFilter : Bytes) : List ProblemRow :=
  let rows :=
    if statusFilter ≠ [] then
      problems.filter fun row => row.status.any fun status => same status.text statusFilter
    else problems
  ((rows.insertionSort fun a b => b.id ≤ a.id).drop offset).take limit

def list (same : Bytes → Bytes → Bool) (problems : List ProblemRow) (limit offset : Nat)
    (statusFilter : Bytes) : Except Raised (List Problem) :=
  fetchAll fetchSummary (fun createdBy row => fetchNumber createdBy row.createdBy) 0
    (select same problems limit offset statusFilter)

end ProblemDao

/-! ## 4. `LanguageDao`

The buffers of the name and of the compile command are as large as their columns can need, the two
others are not. -/

/-- The texts of a row fit the buffers of `LanguageDao`. -/
structure LanguageRow.Fits (row : LanguageRow) : Prop where
  extension : row.extension.bytes.length ≤ 16
  runCmd : row.runCmd.bytes.length ≤ 1024

namespace LanguageDao

/-- The fetch of both reads, with what is in the variable of `enabled`. -/
def fetchLanguage (enabled : Int8) (row : LanguageRow) : Except Raised Language := do
  let name ← fetchString 128 (some row.name.bytes)
  let extension ← fetchString 16 (some row.extension.bytes)
  let compileCmd ← fetchString 2048 (some row.compileCmd.bytes)
  let runCmd ← fetchString 1024 (some row.runCmd.bytes)
  let createdAt ← fetchString 32 (row.createdAt.map DateTime.bytes)
  return { id := row.id, name := name, extension := extension, compileCmd := compileCmd,
           runCmd := runCmd, enabled := fetchNumber enabled row.enabled != 0,
           createdAt := createdAt }

/-- The rows that `ListAll` selects. -/
def select (languages : List LanguageRow) (onlyEnabled : Bool) : List LanguageRow :=
  let rows :=
    if onlyEnabled then languages.filter fun row => row.enabled == some 1 else languages
  rows.insertionSort fun a b => a.id ≤ b.id

def listAll (languages : List LanguageRow) (onlyEnabled : Bool) : Except Raised (List Language) :=
  fetchAll fetchLanguage (fun enabled row => fetchNumber enabled row.enabled) 0
    (select languages onlyEnabled)

def getById (languages : List LanguageRow) (id : Int32) : Except Raised (Option Language) :=
  readOne (fetchLanguage 0) (languages.find? fun row => row.id == id)

end LanguageDao

/-! ## 5. `TestCaseDao`

Input and output are read into buffers of the size that the column can have, so that only `NULL` is
left to go wrong. -/

namespace TestCaseDao

/-- A fetch of `ListByProblem`, with what is in the variables of `is_sample` and `sort_order`. -/
def fetchTestCase (vars : Int8 × Int32) (row : TestCaseRow) : Except Raised TestCase := do
  let input ← fetchString 65536 (some row.input.bytes)
  let output ← fetchString 65536 (some row.output.bytes)
  let createdAt ← fetchString 32 (row.createdAt.map DateTime.bytes)
  return { id := row.id, problemId := row.problemId,
           isSample := fetchNumber vars.1 row.isSample != 0, input := input, output := output,
           sortOrder := fetchNumber vars.2 row.sortOrder, createdAt := createdAt }

/-- The place of a row by its `sort_order`: a `NULL` comes first. -/
def sortKey (row : TestCaseRow) : Int :=
  match row.sortOrder with
  | none => -2 ^ 31 - 1
  | some n => n.toInt

/-- `ORDER BY sort_order,id`. -/
def inOrder (a b : TestCaseRow) : Bool :=
  sortKey a < sortKey b || (sortKey a == sortKey b && a.id ≤ b.id)

/-- The rows that `ListByProblem` selects. -/
def select (testCases : List TestCaseRow) (problemId : Int64) (onlySample : Bool) :
    List TestCaseRow :=
  let rows := testCases.filter fun row =>
    row.problemId == problemId && (!onlySample || row.isSample == some 1)
  rows.insertionSort fun a b => inOrder a b

def listByProblem (testCases : List TestCaseRow) (problemId : Int64) (onlySample : Bool) :
    Except Raised (List TestCase) :=
  fetchAll fetchTestCase
    (fun vars row => (fetchNumber vars.1 row.isSample, fetchNumber vars.2 row.sortOrder)) (0, 0)
    (select testCases problemId onlySample)

end TestCaseDao

/-! ## 6. Which rows are readable

For each operation, first the fetch of one row, and then the result from `readOne_eq_ok` or
`fetchAll_eq_ok_map`. -/

theorem length_nullable_le {α : Type} {text : α → Bytes} {cap : Nat}
    (h : ∀ a, (text a).length ≤ cap) (v : Option α) : ((v.map text).getD []).length ≤ cap := by
  cases v with
  | none => exact Nat.zero_le cap
  | some a => exact h a

theorem Role.length_text (role : Role) : role.text.length ≤ 32 := by cases role <;> decide

theorem UserStatus.length_text (status : UserStatus) : status.text.length ≤ 32 := by
  cases status <;> decide

theorem Difficulty.length_text (difficulty : Difficulty) : difficulty.text.length ≤ 32 := by
  cases difficulty <;> decide

theorem ProblemStatus.length_text (status : ProblemStatus) : status.text.length ≤ 32 := by
  cases status <;> decide

theorem DateTime.length_bytes (time : DateTime) : time.bytes.length ≤ 32 := by
  rw [time.fits]
  decide

theorem UserDao.fetchUser_eq_ok (row : UserRow) :
    fetchUser row = .ok row.record ↔ row.Fits := by
  simp only [fetchUser, Except.bind_eq_ok, fetchString_eq_ok, Option.getD_some]
  constructor
  · rintro ⟨_, ⟨-, husername⟩, _, ⟨-, hpassword⟩, _, ⟨-, hemail⟩, -⟩
    exact ⟨husername, hpassword, hemail⟩
  · rintro ⟨husername, hpassword, hemail⟩
    exact ⟨_, ⟨rfl, husername⟩, _, ⟨rfl, hpassword⟩, _, ⟨rfl, hemail⟩,
      _, ⟨rfl, length_nullable_le Role.length_text row.role⟩,
      _, ⟨rfl, length_nullable_le UserStatus.length_text row.status⟩,
      _, ⟨rfl, length_nullable_le DateTime.length_bytes row.createdAt⟩,
      _, ⟨rfl, length_nullable_le DateTime.length_bytes row.updatedAt⟩, rfl⟩

theorem ProblemDao.fetchProblem_eq_ok (row : ProblemRow) :
    fetchProblem row = .ok row.record ↔ row.Fits := by
  simp only [fetchProblem, Except.bind_eq_ok, fetchString_eq_ok, Option.getD_some]
  constructor
  · rintro ⟨_, ⟨-, htitle⟩, -⟩
    exact htitle
  · intro htitle
    have hdescription := row.description.fits
    exact ⟨_, ⟨rfl, htitle⟩, _, ⟨rfl, by omega⟩,
      _, ⟨rfl, length_nullable_le Difficulty.length_text row.difficulty⟩,
      _, ⟨rfl, length_nullable_le ProblemStatus.length_text row.status⟩,
      _, ⟨rfl, length_nullable_le DateTime.length_bytes row.createdAt⟩,
      _, ⟨rfl, length_nullable_le DateTime.length_bytes row.updatedAt⟩, rfl⟩

/-- A variable holds what the column says: the column is not `NULL`, or the variable is still
0. -/
theorem fetchNumber_eq_getD {α : Type} [Zero α] {old : α} {v : Option α} :
    fetchNumber old v = v.getD 0 ↔ (v = none → old = 0) := by
  cases v <;> simp [fetchNumber]

theorem ProblemDao.fetchSummary_eq_ok (createdBy : Int64) (row : ProblemRow) :
    fetchSummary createdBy row = .ok row.summary ↔
      row.Fits ∧ (row.createdBy = none → createdBy = 0) := by
  simp only [fetchSummary, Except.bind_eq_ok, fetchString_eq_ok, Option.getD_some]
  constructor
  · rintro ⟨_, ⟨-, htitle⟩, _, -, _, -, _, -, _, -, heq⟩
    have hcreatedBy := congrArg Problem.createdBy (Except.ok.inj heq)
    exact ⟨htitle, fetchNumber_eq_getD.mp hcreatedBy⟩
  · rintro ⟨htitle, hcreatedBy⟩
    refine ⟨_, ⟨rfl, htitle⟩,
      _, ⟨rfl, length_nullable_le Difficulty.length_text row.difficulty⟩,
      _, ⟨rfl, length_nullable_le ProblemStatus.length_text row.status⟩,
      _, ⟨rfl, length_nullable_le DateTime.length_bytes row.createdAt⟩,
      _, ⟨rfl, length_nullable_le DateTime.length_bytes row.updatedAt⟩, ?_⟩
    rw [fetchNumber_eq_getD.mpr hcreatedBy]
    rfl

theorem bne_fetchNumber_iff {α : Type} [Zero α] [DecidableEq α] {old : α} {v : Option α} :
    (fetchNumber old v != 0) = (v.getD 0 != 0) ↔ (v = none → old = 0) := by
  cases v <;> simp [fetchNumber]

theorem LanguageDao.fetchLanguage_eq_ok (enabled : Int8) (row : LanguageRow) :
    fetchLanguage enabled row = .ok row.record ↔
      row.Fits ∧ (row.enabled = none → enabled = 0) := by
  simp only [fetchLanguage, Except.bind_eq_ok, fetchString_eq_ok, Option.getD_some]
  constructor
  · rintro ⟨_, -, _, ⟨-, hextension⟩, _, -, _, ⟨-, hrunCmd⟩, _, -, heq⟩
    have henabled := congrArg Language.enabled (Except.ok.inj heq)
    exact ⟨⟨hextension, hrunCmd⟩, bne_fetchNumber_iff.mp henabled⟩
  · rintro ⟨⟨hextension, hrunCmd⟩, henabled⟩
    have hname := row.name.length_le
    have hcompileCmd := row.compileCmd.length_le
    refine ⟨_, ⟨rfl, hname⟩, _, ⟨rfl, hextension⟩, _, ⟨rfl, hcompileCmd⟩, _, ⟨rfl, hrunCmd⟩,
      _, ⟨rfl, length_nullable_le DateTime.length_bytes row.createdAt⟩, ?_⟩
    rw [bne_fetchNumber_iff.mpr henabled]
    rfl

theorem TestCaseDao.fetchTestCase_eq_ok (vars : Int8 × Int32) (row : TestCaseRow) :
    fetchTestCase vars row = .ok row.record ↔
      True ∧ (row.isSample = none → vars.1 = 0) ∧ (row.sortOrder = none → vars.2 = 0) := by
  simp only [fetchTestCase, Except.bind_eq_ok, fetchString_eq_ok, Option.getD_some, true_and]
  constructor
  · rintro ⟨_, -, _, -, _, -, heq⟩
    have hisSample := congrArg TestCase.isSample (Except.ok.inj heq)
    have hsortOrder := congrArg TestCase.sortOrder (Except.ok.inj heq)
    exact ⟨bne_fetchNumber_iff.mp hisSample, fetchNumber_eq_getD.mp hsortOrder⟩
  · rintro ⟨hisSample, hsortOrder⟩
    have hinput := row.input.fits
    have houtput := row.output.fits
    refine ⟨_, ⟨rfl, by omega⟩, _, ⟨rfl, by omega⟩,
      _, ⟨rfl, length_nullable_le DateTime.length_bytes row.createdAt⟩, ?_⟩
    rw [bne_fetchNumber_iff.mpr hisSample, fetchNumber_eq_getD.mpr hsortOrder]
    rfl

/-- **A list of problems** is right if each title fits and no `created_by` is stale. -/
theorem ProblemDao.list_eq_ok (same : Bytes → Bytes → Bool) (problems : List ProblemRow)
    (limit offset : Nat) (statusFilter : Bytes) :
    list same problems limit offset statusFilter =
        .ok ((select same problems limit offset statusFilter).map ProblemRow.summary) ↔
      (∀ row ∈ select same problems limit offset statusFilter, row.Fits) ∧
        NoStale ProblemRow.createdBy (select same problems limit offset statusFilter) := by
  rw [list, fetchAll_eq_ok_map fetchSummary_eq_ok]
  simp only [foldl_fetchNumber]
  rfl

theorem LanguageDao.listAll_eq_ok (languages : List LanguageRow) (onlyEnabled : Bool) :
    listAll languages onlyEnabled =
        .ok ((select languages onlyEnabled).map LanguageRow.record) ↔
      (∀ row ∈ select languages onlyEnabled, row.Fits) ∧
        NoStale LanguageRow.enabled (select languages onlyEnabled) := by
  rw [listAll, fetchAll_eq_ok_map fetchLanguage_eq_ok]
  simp only [foldl_fetchNumber]
  rfl

theorem foldl_pair {ρ β γ : Type} (f : β → ρ → β) (g : γ → ρ → γ) (rows : List ρ) (b : β) (c : γ) :
    rows.foldl (fun vars row => (f vars.1 row, g vars.2 row)) (b, c) =
      (rows.foldl f b, rows.foldl g c) := by
  induction rows generalizing b c with
  | nil => rfl
  | cons row rows ih => exact ih (f b row) (g c row)

theorem TestCaseDao.inOrder_iff {a b : TestCaseRow} :
    inOrder a b = true ↔
      sortKey a < sortKey b ∨ sortKey a = sortKey b ∧ a.id.toInt ≤ b.id.toInt := by
  simp only [inOrder, Bool.or_eq_true, decide_eq_true_eq, Bool.and_eq_true, beq_iff_eq,
    Int64.le_iff_toInt_le]

instance : IsTrans TestCaseRow fun a b => TestCaseDao.inOrder a b = true where
  trans a b c hab hbc := by
    rw [TestCaseDao.inOrder_iff] at hab hbc ⊢
    omega

instance : Std.Total fun a b : TestCaseRow => TestCaseDao.inOrder a b = true where
  total a b := by
    rw [TestCaseDao.inOrder_iff, TestCaseDao.inOrder_iff]
    omega

/-- Rows without a `sort_order` come first, so there is nothing stale in its variable. -/
theorem TestCaseDao.noStale_sortOrder (testCases : List TestCaseRow) (problemId : Int64)
    (onlySample : Bool) :
    NoStale TestCaseRow.sortOrder (select testCases problemId onlySample) := by
  intro before row after heq hnull
  have hsorted : (select testCases problemId onlySample).Pairwise fun a b => inOrder a b = true :=
    List.pairwise_insertionSort _ _
  rw [heq] at hsorted
  have hbefore : ∀ b ∈ before, b.sortOrder = none := by
    intro b hb
    have hle : inOrder b row = true :=
      (List.pairwise_append.mp hsorted).2.2 b hb row List.mem_cons_self
    have hrow : sortKey row = -2 ^ 31 - 1 := by rw [sortKey, hnull]
    cases hkey : b.sortOrder with
    | none => rfl
    | some n =>
      have hb : sortKey b = n.toInt := by rw [sortKey, hkey]
      have hn := n.le_toInt
      rw [inOrder_iff, hrow, hb] at hle
      omega
  have hnone : before.filterMap TestCaseRow.sortOrder = [] :=
    List.filterMap_eq_nil_iff.mpr hbefore
  rw [lastValue, hnone, List.getLastD_nil]

/-- **A list of test cases** is right if no `is_sample` is stale. -/
theorem TestCaseDao.listByProblem_eq_ok (testCases : List TestCaseRow) (problemId : Int64)
    (onlySample : Bool) :
    listByProblem testCases problemId onlySample =
        .ok ((select testCases problemId onlySample).map TestCaseRow.record) ↔
      NoStale TestCaseRow.isSample (select testCases problemId onlySample) := by
  rw [listByProblem, fetchAll_eq_ok_map fetchTestCase_eq_ok]
  have hvars : ∀ before : List TestCaseRow, before.foldl
      (fun vars row => (fetchNumber vars.1 row.isSample, fetchNumber vars.2 row.sortOrder)) (0, 0) =
      (lastValue TestCaseRow.isSample before, lastValue TestCaseRow.sortOrder before) := by
    intro before
    rw [foldl_pair (fun b (row : TestCaseRow) => fetchNumber b row.isSample)
      (fun b row => fetchNumber b row.sortOrder), foldl_fetchNumber, foldl_fetchNumber]
    rfl
  simp only [hvars]
  constructor
  · rintro ⟨-, h⟩ before row after heq
    exact (h before row after heq).1
  · intro h
    refine ⟨fun _ _ => trivial, fun before row after heq => ⟨h before row after heq, ?_⟩⟩
    exact noStale_sortOrder testCases problemId onlySample before row after heq

/-- **Which rows are readable.**  A read of one row returns it as it is stored exactly when its
texts fit the buffers in bytes; a list returns all selected rows so exactly when the texts of each
of them fit, and no number that is `NULL` in one row is left over from another. -/
theorem rows_readable_iff (same : Bytes → Bytes → Bool) (users : List UserRow)
    (problems : List ProblemRow) (languages : List LanguageRow) (testCases : List TestCaseRow) :
    (∀ username, let found := users.find? fun row => same row.username.bytes username
      UserDao.getByUsername same users username = .ok (found.map UserRow.record) ↔
        ∀ row ∈ found, row.Fits) ∧
    (∀ id, let found := users.find? fun row => row.id == id
      UserDao.getById users id = .ok (found.map UserRow.record) ↔ ∀ row ∈ found, row.Fits) ∧
    (∀ id, let found := problems.find? fun row => row.id == id
      ProblemDao.getById problems id = .ok (found.map ProblemRow.record) ↔
        ∀ row ∈ found, row.Fits) ∧
    (∀ limit offset statusFilter,
      let rows := ProblemDao.select same problems limit offset statusFilter
      ProblemDao.list same problems limit offset statusFilter =
          .ok (rows.map ProblemRow.summary) ↔
        (∀ row ∈ rows, row.Fits) ∧ NoStale ProblemRow.createdBy rows) ∧
    (∀ id, let found := languages.find? fun row => row.id == id
      LanguageDao.getById languages id = .ok (found.map LanguageRow.record) ↔
        ∀ row ∈ found, row.Fits) ∧
    (∀ onlyEnabled, let rows := LanguageDao.select languages onlyEnabled
      LanguageDao.listAll languages onlyEnabled = .ok (rows.map LanguageRow.record) ↔
        (∀ row ∈ rows, row.Fits) ∧ NoStale LanguageRow.enabled rows) ∧
    ∀ problemId onlySample, let rows := TestCaseDao.select testCases problemId onlySample
      TestCaseDao.listByProblem testCases problemId onlySample =
          .ok (rows.map TestCaseRow.record) ↔ NoStale TestCaseRow.isSample rows := by
  have hlanguage : ∀ row, LanguageDao.fetchLanguage 0 row = .ok row.record ↔ row.Fits := by
    intro row
    rw [LanguageDao.fetchLanguage_eq_ok]
    exact and_iff_left fun _ => rfl
  refine ⟨fun username => ?_, fun id => ?_, fun id => ?_, fun limit offset statusFilter => ?_,
    fun id => ?_, fun onlyEnabled => ?_, fun problemId onlySample => ?_⟩
  · exact readOne_eq_ok UserDao.fetchUser_eq_ok _
  · exact readOne_eq_ok UserDao.fetchUser_eq_ok _
  · exact readOne_eq_ok ProblemDao.fetchProblem_eq_ok _
  · exact ProblemDao.list_eq_ok same problems limit offset statusFilter
  · exact readOne_eq_ok hlanguage _
  · exact LanguageDao.listAll_eq_ok languages onlyEnabled
  · exact TestCaseDao.listByProblem_eq_ok testCases problemId onlySample

/-- A user whose name is 33 characters of four bytes. -/
def longNameUser : UserRow where
  id := 1
  username := ⟨(List.replicate 33 [0xF0, 0x9F, 0x98, 0x80]).flatten, by decide, by decide⟩
  password := ⟨[], by decide, by decide⟩
  email := ⟨[], by decide, by decide⟩
  role := some .student
  status := some .active
  createdAt := none
  updatedAt := none

/-- A problem with this title. -/
def titledProblem (id : Int64) (title : Varchar 256) : ProblemRow where
  id := id
  title := title
  description := ⟨[], by decide, by decide⟩
  difficulty := some .easy
  timeLimitMs := 1000
  memoryLimitKb := 262144
  status := some .published
  createdBy := some 1
  createdAt := none
  updatedAt := none

/-- A title of 171 characters of three bytes. -/
def longTitle : Varchar 256 :=
  ⟨(List.replicate 171 [0xE4, 0xB8, 0xAD]).flatten, by decide +kernel, by decide +kernel⟩

/-- **Rows that the schema admits and the program cannot read.**  The user can neither log in nor
be shown, and the problem makes the list fail for the other one. -/
theorem unreadable_rows :
    UserDao.getByUsername (· == ·) [longNameUser] longNameUser.username.bytes ≠
        .ok (some longNameUser.record) ∧
      ProblemDao.list (· == ·)
          [titledProblem 1 ⟨ascii "sum", by decide, by decide⟩, titledProblem 2 longTitle] 20 0 [] =
        .error (.runtime (ascii "fetch: ")) := by
  constructor
  · decide +kernel
  · decide +kernel

end OnlineJudge.Db
