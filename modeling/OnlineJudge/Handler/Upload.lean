/-
# Replacing the test cases of a problem

`POST /api/admin/problems/{id}/testcases/upload` deletes the test cases of a problem that are not
samples and inserts those of the archive, one statement each.  Every statement is committed on its
own, and any of them can fail; there is no transaction around them.

* `run_addAll`: the loop of inserts leaves the rows of the pairs before the first that fails.
* `run_postUpload_of_plan`, `postUpload_of_none`: a request either comes to the replacement or is
  answered with an error before it.
* `upload_allOrNothing_iff`: when an upload is all or nothing.

The rows that are there may be of any problem, and the delete takes those that say they are no
samples.  A row that says nothing (`NULL`) is neither kept on purpose nor deleted, which is why it
appears in the condition.
-/
import OnlineJudge.Db.Writes
import OnlineJudge.Handler.AdminHandler

namespace OnlineJudge.Handler

open ByteString Db Net Auth

/-! ## 1. The database

Any operation of a request can fail, by its number.  The operations that are not about these two
tables are any at all. -/

/-- The two tables that an upload reads and writes. -/
structure CaseDb where
  problems : List ProblemRow
  testCases : List TestCaseRow

/-- What the database does with the `k`-th operation of a request: it fails, or it goes on, with
this stamp for a new row and this message if the row is refused. -/
structure CaseServer where
  fails : Nat → Option Raised
  stamp : Nat → Stamp
  message : Nat → Bytes
  others : Dao CaseDb

namespace CaseServer

/-- The row that an insert adds, with the stamp of the operation. -/
def insertAt (server : CaseServer) (k : Nat) (tc : TestCase) : Except Raised TestCaseRow :=
  match server.fails k with
  | some e => .error e
  | none => TestCaseDao.add (server.stamp k) (server.message k) tc

/-- What `ProblemDao::GetById` returns as the `k`-th operation. -/
def problemAt (server : CaseServer) (k : Nat) (db : CaseDb) (id : Int64) :
    Except Raised (Option Problem) :=
  match server.fails k with
  | some e => .error e
  | none => ProblemDao.getById db.problems id

/-- The DAO layer over the two tables. -/
def dao (server : CaseServer) : Dao CaseDb where
  perform k op db :=
    match server.fails k with
    | some e => (.error e, db)
    | none =>
      match op with
      | .problemGetById id => (ProblemDao.getById db.problems id, db)
      | .testCaseDeleteByProblem problemId onlyNonSample =>
        let (rows, deleted) := TestCaseDao.deleteByProblem db.testCases problemId onlyNonSample
        (.ok deleted, { db with testCases := rows })
      | .testCaseAdd tc =>
        match TestCaseDao.add (server.stamp k) (server.message k) tc with
        | .error e => (.error e, db)
        | .ok row => (.ok row.id, { db with testCases := db.testCases ++ [row] })
      | op => server.others.perform k op db

end CaseServer

/-! ## 2. The inserts

The loop stops at the first insert that fails.  What it has inserted by then is a prefix of what it
would have inserted, and it stays. -/

section

variable (server : CaseServer) (pid : Int64)

/-- The rows that the loop inserts from its `k`-th operation on, and what stops it. -/
def insertions : Nat → List ZipParsedCase → List TestCaseRow × Option Raised
  | _, [] => ([], none)
  | k, item :: items =>
    match server.insertAt k (item.testCase pid) with
    | .error e => ([], some e)
    | .ok row => (row :: (insertions (k + 1) items).1, (insertions (k + 1) items).2)

/-- The insert goes through: the operation does not fail, and both texts fit their columns.  A
`TEXT` column counts bytes, and refuses what is not UTF-8. -/
def Inserts (k : Nat) (item : ZipParsedCase) : Prop :=
  server.fails k = none ∧
    (Utf8.wellFormed item.input = true ∧ item.input.length ≤ 65535) ∧
    (Utf8.wellFormed item.output = true ∧ item.output.length ≤ 65535)

instance (k : Nat) (item : ZipParsedCase) : Decidable (Inserts server k item) :=
  inferInstanceAs (Decidable (_ ∧ _ ∧ _))

/-- The row is the non-sample case of this pair.  Its id is left open, as the database chooses it.
-/
def CaseOf (row : TestCaseRow) (item : ZipParsedCase) : Prop :=
  row.problemId = pid ∧ row.isSample = some 0 ∧ row.input.bytes = item.input ∧
    row.output.bytes = item.output ∧ row.sortOrder = some (.ofInt item.sortOrder)

variable {server pid}

theorem insertAt_isOk_iff {pid : Int64} {k : Nat} {item : ZipParsedCase} :
    (∃ row, server.insertAt k (item.testCase pid) = .ok row) ↔ Inserts server k item := by
  rw [Inserts, CaseServer.insertAt]
  cases server.fails k with
  | some e => simp
  | none =>
    rw [TestCaseDao.add_isOk_iff]
    simp [ZipParsedCase.testCase]

theorem insertAt_eq_ok {k : Nat} {item : ZipParsedCase} {row : TestCaseRow}
    (h : server.insertAt k (item.testCase pid) = .ok row) :
    row.id = (server.stamp k).id ∧ CaseOf pid row item := by
  unfold CaseServer.insertAt at h
  split at h
  · cases h
  · exact TestCaseDao.add_eq_ok h

theorem insertions_cons_ok {k : Nat} {item : ZipParsedCase} {items : List ZipParsedCase}
    {row : TestCaseRow} (h : server.insertAt k (item.testCase pid) = .ok row) :
    insertions server pid k (item :: items) =
      (row :: (insertions server pid (k + 1) items).1,
        (insertions server pid (k + 1) items).2) := by
  rw [insertions, h]

theorem insertions_cons_error {k : Nat} {item : ZipParsedCase} {items : List ZipParsedCase}
    {e : Raised} (h : server.insertAt k (item.testCase pid) = .error e) :
    insertions server pid k (item :: items) = ([], some e) := by
  rw [insertions, h]

/-- **Nothing stops the loop** exactly if every insert goes through. -/
theorem insertions_snd_eq_none {k : Nat} {items : List ZipParsedCase} :
    (insertions server pid k items).2 = none ↔
      ∀ i item, items[i]? = some item → Inserts server (k + i) item := by
  induction items generalizing k with
  | nil => simp [insertions]
  | cons item items ih =>
    cases hinsert : server.insertAt k (item.testCase pid) with
    | error e =>
      rw [insertions_cons_error hinsert]
      refine iff_of_false (by simp) fun h => ?_
      have hhead : Inserts server k item := h 0 item rfl
      obtain ⟨row, hrow⟩ : ∃ row, server.insertAt k (item.testCase pid) = .ok row :=
        insertAt_isOk_iff.mpr hhead
      rw [hinsert] at hrow
      cases hrow
    | ok row =>
      have hhead : Inserts server k item := insertAt_isOk_iff.mp ⟨row, hinsert⟩
      rw [insertions_cons_ok hinsert, ih]
      constructor
      · intro h i item' hi
        cases i with
        | zero =>
          obtain rfl := Option.some.inj hi
          exact hhead
        | succ i =>
          rw [show k + (i + 1) = k + 1 + i by omega]
          exact h i item' hi
      · intro h i item' hi
        rw [show k + 1 + i = k + (i + 1) by omega]
        exact h (i + 1) item' hi

/-- What is inserted by a loop that nothing stops: one case for each pair. -/
theorem forall₂_insertions {k : Nat} {items : List ZipParsedCase}
    (h : (insertions server pid k items).2 = none) :
    List.Forall₂ (CaseOf pid) (insertions server pid k items).1 items := by
  induction items generalizing k with
  | nil => exact .nil
  | cons item items ih =>
    cases hinsert : server.insertAt k (item.testCase pid) with
    | error e =>
      rw [insertions_cons_error hinsert] at h
      cases h
    | ok row =>
      rw [insertions_cons_ok hinsert] at h ⊢
      exact .cons (insertAt_eq_ok hinsert).2 (ih h)

/-- Nothing is inserted exactly if the first insert fails. -/
theorem insertions_fst_eq_nil {k : Nat} {item : ZipParsedCase} {items : List ZipParsedCase} :
    (insertions server pid k (item :: items)).1 = [] ↔ ¬ Inserts server k item := by
  have hinserts : (∃ row, server.insertAt k (item.testCase pid) = .ok row) ↔ _ := insertAt_isOk_iff
  rw [← hinserts]
  cases hinsert : server.insertAt k (item.testCase pid) with
  | error e => simp [insertions_cons_error hinsert]
  | ok row => simp [insertions_cons_ok hinsert]

/-- The rows have the ids that the database gave them. -/
theorem id_of_mem_insertions {k : Nat} {items : List ZipParsedCase} {row : TestCaseRow}
    (h : row ∈ (insertions server pid k items).1) : ∃ j, row.id = (server.stamp j).id := by
  induction items generalizing k with
  | nil => cases h
  | cons item items ih =>
    cases hinsert : server.insertAt k (item.testCase pid) with
    | error e =>
      rw [insertions_cons_error hinsert] at h
      cases h
    | ok first =>
      rw [insertions_cons_ok hinsert] at h
      rcases List.mem_cons.mp h with rfl | hrest
      · exact ⟨k, (insertAt_eq_ok hinsert).1⟩
      · exact ih hrest

theorem run_call_add (server : CaseServer) (k : Nat) (tc : TestCase) (rsp : HttpResponse)
    (db : CaseDb) :
    ((server.dao.call (.testCaseAdd tc)).run ⟨rsp, k, db⟩ : Except Raised Int64 × World CaseDb) =
      match server.insertAt k tc with
      | .error e => (.error e, ⟨rsp, k + 1, db⟩)
      | .ok row => (.ok row.id, ⟨rsp, k + 1, { db with testCases := db.testCases ++ [row] }⟩) := by
  rw [run_call]
  simp only [CaseServer.dao, CaseServer.insertAt, ExceptT.run]
  cases server.fails k with
  | some e => rfl
  | none => cases TestCaseDao.add (server.stamp k) (server.message k) tc <;> rfl

/-- **The loop of inserts.**  It leaves the rows of the pairs before the first that fails, and its
exception goes on. -/
theorem run_addAll (server : CaseServer) (pid : Int64) (items : List ZipParsedCase) (n k : Nat)
    (rsp : HttpResponse) (db : CaseDb) :
    ∃ calls, (addAll server.dao pid items n).run ⟨rsp, k, db⟩ =
      ((insertions server pid k items).2.elim (.ok (n + items.length)) .error,
        ⟨rsp, calls, { db with
          testCases := db.testCases ++ (insertions server pid k items).1 }⟩) := by
  induction items generalizing n k db with
  | nil => exact ⟨k, by simp [addAll, insertions, Program.run_pure]⟩
  | cons item items ih =>
    have hcall := run_call_add server k (item.testCase pid) rsp db
    rw [addAll]
    cases hinsert : server.insertAt k (item.testCase pid) with
    | error e =>
      rw [hinsert] at hcall
      refine ⟨k + 1, ?_⟩
      rw [Program.run_bind_error hcall, insertions_cons_error hinsert, List.append_nil]
      rfl
    | ok row =>
      rw [hinsert] at hcall
      obtain ⟨calls, hrest⟩ := ih (n + 1) (k + 1) { db with testCases := db.testCases ++ [row] }
      refine ⟨calls, ?_⟩
      rw [Program.run_bind_ok hcall, hrest, insertions_cons_ok hinsert, List.length_cons,
        Nat.add_right_comm, ← Nat.add_assoc]
      simp

end

/-! ## 3. The replacement

A delete and the loop, and nothing between them that could be undone. -/

/-- The table without the rows that the delete takes away. -/
def remaining (pid : Int64) (rows : List TestCaseRow) : List TestCaseRow :=
  (TestCaseDao.deleteByProblem rows pid true).1

section

variable (env : Env) {server : CaseServer} (pid : Int64) (filename : Bytes)
  (parsed : List ZipParsedCase) (rsp : HttpResponse) (db : CaseDb)

/-- The answer to an upload can be printed exactly if the name of the file can. -/
theorem uploadedDoc_utf8 (deleted : Int32) (filename : Bytes) (inserted : Nat) :
    (uploadedDoc deleted filename inserted).utf8 = Utf8.wellFormed filename := by
  have hnames : ∀ name ∈ [ascii "deleted_non_sample", ascii "filename", ascii "inserted",
      ascii "ok"], Utf8.wellFormed name = true := by decide
  simp only [List.forall_mem_cons] at hnames
  simp [uploadedDoc, Json.utf8, Json.utf8Members, hnames]

theorem replaceCases_of_delete_fails {e : Raised} (h : server.fails 1 = some e) :
    let w := ((guardAdmin env (replaceCases env server.dao pid filename parsed)).run
      ⟨rsp, 1, db⟩).2
    w.response.statu = 500 ∧ w.db = db := by
  have hcall : (server.dao.call (.testCaseDeleteByProblem pid true)).run ⟨rsp, 1, db⟩ =
      (.error e, ⟨rsp, 2, db⟩) := by
    rw [run_call]
    simp only [CaseServer.dao, h, ExceptT.run]
  exact guardAdmin_of_error env (Program.run_bind_error hcall _)

/-- **What the replacement leaves**, once the delete has gone through: the rows that remain, and
those that were inserted before something failed.  The status is 200 if nothing did, and the
name of the file can be printed. -/
theorem replaceCases_of_deleted (hdump : env.codec.DumpsUtf8) (h : server.fails 1 = none) :
    let w := ((guardAdmin env (replaceCases env server.dao pid filename parsed)).run
      ⟨rsp, 1, db⟩).2
    w.db.testCases = remaining pid db.testCases ++ (insertions server pid 2 parsed).1 ∧
      w.response.statu =
        if (insertions server pid 2 parsed).2 = none ∧ Utf8.wellFormed filename = true then 200
        else 500 := by
  intro w
  let db₁ : CaseDb := { db with testCases := remaining pid db.testCases }
  have hcall : (server.dao.call (.testCaseDeleteByProblem pid true)).run ⟨rsp, 1, db⟩ =
      (.ok (TestCaseDao.deleteByProblem db.testCases pid true).2, ⟨rsp, 2, db₁⟩) := by
    rw [run_call]
    simp only [CaseServer.dao, h, ExceptT.run]
    rfl
  obtain ⟨calls, hadd⟩ := run_addAll server pid parsed 0 2 rsp db₁
  let w₁ : World CaseDb := ⟨rsp, calls,
    { db₁ with testCases := db₁.testCases ++ (insertions server pid 2 parsed).1 }⟩
  cases hstop : (insertions server pid 2 parsed).2 with
  | some e =>
    rw [hstop] at hadd
    have hbody : (replaceCases env server.dao pid filename parsed).run ⟨rsp, 1, db⟩ =
        (.error e, w₁) := by
      rw [replaceCases, Program.run_bind_ok hcall, Program.run_bind_error hadd]
    obtain ⟨hstatu, hdb⟩ := guardAdmin_of_error env hbody
    refine ⟨by rw [hdb], ?_⟩
    rw [hstatu, if_neg (by simp)]
  | none =>
    rw [hstop] at hadd
    have hbody : (replaceCases env server.dao pid filename parsed).run ⟨rsp, 1, db⟩ =
        (sendJson env 200 (uploadedDoc (TestCaseDao.deleteByProblem db.testCases pid true).2
          filename (0 + parsed.length))).run w₁ := by
      rw [replaceCases, Program.run_bind_ok hcall, Program.run_bind_ok hadd]
    by_cases hname : Utf8.wellFormed filename = true
    · obtain ⟨text, htext⟩ := hdump.exists_dump ((uploadedDoc_utf8 _ _ _).trans hname)
      rw [run_sendJson env htext] at hbody
      have hw : w = w₁.answered 200 text := congrArg Prod.snd (Program.run_tryCatch_ok hbody _)
      rw [hw, if_pos ⟨rfl, hname⟩]
      exact ⟨rfl, rfl⟩
    · have hnone := (hdump (uploadedDoc (TestCaseDao.deleteByProblem db.testCases pid true).2
        filename (0 + parsed.length))).trans (uploadedDoc_utf8 _ _ _)
      rw [Bool.eq_false_iff.mpr hname, Option.isSome_eq_false_iff,
        Option.isNone_iff_eq_none] at hnone
      rw [run_sendJson_of_none env hnone] at hbody
      obtain ⟨hstatu, hdb⟩ := guardAdmin_of_error env hbody
      refine ⟨by rw [hdb]; rfl, ?_⟩
      rw [hstatu, if_neg fun hboth => hname hboth.2]

end

/-! ## 4. The way to the replacement

Everything that can be refused before the delete is refused there: the problem that is not there,
the body without a file, the archive that cannot be unpacked or has no pair. -/

/-- The pairs in an archive, if it can be unpacked and has any. -/
def zipCases (zip : Zip) (zipBytes : Bytes) : Option (List ZipParsedCase) := do
  if zipBytes = [] then none
  else
    let code ← (zip.unzip zipBytes).toOption
    if code ≠ 0 then none
    else
      let entries ← (zip.files zipBytes).toOption
      let parsed ← (parseTestcasesFromDir entries).toOption
      if parsed.isEmpty then none else some parsed

/-- What a request gets to replace: the problem, the name of the file and the pairs in it; nothing
if it is answered before. -/
def uploadPlan (env : Env) (server : CaseServer) (zip : Zip) (req : HttpRequest)
    (captures : List Bytes) (db : CaseDb) : Option (Int64 × Bytes × List ZipParsedCase) := do
  let info ← authenticateRequest env.codec env.openSsl env.jwtSecret req env.now
  if info.role ≠ ascii "admin" then none
  else
    let pid ← capturedId captures
    let _ ← (server.problemAt 0 db pid).toOption.join
    let parsed ← zipCases zip (uploadedFile req).1
    some (pid, (uploadedFile req).2, parsed)

section

variable {env : Env} {server : CaseServer} {zip : Zip} {req : HttpRequest} {captures : List Bytes}
  {rsp : HttpResponse} {db : CaseDb}

/-- **The archive.**  It is unpacked and its pairs replace the test cases, or an error is
answered. -/
theorem run_replaceFromZip (env : Env) (server : CaseServer) (zip : Zip) (pid : Int64)
    (zipBytes filename : Bytes) (w : World CaseDb) :
    (∃ parsed, zipCases zip zipBytes = some parsed ∧
      (replaceFromZip env server.dao zip pid zipBytes filename).run w =
        (replaceCases env server.dao pid filename parsed).run w) ∨
    (zipCases zip zipBytes = none ∧
      EndsInError env (replaceFromZip env server.dao zip pid zipBytes filename) w w.db) := by
  unfold replaceFromZip
  by_cases hempty : zipBytes = []
  · refine Or.inr ⟨by rw [zipCases, if_pos hempty], ?_⟩
    rw [if_pos hempty]
    exact endsInError_of_sendJson env 400 _ w rfl (by decide)
  rw [if_neg hempty]
  cases hunzip : zip.unzip zipBytes with
  | error e =>
    refine Or.inr ⟨by simp [zipCases, hempty, hunzip, Except.toOption], ?_⟩
    rw [Program.ofExcept_error_bind]
    exact endsInError_of_error env e w (Program.run_ofExcept _ w)
  | ok code =>
    rw [Program.ofExcept_ok_bind]
    by_cases hcode : code = 0
    · rw [if_neg (not_not.mpr hcode)]
      cases hfiles : zip.files zipBytes with
      | error e =>
        refine Or.inr ⟨by simp [zipCases, hempty, hunzip, hcode, hfiles, Except.toOption], ?_⟩
        rw [Program.ofExcept_error_bind]
        exact endsInError_of_error env e w (Program.run_ofExcept _ w)
      | ok entries =>
        rw [Program.ofExcept_ok_bind]
        cases hparse : parseTestcasesFromDir entries with
        | error e =>
          refine Or.inr ⟨by
            simp [zipCases, hempty, hunzip, hcode, hfiles, hparse, Except.toOption], ?_⟩
          rw [Program.ofExcept_error_bind]
          exact endsInError_of_error env e w (Program.run_ofExcept _ w)
        | ok parsed =>
          rw [Program.ofExcept_ok_bind]
          by_cases hnil : parsed = []
          · refine Or.inr ⟨by
              simp [zipCases, hempty, hunzip, hcode, hfiles, hparse, hnil, Except.toOption], ?_⟩
            rw [if_pos (List.isEmpty_iff.mpr hnil)]
            exact endsInError_of_sendJson env 400 _ w rfl (by decide)
          · refine Or.inl ⟨parsed, by
              simp [zipCases, hempty, hunzip, hcode, hfiles, hparse, hnil, Except.toOption], ?_⟩
            rw [if_neg (List.isEmpty_iff.not.mpr hnil)]
    · refine Or.inr ⟨by simp [zipCases, hempty, hunzip, hcode, Except.toOption], ?_⟩
      rw [if_pos hcode]
      exact endsInError_of_sendJson env 400 _ w rfl (by decide)

theorem run_call_problemGetById (server : CaseServer) (rsp : HttpResponse) (db : CaseDb)
    (id : Int64) :
    ((server.dao.call (.problemGetById id)).run ⟨rsp, 0, db⟩ :
      Except Raised (Option Problem) × World CaseDb) =
      (server.problemAt 0 db id, ⟨rsp, 1, db⟩) := by
  rw [run_call]
  simp only [CaseServer.dao, CaseServer.problemAt, ExceptT.run]
  cases server.fails 0 <;> rfl

/-- **The way to the replacement.**  A request comes to it with what it has to replace, or it is
answered with an error before any test case is touched. -/
theorem run_postUpload (env : Env) (hdump : env.codec.DumpsUtf8) (server : CaseServer) (zip : Zip)
    (req : HttpRequest) (captures : List Bytes) (rsp : HttpResponse) (db : CaseDb) :
    (∃ pid filename parsed,
      uploadPlan env server zip req captures db = some (pid, filename, parsed) ∧
      (postUpload env server.dao zip req captures).run ⟨rsp, 0, db⟩ =
        (guardAdmin env (replaceCases env server.dao pid filename parsed)).run ⟨rsp, 1, db⟩) ∨
    (uploadPlan env server zip req captures db = none ∧
      400 ≤ ((postUpload env server.dao zip req captures).run ⟨rsp, 0, db⟩).2.response.statu ∧
      ((postUpload env server.dao zip req captures).run ⟨rsp, 0, db⟩).2.db = db) := by
  unfold postUpload
  by_cases hadmin : BearsAdmin env req
  · obtain ⟨token, info, hheader, hverify, hrole⟩ := hadmin
    have hinfo := authenticateRequest_eq_some_iff.mpr ⟨token, hheader, hverify⟩
    cases hpid : capturedId captures with
    | none =>
      refine Or.inr ⟨by simp [uploadPlan, hinfo, hpid], ?_⟩
      refine endsInError_of_sendJson env 400 (errorDoc "invalid problem id") ⟨rsp, 0, db⟩ ?_
        (by decide)
      rw [requireAdmin_bind hinfo hrole]
      exact run_positiveId_none env hpid _ rfl _
    | some pid =>
      have hcall := run_call_problemGetById server rsp db pid
      cases hproblem : server.problemAt 0 db pid with
      | error e =>
        rw [hproblem] at hcall
        refine Or.inr ⟨by simp [uploadPlan, hinfo, hpid, hproblem, Except.toOption], ?_⟩
        refine endsInError_of_error env e ⟨rsp, 1, db⟩ ?_
        rw [requireAdmin_bind hinfo hrole, positiveId_bind env hpid]
        exact Program.run_bind_error hcall _
      | ok found =>
        rw [hproblem] at hcall
        cases found with
        | none =>
          refine Or.inr ⟨by simp [uploadPlan, hinfo, hpid, hproblem, Except.toOption], ?_⟩
          refine endsInError_of_sendJson env 404 (errorDoc "problem not found") ⟨rsp, 1, db⟩ ?_
            (by decide)
          rw [requireAdmin_bind hinfo hrole, positiveId_bind env hpid]
          exact Program.run_bind_ok hcall _
        | some p =>
          rcases run_replaceFromZip env server zip pid (uploadedFile req).1 (uploadedFile req).2
            ⟨rsp, 1, db⟩ with ⟨parsed, hparsed, hrun⟩ | ⟨hnone, hends⟩
          · refine Or.inl ⟨pid, (uploadedFile req).2, parsed, by
              simp [uploadPlan, hinfo, hrole, hpid, hproblem, hparsed, Except.toOption], ?_⟩
            refine Program.run_tryCatch_congr ?_ _
            rw [requireAdmin_bind hinfo hrole, positiveId_bind env hpid]
            exact (Program.run_bind_ok hcall _).trans hrun
          · refine Or.inr ⟨by simp [uploadPlan, hinfo, hpid, hnone], ?_⟩
            refine (endsInError_congr env ?_).mpr hends
            rw [requireAdmin_bind hinfo hrole, positiveId_bind env hpid]
            exact Program.run_bind_ok hcall _
  · obtain ⟨status, text, hstatus, hrun⟩ := run_requireAdmin_of_not hdump hadmin
    have hplan : uploadPlan env server zip req captures db = none := by
      cases hinfo : authenticateRequest env.codec env.openSsl env.jwtSecret req env.now with
      | none => simp [uploadPlan, hinfo]
      | some info =>
        obtain ⟨token, hheader, hverify⟩ := authenticateRequest_eq_some_iff.mp hinfo
        have hrole : info.role ≠ ascii "admin" :=
          fun hrole => hadmin ⟨token, info, hheader, hverify, hrole⟩
        simp [uploadPlan, hinfo, hrole]
    refine Or.inr ⟨hplan, ?_⟩
    rw [refused rfl (hrun _)]
    refine ⟨?_, rfl⟩
    show 400 ≤ status
    omega

end

/-! ## 5. When an upload is all or nothing

The property is about the table before and after, and the answer.  The condition is about the
failures that the database has in store and about the rows, and not about what comes of them. -/

/-- A row that an upload for this problem has to keep: that of another problem, or a sample. -/
def kept (pid : Int64) (row : TestCaseRow) : Bool := row.problemId != pid || row.record.isSample

/-- The test cases of the problem are its samples and one case for each pair, and those of other
problems are what they were. -/
def Replaced (pid : Int64) (parsed : List ZipParsedCase) (before after : List TestCaseRow) : Prop :=
  ∃ new, after = before.filter (kept pid) ++ new ∧ List.Forall₂ (CaseOf pid) new parsed

/-- **All or nothing.**  An error was answered and no test case has changed, or 200 was answered and
the test cases are replaced: none of those that had to go is left, and each pair has its case. -/
def AllOrNothing (plan : Option (Int64 × Bytes × List ZipParsedCase))
    (before after : List TestCaseRow) (statu : Int) : Prop :=
  (400 ≤ statu ∧ after = before) ∨
    ∃ pid filename parsed, plan = some (pid, filename, parsed) ∧ statu = 200 ∧
      Replaced pid parsed before after

/-- The uploads that are: the delete fails; or every insert goes through, the name of the file can
be printed, and no row of the problem has a `NULL` for whether it is a sample; or the first insert
fails, and there was nothing to delete. -/
def UploadSafe (server : CaseServer) (db : CaseDb) (pid : Int64) (filename : Bytes)
    (parsed : List ZipParsedCase) : Prop :=
  server.fails 1 ≠ none ∨
  ((∀ i item, parsed[i]? = some item → Inserts server (2 + i) item) ∧
    Utf8.wellFormed filename = true ∧
    ∀ row ∈ db.testCases, row.problemId = pid → row.isSample ≠ none) ∨
  ((∀ item, parsed.head? = some item → ¬ Inserts server 2 item) ∧
    ∀ row ∈ db.testCases, row.problemId = pid → row.isSample ≠ some 0)

theorem remaining_eq_self {pid : Int64} {rows : List TestCaseRow} :
    remaining pid rows = rows ↔ ∀ row ∈ rows, row.problemId = pid → row.isSample ≠ some 0 := by
  rw [remaining, TestCaseDao.deleteByProblem, List.filter_eq_self]
  simp [TestCaseDao.deletes, imp_iff_not_or]

/-- The delete keeps the rows it has to keep, and those with a `NULL`. -/
theorem remaining_eq_kept {pid : Int64} {rows : List TestCaseRow} :
    remaining pid rows = rows.filter (kept pid) ↔
      ∀ row ∈ rows, row.problemId = pid → row.isSample ≠ none := by
  constructor
  · intro heq row hrow hpid hnull
    have hmem : row ∈ remaining pid rows :=
      List.mem_filter.mpr ⟨hrow, by simp [TestCaseDao.deletes, hnull]⟩
    rw [heq] at hmem
    have hkept := (List.mem_filter.mp hmem).2
    simp [kept, hpid, TestCaseRow.record, hnull] at hkept
  · intro hnull
    refine List.filter_congr fun row hrow => ?_
    by_cases hpid : row.problemId = pid
    · cases hsample : row.isSample with
      | none => exact absurd hsample (hnull row hrow hpid)
      | some v => simp [TestCaseDao.deletes, kept, bne, TestCaseRow.record, hsample, hpid]
    · have hother : (row.problemId == pid) = false := beq_false_of_ne hpid
      simp [TestCaseDao.deletes, kept, bne, hother]

theorem ne_nil_of_zipCases {zip : Zip} {zipBytes : Bytes} {parsed : List ZipParsedCase}
    (h : zipCases zip zipBytes = some parsed) : parsed ≠ [] := by
  unfold zipCases at h
  split at h
  · cases h
  · obtain ⟨code, -, h⟩ := Option.bind_eq_some_iff.mp h
    split at h
    · cases h
    · obtain ⟨entries, -, h⟩ := Option.bind_eq_some_iff.mp h
      obtain ⟨cases, -, h⟩ := Option.bind_eq_some_iff.mp h
      split at h
      · cases h
      · rename_i hne
        obtain rfl := Option.some.inj h
        exact List.isEmpty_iff.not.mp hne

theorem ne_nil_of_uploadPlan {env : Env} {server : CaseServer} {zip : Zip} {req : HttpRequest}
    {captures : List Bytes} {db : CaseDb} {pid : Int64} {filename : Bytes}
    {parsed : List ZipParsedCase}
    (h : uploadPlan env server zip req captures db = some (pid, filename, parsed)) :
    parsed ≠ [] := by
  obtain ⟨info, -, h⟩ := Option.bind_eq_some_iff.mp h
  split at h
  · cases h
  · obtain ⟨id, -, h⟩ := Option.bind_eq_some_iff.mp h
    obtain ⟨problem, -, h⟩ := Option.bind_eq_some_iff.mp h
    obtain ⟨cases, hcases, h⟩ := Option.bind_eq_some_iff.mp h
    obtain ⟨-, -, rfl⟩ : id = pid ∧ (uploadedFile req).2 = filename ∧ cases = parsed := by
      simpa only [Option.some.injEq, Prod.mk.injEq] using h
    exact ne_nil_of_zipCases hcases

/-- Rows with new ids show in the table. -/
theorem remaining_append_eq_self (pid : Int64) {before rows : List TestCaseRow}
    (hnew : ∀ row ∈ rows, row ∉ before) :
    remaining pid before ++ rows = before ↔
      rows = [] ∧ ∀ row ∈ before, row.problemId = pid → row.isSample ≠ some 0 := by
  constructor
  · intro heq
    have hnil : rows = [] := by
      rw [List.eq_nil_iff_forall_not_mem]
      intro row hrow
      have hmem : row ∈ remaining pid before ++ rows := List.mem_append_right _ hrow
      exact hnew row hrow (heq ▸ hmem)
    rw [hnil, List.append_nil] at heq
    exact ⟨hnil, remaining_eq_self.mp heq⟩
  · rintro ⟨rfl, hall⟩
    rw [List.append_nil, remaining_eq_self.mpr hall]

/-- What remains and one case for each pair is what it has to be, unless a `NULL` is kept. -/
theorem replaced_remaining_iff {pid : Int64} {parsed : List ZipParsedCase}
    (before : List TestCaseRow) {rows : List TestCaseRow}
    (hrows : List.Forall₂ (CaseOf pid) rows parsed) :
    Replaced pid parsed before (remaining pid before ++ rows) ↔
      ∀ row ∈ before, row.problemId = pid → row.isSample ≠ none := by
  rw [← remaining_eq_kept]
  constructor
  · rintro ⟨new, heq, hnew⟩
    have hlength : rows.length = new.length := hrows.length_eq.trans hnew.length_eq.symm
    exact (List.append_inj' heq hlength).1
  · intro heq
    exact ⟨rows, by rw [heq], hrows⟩

/-- **After a delete.**  The replacement is all or nothing exactly if it is complete and answered
with 200, and no `NULL` was kept, or nothing was deleted and nothing inserted. -/
theorem allOrNothing_of_deleted {server : CaseServer} {pid : Int64} {filename : Bytes}
    {parsed : List ZipParsedCase} {db : CaseDb} (hne : parsed ≠ [])
    (hfresh : ∀ k, ∀ row ∈ db.testCases, row.id ≠ (server.stamp k).id)
    (hdelete : server.fails 1 = none) :
    AllOrNothing (some (pid, filename, parsed)) db.testCases
        (remaining pid db.testCases ++ (insertions server pid 2 parsed).1)
        (if (insertions server pid 2 parsed).2 = none ∧ Utf8.wellFormed filename = true then 200
          else 500) ↔
      UploadSafe server db pid filename parsed := by
  obtain ⟨item, items, rfl⟩ := List.exists_cons_of_ne_nil hne
  have hinserts : ((insertions server pid 2 (item :: items)).2 = none ↔ _) :=
    insertions_snd_eq_none
  by_cases hdone : (insertions server pid 2 (item :: items)).2 = none ∧
      Utf8.wellFormed filename = true
  · have hall := hinserts.mp hdone.1
    have hfirst : Inserts server 2 item := hall 0 item rfl
    have hreplaced := replaced_remaining_iff db.testCases (forall₂_insertions hdone.1)
    rw [if_pos hdone, AllOrNothing, UploadSafe]
    simp only [Option.some.injEq, Prod.mk.injEq]
    constructor
    · rintro (⟨hle, -⟩ | ⟨_, _, _, ⟨rfl, rfl, rfl⟩, -, hrep⟩)
      · omega
      · exact Or.inr (Or.inl ⟨hall, hdone.2, hreplaced.mp hrep⟩)
    · rintro (hfails | ⟨-, -, hnull⟩ | ⟨hnone, -⟩)
      · exact absurd hdelete hfails
      · exact Or.inr ⟨_, _, _, ⟨rfl, rfl, rfl⟩, trivial, hreplaced.mpr hnull⟩
      · exact absurd hfirst (hnone item rfl)
  · have hnew : ∀ row ∈ (insertions server pid 2 (item :: items)).1, row ∉ db.testCases := by
      intro row hrow hmem
      obtain ⟨j, hid⟩ := id_of_mem_insertions hrow
      exact hfresh j row hmem hid
    have hsame := remaining_append_eq_self pid hnew
    have hnil : ((insertions server pid 2 (item :: items)).1 = [] ↔ _) := insertions_fst_eq_nil
    rw [if_neg hdone, AllOrNothing, UploadSafe, hsame, hnil]
    constructor
    · rintro (⟨-, hfirst, hzero⟩ | ⟨_, _, _, -, h200, -⟩)
      · refine Or.inr (Or.inr ⟨fun item' hitem' => ?_, hzero⟩)
        obtain rfl := Option.some.inj hitem'
        exact hfirst
      · omega
    · rintro (hfails | ⟨hall, hname, -⟩ | ⟨hnone, hzero⟩)
      · exact absurd hdelete hfails
      · exact absurd ⟨hinserts.mpr hall, hname⟩ hdone
      · exact Or.inl ⟨by omega, hnone item rfl, hzero⟩

/-- **When an upload is all or nothing.**  Whatever the test cases were and whatever fails: exactly
if the request is answered before the replacement, or the replacement is a safe one. -/
theorem upload_allOrNothing_iff (env : Env) (hdump : env.codec.DumpsUtf8) (server : CaseServer)
    (zip : Zip) (req : HttpRequest) (captures : List Bytes) (rsp : HttpResponse) (db : CaseDb)
    (hfresh : ∀ k, ∀ row ∈ db.testCases, row.id ≠ (server.stamp k).id) :
    let w := ((postUpload env server.dao zip req captures).run ⟨rsp, 0, db⟩).2
    AllOrNothing (uploadPlan env server zip req captures db) db.testCases w.db.testCases
        w.response.statu ↔
      ∀ pid filename parsed,
        uploadPlan env server zip req captures db = some (pid, filename, parsed) →
          UploadSafe server db pid filename parsed := by
  intro w
  rcases run_postUpload env hdump server zip req captures rsp db with
    ⟨pid, filename, parsed, hplan, hrun⟩ | ⟨hplan, hstatu, hdb⟩
  · have hsafe : (∀ p f c, uploadPlan env server zip req captures db = some (p, f, c) →
        UploadSafe server db p f c) ↔ UploadSafe server db pid filename parsed := by
      rw [hplan]
      constructor
      · intro h
        exact h pid filename parsed rfl
      · intro h p f c heq
        obtain ⟨rfl, rfl, rfl⟩ : pid = p ∧ filename = f ∧ parsed = c := by
          simpa only [Option.some.injEq, Prod.mk.injEq] using heq
        exact h
    have hw : w = ((guardAdmin env (replaceCases env server.dao pid filename parsed)).run
        ⟨rsp, 1, db⟩).2 := congrArg Prod.snd hrun
    rw [hsafe]
    cases hdelete : server.fails 1 with
    | some e =>
      obtain ⟨hstatu, hdb⟩ :=
        replaceCases_of_delete_fails env pid filename parsed rsp db hdelete
      rw [← hw] at hstatu hdb
      refine iff_of_true (Or.inl ⟨by omega, by rw [hdb]⟩) (Or.inl ?_)
      rw [hdelete]
      exact Option.some_ne_none e
    | none =>
      obtain ⟨htable, hstatu⟩ :=
        replaceCases_of_deleted env pid filename parsed rsp db hdump hdelete
      rw [← hw] at htable hstatu
      rw [htable, hstatu, hplan]
      exact allOrNothing_of_deleted (ne_nil_of_uploadPlan hplan) hfresh hdelete
  · have hunchanged : w.db.testCases = db.testCases := congrArg CaseDb.testCases hdb
    refine iff_of_true (Or.inl ⟨hstatu, hunchanged⟩) fun pid filename parsed h => ?_
    rw [hplan] at h
    cases h

/-- The text `1`. -/
def sampleText : Text := ⟨ascii "1", by decide, by decide⟩

/-- A test case of problem 1. -/
def sampleCase (id : Int64) (isSample : Int8) : TestCaseRow where
  id := id
  problemId := 1
  isSample := some isSample
  input := sampleText
  output := sampleText
  sortOrder := some 0
  createdAt := none

/-- Problem 1 with a sample and two other test cases. -/
def sampleCaseDb : CaseDb where
  problems := [titledProblem 1 ⟨ascii "sum", by decide, by decide⟩]
  testCases := [sampleCase 1 1, sampleCase 2 0, sampleCase 3 0]

theorem length_sampleTime : (ascii "2024-01-01 00:00:00").length = 19 := by decide

/-- A database that fails in these operations. -/
def sampleServer (failing : List Nat) : CaseServer where
  fails k :=
    if failing.contains k then
      some (.runtime (ascii "execute: Lost connection to MySQL server during query"))
    else none
  stamp k := ⟨.ofNat (4 + k % 100), ascii "2024-01-01 00:00:00", length_sampleTime⟩
  message _ := ascii "Data too long for column"
  others := ⟨fun _ _ db => (.error (.runtime (ascii "prepare: ")), db)⟩

/-- An archive with two pairs. -/
def sampleZip : Zip where
  unzip _ := .ok 0
  files _ := .ok [⟨ascii "/tmp/oj_zip_a/extract/1.in", some (ascii "2")⟩,
    ⟨ascii "/tmp/oj_zip_a/extract/1.out", some (ascii "4")⟩,
    ⟨ascii "/tmp/oj_zip_a/extract/2.in", some (ascii "3")⟩,
    ⟨ascii "/tmp/oj_zip_a/extract/2.out", some (ascii "9")⟩]

/-- The path `/api/admin/problems/1/testcases/upload` with what its pattern captures. -/
def sampleCaptures : List Bytes :=
  [ascii "/api/admin/problems/1/testcases/upload", ascii "1"]

theorem sampleServer_fresh (failing : List Nat) :
    ∀ k, ∀ row ∈ sampleCaseDb.testCases, row.id ≠ ((sampleServer failing).stamp k).id := by
  have hall : ∀ m < 100, ∀ row ∈ sampleCaseDb.testCases, row.id ≠ .ofNat (4 + m) := by decide
  intro k
  exact hall (k % 100) (Nat.mod_lt k (by decide))

/-- An upload of which every operation goes through. -/
theorem upload_allOrNothing_complete :
    let w := ((postUpload sampleEnv (sampleServer []).dao sampleZip (sampleRequest (ascii "PK"))
      sampleCaptures).run ⟨.ofStatu 200, 0, sampleCaseDb⟩).2
    AllOrNothing (uploadPlan sampleEnv (sampleServer []) sampleZip (sampleRequest (ascii "PK"))
      sampleCaptures sampleCaseDb) sampleCaseDb.testCases w.db.testCases w.response.statu := by
  refine (upload_allOrNothing_iff sampleEnv (Json.printing_dumpsUtf8 _ _) (sampleServer [])
    sampleZip (sampleRequest (ascii "PK")) sampleCaptures (.ofStatu 200) sampleCaseDb
    (sampleServer_fresh [])).mpr fun pid filename parsed h => ?_
  have hplan : uploadPlan sampleEnv (sampleServer []) sampleZip (sampleRequest (ascii "PK"))
      sampleCaptures sampleCaseDb =
        some (1, [], [⟨1, ascii "2", ascii "4"⟩, ⟨2, ascii "3", ascii "9"⟩]) := by decide +kernel
  rw [hplan, Option.some.injEq, Prod.mk.injEq, Prod.mk.injEq] at h
  obtain ⟨rfl, rfl, rfl⟩ := h
  refine Or.inr (Or.inl ⟨fun i item hitem => ?_, by decide, by decide⟩)
  match i with
  | 0 =>
    obtain rfl := Option.some.inj hitem
    decide
  | 1 =>
    obtain rfl := Option.some.inj hitem
    decide
  | i + 2 => cases hitem

/-- **Half an upload.**  The second insert fails: the answer is 500, the hidden test cases of the
problem are gone, and one of the two new ones is there. -/
theorem half_uploaded :
    let w := ((postUpload sampleEnv (sampleServer [3]).dao sampleZip (sampleRequest (ascii "PK"))
      sampleCaptures).run ⟨.ofStatu 200, 0, sampleCaseDb⟩).2
    w.response.statu = 500 ∧
      w.db.testCases.map (fun row => (row.id, row.isSample)) = [(1, some 1), (6, some 0)] ∧
      ¬ AllOrNothing (uploadPlan sampleEnv (sampleServer [3]) sampleZip (sampleRequest (ascii "PK"))
        sampleCaptures sampleCaseDb) sampleCaseDb.testCases w.db.testCases w.response.statu := by
  intro w
  have hw : w.response.statu = 500 ∧
      w.db.testCases.map (fun row => (row.id, row.isSample)) = [(1, some 1), (6, some 0)] := by
    decide +kernel
  refine ⟨hw.1, hw.2, ?_⟩
  rintro (⟨-, hsame⟩ | ⟨_, _, _, -, h200, -⟩)
  · have hids := hw.2
    rw [hsame] at hids
    exact absurd hids (by decide)
  · rw [hw.1] at h200
    cases h200

end OnlineJudge.Handler
