/-
# Reading the list of problems page by page

The page of the front end with the problems (`web/js/components/problem-list.js`) asks for twelve
problems at a time, shows what it gets, and offers the next page as long as the last one was full.
Each page is a request to `GET /api/problems` of its own, with the offset as text, and between two
requests anybody may create, change or delete problems.

`problem_pages`: while no problem leaves the list, a reader who has gone on to the end has been
shown every problem that was in the list at the beginning; while none enters it, nobody is shown the
same problem twice.  Both fail without the condition, as the pages are cut by position.

The table of each moment is any table at all; what is asked of it is only how its list stands to
that of the moment before.  So nothing has to be said of who changes it, and how.
-/
import OnlineJudge.Handler.PublicHandler
import OnlineJudge.Lib.JsonReader
import OnlineJudge.Lib.Paging
import OnlineJudge.Lib.Wp

namespace OnlineJudge.Handler

open ByteString Db Net Paging

/-! ## 1. What `List` selects

The list is the ids of the problems that pass the filter, the greatest first, and a page of it is
cut by position.  A new problem has a greater id, and pushes all others back by one. -/

/-- The problem is in the list with this filter. -/
def listed (same : Bytes → Bytes → Bool) (filter : Bytes) (row : ProblemRow) : Bool :=
  filter.isEmpty || row.status.any fun status => same status.text filter

/-- The list, by the ids of its problems. -/
def listedIds (same : Bytes → Bytes → Bool) (filter : Bytes) (problems : List ProblemRow) :
    List Int :=
  ((problems.filter (listed same filter)).map fun row => row.id.toInt).insertionSort
    fun a b => b ≤ a

/-- `List` selects a page of the list. -/
theorem ids_select (same : Bytes → Bytes → Bool) (problems : List ProblemRow) (limit i : Nat)
    (filter : Bytes) :
    (ProblemDao.select same problems limit (i * limit) filter).map (fun row => row.id.toInt) =
      page limit i (listedIds same filter problems) := by
  have hrows : (if filter ≠ [] then
        problems.filter fun row => row.status.any fun status => same status.text filter
      else problems) = problems.filter (listed same filter) := by
    cases filter with
    | nil => exact (List.filter_eq_self.mpr fun _ _ => rfl).symm
    | cons b filter => rfl
  rw [ProblemDao.select, hrows, listedIds, page, List.map_take, List.map_drop]
  congr 2
  exact List.map_insertionSort (fun a b : ProblemRow => b.id ≤ a.id) (fun a b : Int => b ≤ a) _ _
    fun a _ b _ => Int64.le_iff_toInt_le

theorem mem_listedIds {same : Bytes → Bytes → Bool} {filter : Bytes} {problems : List ProblemRow}
    {n : Int} : n ∈ listedIds same filter problems ↔
      ∃ row ∈ problems, listed same filter row = true ∧ row.id.toInt = n := by
  simp only [listedIds, List.mem_insertionSort, List.mem_map, List.mem_filter, and_assoc]

theorem pairwise_listedIds (same : Bytes → Bytes → Bool) (filter : Bytes)
    (problems : List ProblemRow) :
    (listedIds same filter problems).Pairwise fun a b => b ≤ a :=
  List.pairwise_insertionSort _ _

/-- The id is the primary key.  So the row of an id can be followed from one page to the next. -/
def Keyed (problems : List ProblemRow) : Prop := (problems.map ProblemRow.id).Nodup

theorem Keyed.nodup_listedIds {problems : List ProblemRow} (h : Keyed problems)
    (same : Bytes → Bytes → Bool) (filter : Bytes) : (listedIds same filter problems).Nodup := by
  have hids : (problems.map fun row => row.id.toInt).Nodup := by
    have hmap : (problems.map fun row => row.id.toInt) =
        (problems.map ProblemRow.id).map Int64.toInt := by
      rw [List.map_map]
      rfl
    rw [hmap]
    exact h.map fun a b => Int64.toInt_inj.mp
  rw [listedIds, (List.perm_insertionSort _ _).nodup_iff]
  exact hids.sublist (List.filter_sublist.map _)

/-- Whatever is listed in the one is listed in the other, by its id.  Its other columns may have
changed. -/
def Within (same : Bytes → Bytes → Bool) (filter : Bytes) (problems problems' : List ProblemRow) :
    Prop :=
  ∀ row ∈ problems, listed same filter row = true →
    ∃ row' ∈ problems', row'.id = row.id ∧ listed same filter row' = true

theorem Within.sublist {same : Bytes → Bytes → Bool} {filter : Bytes}
    {problems problems' : List ProblemRow} (h : Within same filter problems problems')
    (hkeyed : Keyed problems) :
    (listedIds same filter problems).Sublist (listedIds same filter problems') := by
  refine List.sublist_of_subperm_of_pairwise (List.subperm_of_subset
    (hkeyed.nodup_listedIds same filter) fun n hn => ?_) (pairwise_listedIds _ _ _)
    (pairwise_listedIds _ _ _)
  obtain ⟨row, hrow, hlisted, rfl⟩ := mem_listedIds.mp hn
  obtain ⟨row', hrow', hid, hlisted'⟩ := h row hrow hlisted
  exact mem_listedIds.mpr ⟨row', hrow', hlisted', congrArg Int64.toInt hid⟩

/-- A list of problems that can be read has the ids of its rows, also where another column is
stale. -/
theorem ids_fetchAll {keep : Int64 → ProblemRow → Int64} {vars : Int64} {rows : List ProblemRow}
    {items : List Problem}
    (h : fetchAll ProblemDao.fetchSummary keep vars rows = .ok items) :
    items.map Problem.id = rows.map ProblemRow.id := by
  induction rows generalizing vars items with
  | nil =>
    obtain rfl := Except.ok.inj h
    rfl
  | cons row rows ih =>
    rw [fetchAll] at h
    simp only [Except.bind_eq_ok] at h
    obtain ⟨p, hp, rest, hrest, hitems⟩ := h
    obtain rfl := Except.ok.inj hitems
    simp only [ProblemDao.fetchSummary, Except.bind_eq_ok] at hp
    obtain ⟨_, -, _, -, _, -, _, -, _, -, hp⟩ := hp
    obtain rfl := Except.ok.inj hp
    rw [List.map_cons, List.map_cons, ih hrest]

/-! ## 2. What a reader is shown

The way from the answer back to the page: a body with a list of items, each of which has an id.
Nothing is lost on it, also where another column of a row is stale. -/

/-- A request for a page: its two numbers are in the parameters, as decimal texts, and its filter
comes to this one. -/
structure Asks (req : HttpRequest) (limit offset : Nat) (filter : Bytes) : Prop where
  limit : req.params.find? (ascii "limit") = some (decimal limit)
  offset : req.params.find? (ascii "offset") = some (decimal offset)
  filter : normalizeStatusFilter (req.getParam (ascii "status")) = filter

/-- The id of an item. -/
def itemId (item : Json) : Option Int :=
  match item.find? (ascii "id") with
  | some (.int n) => some n
  | _ => none

/-- The ids of the items of an answer, as the page of the front end reads them. -/
def shownIds (codec : Json.Codec) (rsp : HttpResponse) : Option (List Int) := do
  let doc ← (codec.parse rsp.body).toOption
  let items ← (doc.find? (ascii "items")).bind Json.items?
  items.mapM itemId

theorem stoi_decimal {n : Nat} (h : n < 2147483648) : stoi (decimal n) = .ok (n : Int) := by
  have hread : strtol ([] ++ (decimal n ++ [])) = some (digitsValue (decimal n) : Int) :=
    strtol_digits (by simp) (decimal_ne_nil n) (fun b hb => isDigit_of_mem_decimal hb) (by simp)
  rw [List.nil_append, List.append_nil, digitsValue_decimal] at hread
  rw [stoi, hread]
  exact if_pos (by omega)

theorem parseIntParam_decimal {req : HttpRequest} {key : String} {n : Nat}
    (hparam : req.params.find? (ascii key) = some (decimal n)) (h : n < 2147483648)
    (defaultValue : Int) : parseIntParam req key defaultValue = n := by
  simp only [parseIntParam, HttpRequest.hasParam, HttpRequest.getParam, hparam, Option.isSome_some,
    Bool.not_true, Bool.false_eq_true, if_false, Option.getD_some, stoi_decimal h]

section

variable {τ : Type} {env : Env} {server : PublicServer τ} {req : HttpRequest} {limit offset : Nat}
  {filter : Bytes} {w : World (PublicDb τ)}

/-- With a page in the parameters the checks of the handler all pass, and what is left of it is one
read and one answer. -/
theorem getProblems_eq (hasks : Asks req limit offset filter) (hlimit : 1 ≤ limit)
    (hlimit' : limit ≤ 100) (hoffset : offset < 2147483648) (ops : PublicOps (PublicDb τ))
    (captures : List Bytes) :
    Public.getProblems env ops req captures = guardJsonHandler env (do
      let items ← ops.listProblems limit offset filter
      sendJson env 200 (problemsDoc limit offset items)) := by
  have hclamp : clampInt (parseIntParam req "limit" 20) 1 100 = limit := by
    rw [parseIntParam_decimal hasks.limit (by omega), clampInt]
    omega
  have hmax : max 0 (parseIntParam req "offset" 0) = offset := by
    rw [parseIntParam_decimal hasks.offset hoffset]
    omega
  have hstatus : (if req.hasParam (ascii "status") = true then
      normalizeStatusFilter (req.getParam (ascii "status")) else []) = filter := by
    split
    · exact hasks.filter
    · rename_i habsent
      have hnone : req.params.find? (ascii "status") = none :=
        Option.not_isSome_iff_eq_none.mp habsent
      rw [← hasks.filter, HttpRequest.getParam, hnone]
      rfl
  simp only [Public.getProblems, hclamp, hmax, hstatus]

theorem statu_of_raised {fn : Program (World (PublicDb τ)) Unit} {w' : World (PublicDb τ)}
    {e : Raised} (h : fn.run w = (.error e, w')) :
    ((guardJsonHandler env fn).run w).2.response.statu = 500 := by
  rw [guardJsonHandler, Program.run_tryCatch_error h]
  exact (sendJson_spec env 500 _ _).1

/-- **An answer of 200** has the list in it, as the table was when it was read. -/
theorem getProblems_of_ok (hasks : Asks req limit offset filter) (hlimit : 1 ≤ limit)
    (hlimit' : limit ≤ 100) (hoffset : offset < 2147483648) {captures : List Bytes}
    (h : ((Public.getProblems env server.ops req captures).run w).2.response.statu = 200) :
    ∃ items, ProblemDao.list server.same w.db.problems limit offset filter = .ok items ∧
      env.codec.dump (problemsDoc limit offset items) =
        some ((Public.getProblems env server.ops req captures).run w).2.response.body := by
  rw [getProblems_eq hasks hlimit hlimit' hoffset] at h ⊢
  have hlist : (server.ops.listProblems limit offset filter).run w =
      (server.answer w.calls (ProblemDao.list server.same w.db.problems limit offset filter),
        { w with calls := w.calls + 1 }) := rfl
  cases hanswer : server.answer w.calls
      (ProblemDao.list server.same w.db.problems limit offset filter) with
  | error e =>
    rw [hanswer] at hlist
    rw [statu_of_raised (Program.run_bind_error hlist _)] at h
    cases h
  | ok items =>
    rw [hanswer] at hlist
    refine ⟨items, PublicServer.answer_eq_ok hanswer, ?_⟩
    cases hdump : env.codec.dump (problemsDoc limit offset items) with
    | none =>
      rw [statu_of_raised ((Program.run_bind_ok hlist _).trans
        (run_sendJson_of_none env hdump 200 _))] at h
      cases h
    | some text =>
      rw [guardJsonHandler, Program.run_tryCatch_ok ((Program.run_bind_ok hlist _).trans
        (run_sendJson env hdump 200 _))]
      rfl

/-- There are no fractions in a list of problems. -/
theorem integral_problemsDoc (limit offset : Int) (items : List Problem) :
    (problemsDoc limit offset items).integral = true := by
  have hitems : Json.integralItems (items.map problemJson) = true :=
    Json.integralItems_map fun p _ => rfl
  simp only [problemsDoc, Json.integral, Json.integralMembers, hitems, Bool.and_true]

/-- The ids in a list of problems. -/
theorem mapM_itemId (items : List Problem) :
    (items.map problemJson).mapM itemId = some (items.map fun p => p.id.toInt) := by
  induction items with
  | nil => rfl
  | cons p items ih =>
    have hid : itemId (problemJson p) = some p.id.toInt := rfl
    rw [List.map_cons, List.mapM_cons, hid, ih]
    rfl

/-- **The ids that are shown** are those of a page of the list. -/
theorem shownIds_of_ok (hread : ∀ doc : Json, doc.integral = true → env.codec.ReadsBack doc)
    {i : Nat} (hasks : Asks req limit (i * limit) filter) (hlimit : 1 ≤ limit)
    (hlimit' : limit ≤ 100) (hoffset : i * limit < 2147483648) {captures : List Bytes}
    (h : ((Public.getProblems env server.ops req captures).run w).2.response.statu = 200) :
    shownIds env.codec ((Public.getProblems env server.ops req captures).run w).2.response =
      some (page limit i (listedIds server.same filter w.db.problems)) := by
  obtain ⟨items, hlist, hdump⟩ := getProblems_of_ok hasks hlimit hlimit' hoffset h
  have hparse := (hread _ (integral_problemsDoc _ _ items) _ hdump).2
  have hrows := congrArg (List.map Int64.toInt) (ids_fetchAll hlist)
  rw [List.map_map, List.map_map] at hrows
  have hitems : (items.map fun p => p.id.toInt) =
      page limit i (listedIds server.same filter w.db.problems) :=
    hrows.trans (ids_select server.same w.db.problems limit i filter)
  rw [shownIds, hparse, ← hitems]
  exact mapM_itemId items

end

/-! ## 3. From page to page

The general facts are in `Lib.Paging`; what is added here is that each answer is such a page. -/

/-- One request for a page: the database and its server by then. -/
structure PageRead (τ : Type) where
  server : PublicServer τ
  db : PublicDb τ
  req : HttpRequest
  captures : List Bytes

def PageRead.answer {τ : Type} (env : Env) (r : PageRead τ) : HttpResponse :=
  ((Public.getProblems env r.server.ops r.req r.captures).run ⟨.ofStatu 200, 0, r.db⟩).2.response

/-- Somebody reads the pages `0` to `n`, one after the other, and gets them all.  The table is that
of each moment, and only the collation and the key are the same throughout. -/
structure Walk {τ : Type} (env : Env) (same : Bytes → Bytes → Bool) (filter : Bytes) (limit : Nat)
    (reads : Nat → PageRead τ) (n : Nat) : Prop where
  collation : ∀ i ≤ n, (reads i).server.same = same
  keyed : ∀ i ≤ n, Keyed (reads i).db.problems
  asks : ∀ i ≤ n, Asks (reads i).req limit (i * limit) filter
  answered : ∀ i ≤ n, ((reads i).answer env).statu = 200

/-- What `problem-list.js` asks for: `limit`, `offset`, and the status `published`. -/
def pageRequest (offset : Nat) : HttpRequest :=
  { HttpRequest.reSet with
    method := ascii "GET"
    path := ascii "/api/problems"
    params := ⟨[(ascii "limit", decimal 12), (ascii "offset", decimal offset),
      (ascii "status", ascii "published")],
      (by decide : [ascii "limit", ascii "offset", ascii "status"].Nodup)⟩ }

/-- When it takes the button for the next page away. -/
def nextDisabled (shown : List Int) : Bool := shown.length < 12

theorem asks_pageRequest (offset : Nat) :
    Asks (pageRequest offset) 12 offset (ascii "published") where
  limit := rfl
  offset := rfl
  filter := (by decide : normalizeStatusFilter (ascii "published") = ascii "published")

/-- The part of the list that the page with the number `i` is cut from the table of its moment. -/
def shownAt {τ : Type} (same : Bytes → Bytes → Bool) (filter : Bytes) (limit : Nat)
    (reads : Nat → PageRead τ) (i : Nat) : List Int :=
  page limit i (listedIds same filter (reads i).db.problems)

/-- **From page to page.**  Somebody reads the pages of the list in order, whoever changes the table
between two of them.  Each page shows problems that are in the list when it is read, no more than
it is asked for.  If no problem leaves the list in the meantime and the last page is not full, then
every problem that was in the list at the beginning has been shown; and if none enters it, no
problem is shown on two pages. -/
theorem problem_pages {τ : Type} {env : Env}
    (hread : ∀ doc : Json, doc.integral = true → env.codec.ReadsBack doc)
    {same : Bytes → Bytes → Bool} {filter : Bytes} {limit n : Nat} (hlimit : 1 ≤ limit)
    (hlimit' : limit ≤ 100) (hoffset : n * limit < 2147483648) {reads : Nat → PageRead τ}
    (h : Walk env same filter limit reads n) :
    (∀ i ≤ n, shownIds env.codec ((reads i).answer env) =
        some (shownAt same filter limit reads i) ∧
      (shownAt same filter limit reads i).length ≤ limit ∧
      ∀ id ∈ shownAt same filter limit reads i, ∃ row ∈ (reads i).db.problems,
        listed same filter row = true ∧ row.id.toInt = id) ∧
    ((∀ i < n, Within same filter (reads i).db.problems (reads (i + 1)).db.problems) →
      (shownAt same filter limit reads n).length < limit →
      ∀ row ∈ (reads 0).db.problems, listed same filter row = true →
        ∃ i ≤ n, row.id.toInt ∈ shownAt same filter limit reads i) ∧
    ((∀ i < n, Within same filter (reads (i + 1)).db.problems (reads i).db.problems) →
      ∀ i j, i < j → j ≤ n → ∀ id ∈ shownAt same filter limit reads i,
        id ∉ shownAt same filter limit reads j) := by
  have hnodup : ∀ i ≤ n, (listedIds same filter (reads i).db.problems).Nodup :=
    fun i hi => (h.keyed i hi).nodup_listedIds same filter
  refine ⟨fun i hi => ⟨?_, length_page_le _ _ _, fun id hid => ?_⟩,
    fun hgrow hshort row hrow hlisted => ?_, fun hshrink i j hij hj id hid => ?_⟩
  · have hbound : i * limit < 2147483648 :=
      Nat.lt_of_le_of_lt (Nat.mul_le_mul_right limit hi) hoffset
    have hshown := shownIds_of_ok hread (h.asks i hi) hlimit hlimit' hbound (h.answered i hi)
    rw [h.collation i hi] at hshown
    exact hshown
  · exact mem_listedIds.mp ((mem_page_iff (hnodup i hi)).mp hid).1
  · refine page_complete hnodup (fun i hi => ?_) hshort
      (mem_listedIds.mpr ⟨row, hrow, hlisted, rfl⟩)
    exact (hgrow i hi).sublist (h.keyed i (by omega))
  · refine page_once hnodup (fun i hi => ?_) hij hj hid
    exact (hshrink i hi).sublist (h.keyed (i + 1) (by omega))

/-- The table in the witness, with so many problems. -/
def pageDb (n : Nat) : PublicDb Unit :=
  { sampleDb [] with
    problems := (List.range n).map fun i =>
      titledProblem (.ofNat (i + 1)) sumTitle }

/-- Two pages of the front end; a problem is created between them. -/
def pageReads (i : Nat) : PageRead Unit where
  server := calmServer
  db := pageDb (12 + i)
  req := pageRequest (i * 12)
  captures := []

/-- The environment of the witness. -/
def pageEnv : Env := { sampleEnv with codec := Json.Codec.standard (.compact fun _ => []) }

theorem walk_pageReads :
    Walk pageEnv (fun a b => a == b) (ascii "published") 12 pageReads 1 where
  collation _ _ := rfl
  keyed i hi := by
    rcases Nat.le_one_iff_eq_zero_or_eq_one.mp hi with rfl | rfl <;> unfold Keyed <;> decide +kernel
  asks i _ := asks_pageRequest (i * 12)
  answered i hi := by
    rcases Nat.le_one_iff_eq_zero_or_eq_one.mp hi with rfl | rfl <;> decide +kernel

/-- The first page has been pushed back by one problem, and none of its problems is missed. -/
theorem problem_pages_pageReads :
    (∀ i ≤ 1, shownIds pageEnv.codec ((pageReads i).answer pageEnv) =
      some (shownAt (fun a b => a == b) (ascii "published") 12 pageReads i)) ∧
    nextDisabled (shownAt (fun a b => a == b) (ascii "published") 12 pageReads 1) = true ∧
    ∀ row ∈ (pageReads 0).db.problems,
      listed (fun a b => a == b) (ascii "published") row = true →
        ∃ i ≤ 1, row.id.toInt ∈ shownAt (fun a b => a == b) (ascii "published") 12 pageReads i := by
  have hread : ∀ doc : Json, doc.integral = true → pageEnv.codec.ReadsBack doc :=
    fun doc hdoc => Json.standard_readsBack (Json.separates_compact _) hdoc
  obtain ⟨hshown, hcomplete, -⟩ :=
    problem_pages hread (by decide) (by decide) (by decide) walk_pageReads
  refine ⟨fun i hi => (hshown i hi).1, by decide +kernel,
    hcomplete (fun i hi => ?_) (by decide +kernel)⟩
  obtain rfl := Nat.lt_one_iff.mp hi
  unfold Within
  decide +kernel

/-- A problem that goes while somebody reads can hide another: of three, the reader of the second
page has not been shown the second one. -/
example : (2 : Nat) ∉ page 1 0 [3, 2, 1] ∧ 2 ∉ page 1 1 [2, 1] ∧ page 1 2 [2, 1] = [] := by decide

end OnlineJudge.Handler
