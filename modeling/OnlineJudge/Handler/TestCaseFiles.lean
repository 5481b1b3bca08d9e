/-
# The test-case files of an archive

`ParseTestcasesFromDir` sorts the files of an unpacked archive into two maps by the number that
their names start with, and joins the maps.  The directory iterator yields the files in any order,
and a later file with the same number replaces an earlier one.

* `parseTestcasesFromDir_eq`: the function reads the joined pairs one after another.
* `pairing_iff`: the pairs are the same in every order, and of one name each, exactly when an `.in`
  file and an `.out` file with the same number always have the same name (`FileTree.Matched`).
* `parse_complete`: if no two files with the same extension have the same number, the result is one
  case for each number that has both files, in increasing order.

The iterator is a list of the files in any order, and a statement about every order quantifies over
the permutations.  Directories do not appear: files in two of them with one name have two paths, and
the function looks at the name only.
-/
import Mathlib.Data.List.Dedup
import OnlineJudge.Handler.AdminHandler

namespace OnlineJudge.Handler

open ByteString

/-- The regular files below a directory, at different paths.  The list is one order of them. -/
structure FileTree where
  files : List DirEntry
  distinct : (files.map DirEntry.path).Nodup

/-- The paths differ only in the extension. -/
def SameName (infile outfile : DirEntry) : Prop :=
  ∃ base, infile.path = base ++ ascii ".in" ∧ outfile.path = base ++ ascii ".out"

/-! ## 1. The joined pairs

The two maps and the loop over their keys, as one list of pairs with their numbers. -/

/-- `ids`: the keys of `ins` in increasing order. -/
def caseIds (entries : List DirEntry) : List Int :=
  (entries.filterMap fun e => e.index ".in").dedup.insertionSort fun a b => a ≤ b

/-- `ins[idx]` and `outs[idx]`, if both are there. -/
def pairAt (entries : List DirEntry) (idx : Int) : Option (Int × DirEntry × DirEntry) :=
  match fileAt entries ".in" idx, fileAt entries ".out" idx with
  | some infile, some outfile => some (idx, infile, outfile)
  | _, _ => none

/-- The pairs that the loop reads, with their numbers. -/
def casePairs (entries : List DirEntry) : List (Int × DirEntry × DirEntry) :=
  (caseIds entries).filterMap (pairAt entries)

/-- Both files of a pair. -/
def readPair (pair : Int × DirEntry × DirEntry) : Except Raised ZipParsedCase := do
  let input ← pair.2.1.readAll
  let output ← pair.2.2.readAll
  return ⟨pair.1, input, output⟩

theorem parsePairs_eq (entries : List DirEntry) (ns : List Int) :
    parsePairs entries ns = (ns.filterMap (pairAt entries)).mapM readPair := by
  induction ns with
  | nil => rfl
  | cons idx ns ih =>
    cases hin : fileAt entries ".in" idx with
    | none =>
      have hpair : pairAt entries idx = none := by simp [pairAt, hin]
      simp only [parsePairs, hin, List.filterMap_cons, hpair]
      exact ih
    | some infile =>
      cases hout : fileAt entries ".out" idx with
      | none =>
        have hpair : pairAt entries idx = none := by simp [pairAt, hin, hout]
        simp only [parsePairs, hin, hout, List.filterMap_cons, hpair]
        exact ih
      | some outfile =>
        have hpair : pairAt entries idx = some (idx, infile, outfile) := by
          simp [pairAt, hin, hout]
        simp only [parsePairs, hin, hout, List.filterMap_cons, hpair, List.mapM_cons, readPair, ih,
          bind_assoc, pure_bind]

/-- **The function reads the joined pairs**: the two maps are joined by number, and the files of
each pair are read in order, up to the first that cannot be. -/
theorem parseTestcasesFromDir_eq (entries : List DirEntry) :
    parseTestcasesFromDir entries = (casePairs entries).mapM readPair :=
  parsePairs_eq entries (caseIds entries)

theorem fileAt_eq_some {entries : List DirEntry} {ext : String} {idx : Int} {e : DirEntry}
    (h : fileAt entries ext idx = some e) : e ∈ entries ∧ e.index ext = some idx := by
  simpa using List.mem_of_getLast? h

theorem fileAt_eq_none {entries : List DirEntry} {ext : String} {idx : Int}
    (h : fileAt entries ext idx = none) : ∀ e ∈ entries, e.index ext ≠ some idx := by
  simpa [fileAt] using h

/-- The only file with this extension and this number. -/
theorem fileAt_of_unique {entries : List DirEntry} {ext : String} {idx : Int} {e : DirEntry}
    (he : e ∈ entries) (hidx : e.index ext = some idx)
    (hunique : ∀ e' ∈ entries, e'.index ext = some idx → e' = e) :
    fileAt entries ext idx = some e := by
  cases h : fileAt entries ext idx with
  | none => exact absurd hidx (fileAt_eq_none h e he)
  | some e' =>
    obtain ⟨he', hidx'⟩ := fileAt_eq_some h
    rw [hunique e' he' hidx']

theorem pairAt_eq_some {entries : List DirEntry} {idx : Int} {pair : Int × DirEntry × DirEntry} :
    pairAt entries idx = some pair ↔
      pair.1 = idx ∧ fileAt entries ".in" idx = some pair.2.1 ∧
        fileAt entries ".out" idx = some pair.2.2 := by
  obtain ⟨n, infile, outfile⟩ := pair
  unfold pairAt
  split
  · rename_i infile' outfile' hin hout
    simp [hin, hout, eq_comm]
  · rename_i hnot
    constructor
    · intro h
      cases h
    · rintro ⟨-, hin, hout⟩
      exact absurd hout (hnot infile outfile hin)

theorem mem_caseIds {entries : List DirEntry} {idx : Int} :
    idx ∈ caseIds entries ↔ ∃ e ∈ entries, e.index ".in" = some idx := by
  rw [caseIds, List.mem_insertionSort, List.mem_dedup, List.mem_filterMap]

theorem mem_casePairs {entries : List DirEntry} {pair : Int × DirEntry × DirEntry} :
    pair ∈ casePairs entries ↔
      fileAt entries ".in" pair.1 = some pair.2.1 ∧
        fileAt entries ".out" pair.1 = some pair.2.2 := by
  rw [casePairs, List.mem_filterMap]
  constructor
  · rintro ⟨idx, -, hpair⟩
    obtain ⟨rfl, hin, hout⟩ := pairAt_eq_some.mp hpair
    exact ⟨hin, hout⟩
  · rintro ⟨hin, hout⟩
    obtain ⟨he, hidx⟩ := fileAt_eq_some hin
    exact ⟨pair.1, mem_caseIds.mpr ⟨_, he, hidx⟩, pairAt_eq_some.mpr ⟨rfl, hin, hout⟩⟩

/-- The keys are sorted, each of them once. -/
theorem caseIds_increasing (entries : List DirEntry) :
    (caseIds entries).Pairwise fun a b => a < b := by
  have hsorted : (caseIds entries).Pairwise fun a b => a ≤ b := List.pairwise_insertionSort _ _
  have hnodup : (caseIds entries).Nodup :=
    (List.perm_insertionSort _ _).nodup_iff.mpr (List.nodup_dedup _)
  exact hsorted.imp₂ (fun a b hle hne => lt_of_le_of_ne hle hne) hnodup

/-- The pairs come in the order of their numbers. -/
theorem casePairs_increasing (entries : List DirEntry) :
    (casePairs entries).Pairwise fun p q => p.1 < q.1 := by
  rw [casePairs, List.pairwise_filterMap]
  refine (caseIds_increasing entries).imp ?_
  intro a b hlt p hp q hq
  rw [(pairAt_eq_some.mp hp).1, (pairAt_eq_some.mp hq).1]
  exact hlt

/-- The keys do not depend on the order of the files. -/
theorem caseIds_perm {entries entries' : List DirEntry} (h : entries.Perm entries') :
    caseIds entries = caseIds entries' := by
  have hperm : (caseIds entries).Perm (caseIds entries') :=
    (List.perm_insertionSort _ _).trans
      ((h.filterMap _).dedup.trans (List.perm_insertionSort _ _).symm)
  exact hperm.eq_of_pairwise' (r := fun a b : Int => a ≤ b) (List.pairwise_insertionSort _ _)
    (List.pairwise_insertionSort _ _)

/-! ## 2. Pairing

Which file a number stands for is decided by the last one in the order.  Two files of one number can
both be the last, in some order, so the pairs are the same in every order only if that makes no
difference. -/

namespace FileTree

/-- An `.in` file and an `.out` file with the same number have the same name. -/
def Matched (t : FileTree) : Prop :=
  ∀ infile ∈ t.files, ∀ outfile ∈ t.files, ∀ idx,
    infile.index ".in" = some idx → outfile.index ".out" = some idx → SameName infile outfile

/-- The files of a pair can be opened. -/
def Readable (t : FileTree) : Prop :=
  ∀ infile ∈ t.files, ∀ outfile ∈ t.files, ∀ idx,
    infile.index ".in" = some idx → outfile.index ".out" = some idx →
      infile.content.isSome = true ∧ outfile.content.isSome = true

/-- The files of a number: an input and an output that are both listed under it.  In a tree with
several of one kind there are several such pairs. -/
def HasBoth (t : FileTree) (idx : Int) (infile outfile : DirEntry) : Prop :=
  infile ∈ t.files ∧ outfile ∈ t.files ∧ infile.index ".in" = some idx ∧
    outfile.index ".out" = some idx

variable {t : FileTree}

/-- What an order of the files pairs are files of one number. -/
theorem hasBoth_of_fileAt {order : List DirEntry} (horder : order.Perm t.files) {idx : Int}
    {infile outfile : DirEntry} (hin : fileAt order ".in" idx = some infile)
    (hout : fileAt order ".out" idx = some outfile) : t.HasBoth idx infile outfile := by
  obtain ⟨hmem, hidx⟩ := fileAt_eq_some hin
  obtain ⟨hmem', hidx'⟩ := fileAt_eq_some hout
  exact ⟨horder.mem_iff.mp hmem, horder.mem_iff.mp hmem', hidx, hidx'⟩

theorem eq_of_path {e e' : DirEntry} (he : e ∈ t.files) (he' : e' ∈ t.files)
    (hpath : e.path = e'.path) : e = e' :=
  List.inj_on_of_nodup_map t.distinct he he' hpath

/-- A number that has both files has one of each. -/
theorem Matched.unique (h : t.Matched) {infile outfile : DirEntry} {idx : Int}
    (hboth : t.HasBoth idx infile outfile) :
    (∀ e ∈ t.files, e.index ".in" = some idx → e = infile) ∧
      ∀ e ∈ t.files, e.index ".out" = some idx → e = outfile := by
  obtain ⟨hin, hout, hidx, hidx'⟩ := hboth
  obtain ⟨base, hbase, hbase'⟩ := h infile hin outfile hout idx hidx hidx'
  constructor
  · intro e he heidx
    obtain ⟨base', hpath, hpath'⟩ := h e he outfile hout idx heidx hidx'
    have hsame : base' = base := List.append_cancel_right (hpath'.symm.trans hbase')
    exact eq_of_path he hin (by rw [hpath, hbase, hsame])
  · intro e he heidx
    obtain ⟨base', hpath, hpath'⟩ := h infile hin e he idx hidx heidx
    have hsame : base' = base := List.append_cancel_right (hpath.symm.trans hbase)
    exact eq_of_path he hout (by rw [hpath', hbase', hsame])

/-- Where every number has at most one file of each kind next to the other kind, the maps agree in
every order. -/
theorem pairAt_perm {order : List DirEntry} (horder : order.Perm t.files) {idx : Int}
    (hunique : ∀ infile outfile, t.HasBoth idx infile outfile →
      (∀ e ∈ t.files, e.index ".in" = some idx → e = infile) ∧
        ∀ e ∈ t.files, e.index ".out" = some idx → e = outfile) :
    pairAt order idx = pairAt t.files idx := by
  ext pair
  rw [pairAt_eq_some, pairAt_eq_some]
  refine and_congr_right fun _ => ?_
  constructor
  · rintro ⟨hin, hout⟩
    have hboth := hasBoth_of_fileAt horder hin hout
    obtain ⟨honly, honly'⟩ := hunique _ _ hboth
    obtain ⟨hmem, hmem', hidx, hidx'⟩ := hboth
    exact ⟨fileAt_of_unique hmem hidx honly, fileAt_of_unique hmem' hidx' honly'⟩
  · rintro ⟨hin, hout⟩
    have hboth := hasBoth_of_fileAt (List.Perm.refl _) hin hout
    obtain ⟨honly, honly'⟩ := hunique _ _ hboth
    obtain ⟨hmem, hmem', hidx, hidx'⟩ := hboth
    exact ⟨fileAt_of_unique (horder.mem_iff.mpr hmem) hidx
        fun e he => honly e (horder.mem_iff.mp he),
      fileAt_of_unique (horder.mem_iff.mpr hmem') hidx'
        fun e he => honly' e (horder.mem_iff.mp he)⟩

theorem Matched.casePairs_perm (h : t.Matched) {order : List DirEntry}
    (horder : order.Perm t.files) : casePairs order = casePairs t.files := by
  rw [casePairs, casePairs, caseIds_perm horder]
  exact List.filterMap_congr fun idx _ => pairAt_perm horder fun _ _ hboth => h.unique hboth

/-- Two files of a tree can be the last ones. -/
theorem exists_order_last {infile outfile : DirEntry} (hin : infile ∈ t.files)
    (hout : outfile ∈ t.files) (hne : outfile ≠ infile) :
    ∃ rest : List DirEntry, (rest ++ [infile, outfile]).Perm t.files := by
  obtain ⟨as, bs, hsplit⟩ := List.append_of_mem hin
  have hfirst : t.files.Perm (infile :: (as ++ bs)) := hsplit ▸ List.perm_middle
  have hmem : outfile ∈ as ++ bs :=
    (List.mem_cons.mp (hfirst.mem_iff.mp hout)).resolve_left hne
  obtain ⟨cs, ds, hsplit'⟩ := List.append_of_mem hmem
  have hsecond : (as ++ bs).Perm (outfile :: (cs ++ ds)) := hsplit' ▸ List.perm_middle
  refine ⟨cs ++ ds, List.Perm.trans ?_ (hfirst.trans (hsecond.cons infile)).symm⟩
  exact List.perm_append_comm

theorem index_out_of_in {e : DirEntry} {idx : Int} (h : e.index ".in" = some idx) :
    e.index ".out" = none := by
  have hext : e.split.2 = ascii ".in" := by
    by_contra hne
    simp [DirEntry.index, hne] at h
  have hne : e.split.2 ≠ ascii ".out" := by
    rw [hext]
    decide
  simp [DirEntry.index, hne]

theorem ne_of_index {infile outfile : DirEntry} {idx : Int} (hidx : infile.index ".in" = some idx)
    (hidx' : outfile.index ".out" = some idx) : outfile ≠ infile := by
  rintro rfl
  rw [index_out_of_in hidx] at hidx'
  cases hidx'

theorem pairAt_last (rest : List DirEntry) {infile outfile : DirEntry} {idx : Int}
    (hidx : infile.index ".in" = some idx) (hidx' : outfile.index ".out" = some idx) :
    pairAt (rest ++ [infile, outfile]) idx = some (idx, infile, outfile) := by
  have hnot : outfile.index ".in" ≠ some idx := by
    intro h
    rw [index_out_of_in h] at hidx'
    cases hidx'
  have hnot' : infile.index ".out" ≠ some idx := by
    rw [index_out_of_in hidx]
    simp
  have hin : fileAt (rest ++ [infile, outfile]) ".in" idx = some infile := by
    simp [fileAt, hidx, hnot]
  have hout : fileAt (rest ++ [infile, outfile]) ".out" idx = some outfile := by
    simp [fileAt, hidx', hnot']
  exact pairAt_eq_some.mpr ⟨rfl, hin, hout⟩

/-- **When pairing is well defined**: whatever the order of the directory, the two files of a pair
have the same name exactly when the tree is matched. -/
theorem pairing_iff (t : FileTree) :
    (∀ order : List DirEntry, order.Perm t.files →
      ∀ pair ∈ casePairs order, SameName pair.2.1 pair.2.2) ↔ t.Matched := by
  constructor
  · intro h infile hin outfile hout idx hidx hidx'
    obtain ⟨rest, horder⟩ := exists_order_last hin hout (ne_of_index hidx hidx')
    obtain ⟨-, hlast, hlast'⟩ := pairAt_eq_some.mp (pairAt_last rest hidx hidx')
    exact h _ horder (idx, infile, outfile) (mem_casePairs.mpr ⟨hlast, hlast'⟩)
  · intro h order horder pair hpair
    obtain ⟨hin, hout⟩ := mem_casePairs.mp hpair
    obtain ⟨hmem, hmem', hidx, hidx'⟩ := hasBoth_of_fileAt horder hin hout
    exact h _ hmem _ hmem' _ hidx hidx'

/-! ## 3. The cases

A pair becomes a case by reading its two files, each of which may fail to be opened; the first that
does makes the whole function raise. -/

/-- The case of a pair has its number and what is in its files, byte by byte. -/
def TakenFrom (pair : Int × DirEntry × DirEntry) (c : ZipParsedCase) : Prop :=
  c.sortOrder = pair.1 ∧ pair.2.1.content = some c.input ∧ pair.2.2.content = some c.output

theorem readPair_eq_ok_iff {pair : Int × DirEntry × DirEntry} {c : ZipParsedCase} :
    readPair pair = .ok c ↔ TakenFrom pair c := by
  obtain ⟨idx, infile, outfile⟩ := pair
  obtain ⟨n, input, output⟩ := c
  unfold readPair TakenFrom DirEntry.readAll
  cases infile.content with
  | none => simp [bind, Except.bind]
  | some bytes =>
    cases outfile.content with
    | none => simp [bind, Except.bind]
    | some bytes' => simp [bind, Except.bind, pure, Except.pure, eq_comm]

/-- A pair that cannot be read has a file that cannot be opened. -/
theorem readPair_eq_error {pair : Int × DirEntry × DirEntry} {raised : Raised}
    (h : readPair pair = .error raised) :
    ∃ e, (e = pair.2.1 ∨ e = pair.2.2) ∧ e.content = none ∧
      raised = .runtime (ascii "failed to read file: " ++ e.path) := by
  obtain ⟨idx, infile, outfile⟩ := pair
  simp only [readPair, DirEntry.readAll] at h
  cases hin : infile.content with
  | none =>
    simp only [hin, bind, Except.bind, Except.error.injEq] at h
    exact ⟨infile, Or.inl rfl, hin, h.symm⟩
  | some bytes =>
    cases hout : outfile.content with
    | none =>
      simp only [hin, hout, bind, Except.bind, Except.error.injEq] at h
      exact ⟨outfile, Or.inr rfl, hout, h.symm⟩
    | some bytes' => simp [hin, hout, bind, Except.bind, pure, Except.pure] at h

theorem mapM_eq_ok_iff {α β ε : Type} {f : α → Except ε β} {xs : List α} {ys : List β} :
    xs.mapM f = .ok ys ↔ List.Forall₂ (fun x y => f x = .ok y) xs ys := by
  induction xs generalizing ys with
  | nil =>
    cases ys <;> simp [pure, Except.pure]
  | cons x xs ih =>
    rw [List.mapM_cons]
    constructor
    · intro h
      cases hx : f x with
      | error e => simp [hx, bind, Except.bind] at h
      | ok y =>
        cases hrest : xs.mapM f with
        | error e => simp [hx, hrest, bind, Except.bind] at h
        | ok rest =>
          simp only [hx, hrest, bind, Except.bind, pure, Except.pure, Except.ok.injEq] at h
          subst h
          exact List.Forall₂.cons hx (ih.mp hrest)
    · rintro (_ | ⟨hx, hrest⟩)
      simp [hx, ih.mpr hrest, bind, Except.bind, pure, Except.pure]

theorem exists_of_mapM_eq_error {α β ε : Type} {f : α → Except ε β} {xs : List α} {e : ε}
    (h : xs.mapM f = .error e) : ∃ x ∈ xs, f x = .error e := by
  induction xs with
  | nil => simp [pure, Except.pure] at h
  | cons x xs ih =>
    rw [List.mapM_cons] at h
    cases hx : f x with
    | error e' =>
      simp only [hx, bind, Except.bind, Except.error.injEq] at h
      exact ⟨x, List.mem_cons_self, h ▸ hx⟩
    | ok y =>
      cases hrest : xs.mapM f with
      | error e' =>
        simp only [hx, hrest, bind, Except.bind, Except.error.injEq] at h
        obtain ⟨x', hmem, hx'⟩ := ih (h ▸ hrest)
        exact ⟨x', List.mem_cons_of_mem _ hmem, hx'⟩
      | ok rest => simp [hx, hrest, bind, Except.bind, pure, Except.pure] at h

theorem parse_eq_ok_iff {entries : List DirEntry} {cases : List ZipParsedCase} :
    parseTestcasesFromDir entries = .ok cases ↔
      List.Forall₂ TakenFrom (casePairs entries) cases := by
  rw [parseTestcasesFromDir_eq, mapM_eq_ok_iff]
  simp only [readPair_eq_ok_iff]

/-- The pairs of a tree whose files can be opened have their cases. -/
theorem exists_cases {pairs : List (Int × DirEntry × DirEntry)}
    (h : ∀ pair ∈ pairs, pair.2.1.content.isSome = true ∧ pair.2.2.content.isSome = true) :
    ∃ cases, List.Forall₂ TakenFrom pairs cases := by
  induction pairs with
  | nil => exact ⟨[], List.Forall₂.nil⟩
  | cons pair pairs ih =>
    obtain ⟨cases, hcases⟩ := ih fun p hp => h p (List.mem_cons_of_mem _ hp)
    obtain ⟨hin, hout⟩ := h pair List.mem_cons_self
    obtain ⟨input, hinput⟩ := Option.isSome_iff_exists.mp hin
    obtain ⟨output, houtput⟩ := Option.isSome_iff_exists.mp hout
    exact ⟨⟨pair.1, input, output⟩ :: cases, List.Forall₂.cons ⟨rfl, hinput, houtput⟩ hcases⟩

theorem exists_of_mem_left {α β : Type} {R : α → β → Prop} {xs : List α} {ys : List β}
    (h : List.Forall₂ R xs ys) {x : α} (hx : x ∈ xs) : ∃ y ∈ ys, R x y := by
  induction h with
  | nil => cases hx
  | cons hR _ ih =>
    rcases List.mem_cons.mp hx with rfl | hx
    · exact ⟨_, List.mem_cons_self, hR⟩
    · obtain ⟨y, hy, hR'⟩ := ih hx
      exact ⟨y, List.mem_cons_of_mem _ hy, hR'⟩

theorem exists_of_mem_right {α β : Type} {R : α → β → Prop} {xs : List α} {ys : List β}
    (h : List.Forall₂ R xs ys) {y : β} (hy : y ∈ ys) : ∃ x ∈ xs, R x y :=
  exists_of_mem_left (R := fun y x => R x y) h.flip hy

/-- **When the cases are well defined.**  Every order of the files gives the same list of cases,
each of them taken from two files of one name, exactly when the `.in` and the `.out` files of one
number always have the same name and can be opened. -/
theorem parse_wellDefined_iff (t : FileTree) :
    (∃ cases, ∀ order : List DirEntry, order.Perm t.files →
      parseTestcasesFromDir order = .ok cases ∧
        List.Forall₂ (fun pair c => SameName pair.2.1 pair.2.2 ∧ TakenFrom pair c)
          (casePairs order) cases) ↔ t.Matched ∧ t.Readable := by
  constructor
  · rintro ⟨cases, h⟩
    constructor
    · rw [← pairing_iff]
      intro order horder
      exact ((List.forall₂_and_left _ _).mp (h order horder).2).1
    · intro infile hin outfile hout idx hidx hidx'
      obtain ⟨rest, horder⟩ := exists_order_last hin hout (ne_of_index hidx hidx')
      obtain ⟨-, hlast, hlast'⟩ := pairAt_eq_some.mp (pairAt_last rest hidx hidx')
      have hpair : (idx, infile, outfile) ∈ casePairs (rest ++ [infile, outfile]) :=
        mem_casePairs.mpr ⟨hlast, hlast'⟩
      obtain ⟨c, -, -, -, hinput, houtput⟩ := exists_of_mem_left (h _ horder).2 hpair
      exact ⟨Option.isSome_iff_exists.mpr ⟨_, hinput⟩, Option.isSome_iff_exists.mpr ⟨_, houtput⟩⟩
  · rintro ⟨hmatched, hreadable⟩
    have hopen : ∀ pair ∈ casePairs t.files,
        pair.2.1.content.isSome = true ∧ pair.2.2.content.isSome = true := by
      intro pair hpair
      obtain ⟨hin, hout⟩ := mem_casePairs.mp hpair
      obtain ⟨hmem, hmem', hidx, hidx'⟩ := hasBoth_of_fileAt (List.Perm.refl _) hin hout
      exact hreadable _ hmem _ hmem' _ hidx hidx'
    obtain ⟨cases, hcases⟩ := exists_cases hopen
    refine ⟨cases, fun order horder => ?_⟩
    rw [parse_eq_ok_iff, List.forall₂_and_left, hmatched.casePairs_perm horder]
    exact ⟨hcases, (pairing_iff t).mpr hmatched _ (List.Perm.refl _), hcases⟩

/-- Two `.in` files start with the number 1. -/
def oneTwice : FileTree where
  files := [⟨ascii "/t/1.in", some (ascii "a")⟩, ⟨ascii "/t/01.in", some (ascii "b")⟩,
    ⟨ascii "/t/1.out", some (ascii "c")⟩]
  distinct := by decide

/-- The order of the files decides which of the two is the input. -/
theorem parse_not_wellDefined :
    ¬ ∀ t : FileTree, ∃ cases, ∀ order : List DirEntry, order.Perm t.files →
      parseTestcasesFromDir order = .ok cases ∧
        List.Forall₂ (fun pair c => SameName pair.2.1 pair.2.2 ∧ TakenFrom pair c)
          (casePairs order) cases := by
  intro h
  obtain ⟨cases, hcases⟩ := h oneTwice
  have hgiven := (hcases oneTwice.files (List.Perm.refl _)).1
  have hreversed := (hcases oneTwice.files.reverse (List.reverse_perm _)).1
  exact absurd (hgiven.trans hreversed.symm) (by decide)

/-! ## 4. Completeness

Under a condition on the names alone: nothing is lost, nothing comes twice, and the cases are in
order. -/

theorem index_eq_some_iff {ext : String} {e : DirEntry} {idx : Int} :
    e.index ext = some idx ↔ e.split.2 = ascii ext ∧ stoi e.split.1 = .ok idx ∧ 0 < idx := by
  unfold DirEntry.index
  by_cases hext : e.split.2 = ascii ext
  · cases hstem : stoi e.split.1 with
    | error raised => simp [hext]
    | ok n =>
      by_cases hpos : n ≤ 0
      · simp only [hext, hpos, ne_eq, not_true_eq_false, if_false, if_true, true_and,
          Except.ok.injEq, reduceCtorEq, false_iff, not_and]
        omega
      · simp only [hext, hpos, ne_eq, not_true_eq_false, if_false, true_and, Except.ok.injEq,
          Option.some.injEq]
        omega
  · simp [hext]

/-- No two files with the same extension have stems that parse to the same number.  The claim is
about such trees. -/
def OneEach (t : FileTree) : Prop :=
  ∀ e ∈ t.files, ∀ e' ∈ t.files, e.split.2 = e'.split.2 →
    ∀ n, stoi e.split.1 = .ok n → stoi e'.split.1 = .ok n → e = e'

theorem OneEach.eq_of_index (h : t.OneEach) {e e' : DirEntry} (he : e ∈ t.files)
    (he' : e' ∈ t.files) {ext : String} {idx : Int} (hidx : e.index ext = some idx)
    (hidx' : e'.index ext = some idx) : e = e' := by
  obtain ⟨hext, hstem, -⟩ := index_eq_some_iff.mp hidx
  obtain ⟨hext', hstem', -⟩ := index_eq_some_iff.mp hidx'
  exact h e he e' he' (hext.trans hext'.symm) idx hstem hstem'

/-- In every order the pairs are those of the numbers that have both files. -/
theorem OneEach.mem_casePairs_iff (h : t.OneEach) {order : List DirEntry}
    (horder : order.Perm t.files) {idx : Int} {infile outfile : DirEntry} :
    (idx, infile, outfile) ∈ casePairs order ↔ t.HasBoth idx infile outfile := by
  rw [mem_casePairs]
  constructor
  · rintro ⟨hin, hout⟩
    exact hasBoth_of_fileAt horder hin hout
  · rintro ⟨hin, hout, hidx, hidx'⟩
    constructor
    · refine fileAt_of_unique (horder.mem_iff.mpr hin) hidx fun e he heidx => ?_
      exact h.eq_of_index (horder.mem_iff.mp he) hin heidx hidx
    · refine fileAt_of_unique (horder.mem_iff.mpr hout) hidx' fun e he heidx => ?_
      exact h.eq_of_index (horder.mem_iff.mp he) hout heidx hidx'

/-- The cases increase with the numbers of their pairs. -/
theorem increasing_of_takenFrom {pairs : List (Int × DirEntry × DirEntry)}
    {cases : List ZipParsedCase} (h : List.Forall₂ TakenFrom pairs cases)
    (hpairs : pairs.Pairwise fun p q => p.1 < q.1) :
    cases.Pairwise fun c c' => c.sortOrder < c'.sortOrder := by
  induction h with
  | nil => exact List.Pairwise.nil
  | cons htaken hrest ih =>
    obtain ⟨hfirst, hpairs⟩ := List.pairwise_cons.mp hpairs
    refine List.pairwise_cons.mpr ⟨fun c' hc' => ?_, ih hpairs⟩
    obtain ⟨q, hq, htaken'⟩ := exists_of_mem_right hrest hc'
    rw [htaken.1, htaken'.1]
    exact hfirst q hq

/-- **Parsing is complete and ordered.**  If no two files with the same extension have the same
number, every order of the files gives one case for each number that has both files, with that
number and what is in the two files, in strictly increasing order, and no other case.  When a
file of such a pair cannot be opened, the function throws and names it. -/
theorem parse_complete (h : t.OneEach) {order : List DirEntry} (horder : order.Perm t.files) :
    (∃ cases, parseTestcasesFromDir order = .ok cases ∧
      (cases.Pairwise fun c c' => c.sortOrder < c'.sortOrder) ∧
      ∀ c, c ∈ cases ↔ ∃ infile outfile, t.HasBoth c.sortOrder infile outfile ∧
        infile.content = some c.input ∧ outfile.content = some c.output) ∨
    (∃ idx infile outfile e, t.HasBoth idx infile outfile ∧ (e = infile ∨ e = outfile) ∧
      e.content = none ∧ parseTestcasesFromDir order =
        .error (.runtime (ascii "failed to read file: " ++ e.path))) := by
  cases hparse : parseTestcasesFromDir order with
  | ok cases =>
    have htaken := parse_eq_ok_iff.mp hparse
    refine Or.inl ⟨cases, rfl, increasing_of_takenFrom htaken (casePairs_increasing order), ?_⟩
    intro c
    constructor
    · intro hc
      obtain ⟨⟨idx, infile, outfile⟩, hpair, hnumber, hinput, houtput⟩ :=
        exists_of_mem_right htaken hc
      obtain rfl : c.sortOrder = idx := hnumber
      exact ⟨infile, outfile, (h.mem_casePairs_iff horder).mp hpair, hinput, houtput⟩
    · rintro ⟨infile, outfile, hboth, hinput, houtput⟩
      have hpair := (h.mem_casePairs_iff horder).mpr hboth
      obtain ⟨c', hc', hnumber, hinput', houtput'⟩ := exists_of_mem_left htaken hpair
      have hsame : c = c' := by
        obtain ⟨n, input, output⟩ := c
        obtain ⟨n', input', output'⟩ := c'
        obtain rfl : n' = n := hnumber
        obtain rfl : input = input' := Option.some.inj (hinput.symm.trans hinput')
        obtain rfl : output = output' := Option.some.inj (houtput.symm.trans houtput')
        rfl
      exact hsame ▸ hc'
  | error raised =>
    rw [parseTestcasesFromDir_eq] at hparse
    obtain ⟨⟨idx, infile, outfile⟩, hpair, hread⟩ := exists_of_mapM_eq_error hparse
    obtain ⟨e, hfile, hclosed, rfl⟩ := readPair_eq_error hread
    exact Or.inr ⟨idx, infile, outfile, e, (h.mem_casePairs_iff horder).mp hpair, hfile, hclosed,
      rfl⟩

/-- A pair, next to an `.in` file without a partner and a file with another extension. -/
def sampleTree : FileTree where
  files := [⟨ascii "/t/2.in", some (ascii "x")⟩, ⟨ascii "/t/a/1.out", some (ascii "3")⟩,
    ⟨ascii "/t/1.in", some (ascii "1 2")⟩, ⟨ascii "/t/1.txt", none⟩]
  distinct := by decide

theorem parse_complete_sampleTree :
    (∃ cases, parseTestcasesFromDir sampleTree.files = .ok cases ∧
      (cases.Pairwise fun c c' => c.sortOrder < c'.sortOrder) ∧
      ∀ c, c ∈ cases ↔ ∃ infile outfile, sampleTree.HasBoth c.sortOrder infile outfile ∧
        infile.content = some c.input ∧ outfile.content = some c.output) ∨
    (∃ idx infile outfile e, sampleTree.HasBoth idx infile outfile ∧
      (e = infile ∨ e = outfile) ∧ e.content = none ∧ parseTestcasesFromDir sampleTree.files =
        .error (.runtime (ascii "failed to read file: " ++ e.path))) := by
  have hnumbers : ∀ e ∈ sampleTree.files, ∀ e' ∈ sampleTree.files, e.split.2 = e'.split.2 →
      stoi e.split.1 = stoi e'.split.1 → e.path = e'.path := by decide
  refine parse_complete ?_ (List.Perm.refl _)
  intro e he e' he' hext n hn hn'
  exact eq_of_path he he' (hnumbers e he e' he' hext (hn.trans hn'.symm))

example : parseTestcasesFromDir sampleTree.files =
    .ok [⟨1, ascii "1 2", ascii "3"⟩] := by decide

end FileTree

end OnlineJudge.Handler
