/-
# Header lines and their spellings

A header line is a name, a colon, optional spaces and tabs, and a value.  The letters of a name may
be upper or lower case.  A simple reader cuts a line at the first `: ` and looks names up as they
are written, so that it does not take every spelling alike.

* `cut_of_spaced`: a line with a space right behind the colon is cut there.
* `colon_mem_of_cut`: of any other line what is cut off has the colon in it, and is no name.
* `lookup_cut`: what the reader finds under a name.
* `find_exact_of_once`: where a name stands at most once, the reader finds the value of that line,
  or nothing, and which of the two is decided by one test on the line.

So whether a block of lines is read in the same way in two spellings is a matter of a few tests on
each line, and no longer one of searches in a text.
-/
import Mathlib.Data.List.Basic
import OnlineJudge.Lib.HeaderBlock

namespace ByteString

/-- A header line: no colon in the name, and the value does not begin with a blank. -/
structure FieldLine where
  name : Bytes
  blanks : Bytes
  value : Bytes
  name_ok : 58 ∉ name ∧ InLine name
  blanks_ok : ∀ b ∈ blanks, b = 32 ∨ b = 9
  value_ok : InLine value ∧ ∀ b ∈ value.head?, b ≠ 32 ∧ b ≠ 9
deriving DecidableEq

namespace FieldLine

/-! ## 1. Spellings

What a line says is its name, whatever the case of its letters, and its value.  How it is written is
the case and the blanks; the tests below are those on which a simple reader depends. -/

/-- The line as it is written, without its line end. -/
def text (l : FieldLine) : Bytes := l.name ++ 58 :: (l.blanks ++ l.value)

/-- It has this name, in some case of its letters. -/
def named (name : Bytes) (l : FieldLine) : Bool := l.name.map toLower == name.map toLower

/-- Two spellings of one line: the same name but for the case of its letters, and the same value. -/
structure Same (l l' : FieldLine) : Prop where
  name : l.name.map toLower = l'.name.map toLower
  value : l.value = l'.value

/-- A space stands right behind the colon. -/
def spaced (l : FieldLine) : Bool := l.blanks.head? == some 32

/-- The name is written so, and a space stands right behind the colon. -/
def exact (name : Bytes) (l : FieldLine) : Bool := l.name == name && l.spaced

/-- The name is written so, and there is one space and nothing else between colon and value. -/
def plain (name : Bytes) (l : FieldLine) : Bool := l.name == name && l.blanks == [32]

/-- The reader can cut the line: behind the colon, or somewhere in the value. -/
def readable (l : FieldLine) : Bool := l.spaced || (find (ascii ": ") l.value).isSome

variable {l l' : FieldLine} {name : Bytes}

theorem named_of_exact (h : l.exact name = true) : l.named name = true := by
  rw [exact, Bool.and_eq_true, beq_iff_eq] at h
  rw [named, h.1, beq_self_eq_true]

theorem Same.named_eq (h : Same l l') (name : Bytes) : l.named name = l'.named name := by
  rw [named, named, h.name]

theorem blank_ne (l : FieldLine) {c : UInt8} (h : c ≠ 32 ∧ c ≠ 9) : c ∉ l.blanks := by
  intro hc
  rcases l.blanks_ok c hc with rfl | rfl
  · exact h.1 rfl
  · exact h.2 rfl

theorem inLine_text (l : FieldLine) : InLine l.text := by
  have hblanks : InLine l.blanks := ⟨l.blank_ne (by decide), l.blank_ne (by decide)⟩
  have hcolon : InLine (58 :: (l.blanks ++ l.value)) := by
    have hrest := inLine_append.mpr ⟨hblanks, l.value_ok.1⟩
    exact ⟨by simp [hrest.1], by simp [hrest.2]⟩
  exact inLine_append.mpr ⟨l.name_ok.2, hcolon⟩

theorem text_ne_nil (l : FieldLine) : l.text ≠ [] := by
  rw [text]
  exact List.append_ne_nil_of_right_ne_nil _ (List.cons_ne_nil _ _)

/-! ## 2. Cutting a line

The reader searches the whole line.  Where no space stands behind the colon it may still find the
two bytes within the value, and then takes the wrong part for the name. -/

/-- The line is cut at the first `: `. -/
def cut (l : FieldLine) : Option (Bytes × Bytes) :=
  (find (ascii ": ") l.text).map fun pos => (l.text.take pos, l.text.drop (pos + 2))

/-- What the reader makes of the value of a line that it cuts behind the colon. -/
def seen (l : FieldLine) : Bytes := l.blanks.tail ++ l.value

/-- **A line with a space behind the colon.** -/
theorem cut_of_spaced (h : l.spaced = true) : l.cut = some (l.name, l.seen) := by
  obtain ⟨blanks, hblanks⟩ : ∃ blanks, l.blanks = 32 :: blanks :=
    List.head?_eq_some_iff.mp (beq_iff_eq.mp h)
  have htext : l.text = l.name ++ (ascii ": " ++ l.seen) := by
    rw [text, seen, hblanks]
    rfl
  have hfind : find (ascii ": ") l.text = some l.name.length := by
    have hskip : find (58 :: [32]) (l.name ++ (ascii ": " ++ l.seen)) =
        (find (58 :: [32]) (ascii ": " ++ l.seen)).map (· + l.name.length) :=
      find_append_of_not_mem l.name_ok.1 _
    have hself : find (58 :: [32]) (ascii ": " ++ l.seen) = some 0 := find_self_append _ _
    rw [htext]
    refine hskip.trans ?_
    rw [hself, Option.map_some, Nat.zero_add]
  have hname : l.text.take l.name.length = l.name := by
    rw [htext]
    exact List.take_left
  have hvalue : l.text.drop (l.name.length + 2) = l.seen := by
    rw [htext, ← List.append_assoc]
    exact List.drop_left' (by simp; rfl)
  rw [cut, hfind, Option.map_some, hname, hvalue]

/-- The search goes on behind the colon if no space stands there. -/
theorem find_of_not_spaced (h : l.spaced = false) :
    find (ascii ": ") l.text =
      (find (ascii ": ") l.value).map (· + (l.name.length + 1 + l.blanks.length)) := by
  have hnot : ¬ [58, 32] <+: 58 :: (l.blanks ++ l.value) := by
    intro hpre
    obtain ⟨rest, hrest⟩ := hpre
    have hhead : (l.blanks ++ l.value).head? = some 32 := by
      rw [← (List.cons.inj hrest).2]
      rfl
    cases hblanks : l.blanks with
    | nil =>
      rw [hblanks, List.nil_append] at hhead
      exact (l.value_ok.2 32 hhead).1 rfl
    | cons b blanks =>
      rw [hblanks] at hhead
      rw [spaced, hblanks] at h
      exact absurd (beq_iff_eq.mpr hhead) (Bool.eq_false_iff.mp h)
  have hcolon : find (58 :: [32]) (58 :: (l.blanks ++ l.value)) =
      (find (58 :: [32]) (l.blanks ++ l.value)).map (· + 1) := find_cons hnot
  have hblanks : find (58 :: [32]) (l.blanks ++ l.value) =
      (find (58 :: [32]) l.value).map (· + l.blanks.length) :=
    find_append_of_not_mem (l.blank_ne (by decide)) l.value
  have hskip : find (58 :: [32]) (l.name ++ 58 :: (l.blanks ++ l.value)) =
      (find (58 :: [32]) (58 :: (l.blanks ++ l.value))).map (· + l.name.length) :=
    find_append_of_not_mem l.name_ok.1 _
  rw [hcolon, hblanks, Option.map_map, Option.map_map] at hskip
  refine hskip.trans (congrArg (Option.map · _) ?_)
  funext pos
  simp only [Function.comp_apply]
  omega

/-- **Any other line.**  The colon is in front of where it is cut. -/
theorem colon_mem_of_cut (h : l.spaced = false) {key val : Bytes} (hcut : l.cut = some (key, val)) :
    58 ∈ key := by
  rw [cut, find_of_not_spaced h, Option.map_map, Option.map_eq_some_iff] at hcut
  obtain ⟨pos, -, hcut⟩ := hcut
  have hkey : l.text.take (pos + (l.name.length + 1 + l.blanks.length)) = key :=
    (Prod.mk.inj hcut).1
  have hsplit : pos + (l.name.length + 1 + l.blanks.length) =
      l.name.length + (pos + l.blanks.length + 1) := by omega
  rw [← hkey, hsplit, text, List.take_length_add_append, List.take_succ_cons]
  exact List.mem_append_right _ List.mem_cons_self

theorem cut_isSome (l : FieldLine) : l.cut.isSome = l.readable := by
  cases h : l.spaced with
  | true =>
    rw [cut_of_spaced h, readable, h]
    rfl
  | false =>
    rw [cut, find_of_not_spaced h, readable, h, Option.map_map, Option.isSome_map,
      Bool.false_or]

/-! ## 3. Looking names up

Several lines may have one name.  The reader keeps the first that it can read, which need not be the
first that has the name. -/

/-- Some line has the name written so, and a space right behind the colon. -/
def reads (name : Bytes) (fields : List FieldLine) : Bool := fields.any (exact name)

/-- The value of the first line with this name, in some case of its letters. -/
def valueOf (name : Bytes) (fields : List FieldLine) : Option Bytes :=
  (fields.find? (named name)).map value

/-- **What the reader finds under a name**: it passes over the lines with other spellings. -/
theorem lookup_cut {name : Bytes} (hname : 58 ∉ name) (fields : List FieldLine) :
    (fields.filterMap cut).lookup name = (fields.find? (exact name)).map seen := by
  induction fields with
  | nil => rfl
  | cons l fields ih =>
    cases hspaced : l.spaced with
    | true =>
      rw [List.filterMap_cons_some (cut_of_spaced hspaced), List.lookup_cons, List.find?_cons,
        exact, hspaced, Bool.and_true, ih, Bool.beq_comm]
      cases hl : l.name == name <;> rfl
    | false =>
      have hexact : l.exact name = false := by rw [exact, hspaced, Bool.and_false]
      rw [List.find?_cons, hexact]
      cases hcut : l.cut with
      | none => rw [List.filterMap_cons_none hcut, ih]
      | some kv =>
        have hne : (name == kv.1) = false := by
          refine beq_eq_false_iff_ne.mpr fun heq => hname ?_
          rw [heq]
          exact colon_mem_of_cut hspaced hcut
        rw [List.filterMap_cons_some hcut, List.lookup_cons, hne, ih]

/-- Spellings of the same lines have the same values. -/
theorem valueOf_eq {fields fields' : List FieldLine} (h : List.Forall₂ Same fields fields')
    (name : Bytes) : valueOf name fields = valueOf name fields' := by
  unfold valueOf
  induction h with
  | nil => rfl
  | cons hl _ ih =>
    rw [List.find?_cons, List.find?_cons, hl.named_eq]
    split
    · rw [Option.map_some, Option.map_some, hl.value]
    · exact ih

/-- Where one line at most is of a kind, it is the one that is found. -/
theorem find_of_once {p : FieldLine → Bool} {fields : List FieldLine}
    (honce : (fields.filter p).length ≤ 1) (hl : l ∈ fields) (hp : p l = true) :
    fields.find? p = some l := by
  have hmem : l ∈ fields.filter p := List.mem_filter.mpr ⟨hl, hp⟩
  rw [← List.head?_filter]
  cases hfilter : fields.filter p with
  | nil =>
    rw [hfilter] at hmem
    cases hmem
  | cons first others =>
    rw [hfilter, List.length_cons] at honce
    obtain rfl : others = [] := List.length_eq_zero_iff.mp (by omega)
    rw [hfilter] at hmem
    rw [List.mem_singleton.mp hmem]
    rfl

/-- **Where a name stands at most once**, the reader finds its value, or nothing. -/
theorem find_exact_of_once {name : Bytes} {fields : List FieldLine}
    (honce : (fields.filter (named name)).length ≤ 1) (h : fields.find? (exact name) = some l) :
    valueOf name fields = some l.value := by
  have hl := List.mem_of_find?_eq_some h
  rw [valueOf, find_of_once honce hl (named_of_exact (List.find?_some h)), Option.map_some]

theorem find_exact_isSome (name : Bytes) (fields : List FieldLine) :
    (fields.find? (exact name)).isSome = reads name fields := by
  rw [Bool.eq_iff_iff, List.find?_isSome, reads, List.any_eq_true]

/-- Some line has the name written so, and one space and nothing else behind the colon. -/
def plainly (name : Bytes) (fields : List FieldLine) : Bool := fields.any (plain name)

theorem exact_of_plain (h : l.plain name = true) : l.exact name = true := by
  rw [plain, Bool.and_eq_true, beq_iff_eq, beq_iff_eq] at h
  rw [exact, spaced, h.1, h.2, beq_self_eq_true]
  rfl

/-- Where a name stands at most once, and is read. -/
theorem plainly_eq {name : Bytes} {fields : List FieldLine}
    (honce : (fields.filter (named name)).length ≤ 1) (h : fields.find? (exact name) = some l) :
    plainly name fields = (l.blanks == [32]) := by
  have hl := List.mem_of_find?_eq_some h
  have hexact : l.exact name = true := List.find?_some h
  have hname : (l.name == name) = true := (Bool.and_eq_true _ _ ▸ hexact : _ ∧ _).1
  rw [Bool.eq_iff_iff, plainly, List.any_eq_true]
  constructor
  · rintro ⟨l', hl', hplain⟩
    have hfound := find_of_once honce hl (named_of_exact hexact)
    rw [find_of_once honce hl' (named_of_exact (exact_of_plain hplain))] at hfound
    obtain rfl : l' = l := Option.some.inj hfound
    rw [plain, hname, Bool.true_and] at hplain
    exact hplain
  · intro hblanks
    exact ⟨l, hl, by rw [plain, hname, hblanks, Bool.true_and]⟩

/-- What the reader makes of a value is the value if there is one space only. -/
theorem seen_eq_iff {val : Bytes} (h : l.spaced = true)
    (hval : ∃ b, val.head? = some b ∧ b ≠ 32 ∧ b ≠ 9) :
    l.seen = val ↔ l.blanks = [32] ∧ l.value = val := by
  obtain ⟨blanks, hblanks⟩ : ∃ blanks, l.blanks = 32 :: blanks :=
    List.head?_eq_some_iff.mp (beq_iff_eq.mp h)
  rw [seen, hblanks, List.tail_cons]
  constructor
  · intro hseen
    cases blanks with
    | nil => exact ⟨rfl, hseen⟩
    | cons b blanks =>
      obtain ⟨c, hc, hne⟩ := hval
      rw [← hseen] at hc
      obtain rfl : b = c := Option.some.inj hc
      have hb : b ∈ l.blanks := by simp [hblanks]
      rcases l.blanks_ok b hb with rfl | rfl
      · exact absurd rfl hne.1
      · exact absurd rfl hne.2
  · rintro ⟨hnil, rfl⟩
    rw [(List.cons.inj hnil).2, List.nil_append]

end FieldLine

end ByteString
