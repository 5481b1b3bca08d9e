/-
# Blocks of lines that end with an empty line

A text message begins with a block of lines, each ended by CR LF, and an empty line closes the
block; any bytes may follow.  A reader that looks for the first `CRLFCRLF` has to find the one that
closes the block, whatever the lines say and whatever follows.

* `find_block`: it does, when no line is empty and no line has a CR or an LF in it.
* `splitLines_joinLines`: and the block it has cut off is the lines that were joined.

What follows the block may be anything, a body with line ends of its own included.  Lines that are
continued on the next one are not described: to a reader of this kind they are two lines.
-/
import OnlineJudge.Lib.ByteString

namespace ByteString

/-- `"\r\n"`, the end of a line. -/
def crlf : Bytes := [13, 10]

/-- `"\r\n\r\n"`: the end of the last line, and the empty line. -/
def crlfcrlf : Bytes := [13, 10, 13, 10]

/-- Text that fits on a line: neither of the two bytes of a line end is in it. -/
def InLine (s : Bytes) : Prop := 13 ∉ s ∧ 10 ∉ s

instance (s : Bytes) : Decidable (InLine s) := inferInstanceAs (Decidable (_ ∧ _))

/-- A line of a block: there is no line end in it, and it is not empty, since an empty one would be
the end of the block. -/
structure IsLine (line : Bytes) : Prop where
  inLine : InLine line
  ne_nil : line ≠ []

@[simp] theorem inLine_nil : InLine [] := ⟨List.not_mem_nil, List.not_mem_nil⟩

@[simp] theorem inLine_append {s t : Bytes} : InLine (s ++ t) ↔ InLine s ∧ InLine t := by
  unfold InLine
  rw [List.mem_append, List.mem_append]
  tauto

/-- The lines, with the line ends between them. -/
def joinLines : List Bytes → Bytes
  | [] => []
  | [line] => line
  | line :: lines => line ++ crlf ++ joinLines lines

/-- The text is cut at the line ends. -/
def splitLines : Bytes → List Bytes
  | [] => [[]]
  | 13 :: 10 :: s => [] :: splitLines s
  | b :: s =>
    match splitLines s with
    | [] => [[b]]
    | line :: lines => (b :: line) :: lines

theorem joinLines_cons (line : Bytes) {lines : List Bytes} (h : lines ≠ []) :
    joinLines (line :: lines) = line ++ crlf ++ joinLines lines := by
  cases lines with
  | nil => exact absurd rfl h
  | cons next lines => rfl

/-- Lines that are ended one by one are the joined lines with one more line end. -/
theorem flatten_lines {lines : List Bytes} (h : lines ≠ []) :
    (lines.map (· ++ crlf)).flatten = joinLines lines ++ crlf := by
  induction lines with
  | nil => exact absurd rfl h
  | cons line lines ih =>
    by_cases hlines : lines = []
    · subst hlines
      simp [joinLines]
    · rw [joinLines_cons line hlines, List.map_cons, List.flatten_cons, ih hlines]
      simp only [List.append_assoc]

/-- The first byte of a block does not start a line end. -/
theorem head_joinLines {line : Bytes} (h : IsLine line) (lines : List Bytes) (t : Bytes) :
    ∃ b s, joinLines (line :: lines) ++ t = b :: s ∧ b ≠ 13 ∧ b ≠ 10 := by
  cases line with
  | nil => exact absurd rfl h.ne_nil
  | cons b line =>
    refine ⟨b, ?_⟩
    have hb : b ≠ 13 ∧ b ≠ 10 :=
      ⟨fun hb => h.inLine.1 (hb ▸ List.mem_cons_self),
        fun hb => h.inLine.2 (hb ▸ List.mem_cons_self)⟩
    by_cases hlines : lines = []
    · subst hlines
      exact ⟨line ++ t, rfl, hb⟩
    · rw [joinLines_cons _ hlines]
      exact ⟨line ++ crlf ++ joinLines lines ++ t, by simp only [List.cons_append], hb⟩

/-- A search goes past bytes that do not start what is looked for. -/
theorem find_append_of_not_mem {c : UInt8} {needle pre : Bytes} (h : c ∉ pre) (s : Bytes) :
    find (c :: needle) (pre ++ s) = (find (c :: needle) s).map (· + pre.length) := by
  induction pre with
  | nil => simp
  | cons b pre ih =>
    obtain ⟨hb, hpre⟩ := List.ne_and_not_mem_of_not_mem_cons h
    have hprefix : ¬ (c :: needle).isPrefixOf (b :: (pre ++ s)) = true := by
      rw [List.isPrefixOf_cons_cons, beq_eq_false_iff_ne.mpr hb, Bool.false_and]
      nofun
    rw [List.cons_append, find, if_neg hprefix, ih hpre, Option.map_map]
    rfl

/-- A line end between two lines is not the end of the block. -/
theorem find_crlf_cons {b : UInt8} (hb : b ≠ 13) (s : Bytes) :
    find crlfcrlf (crlf ++ b :: s) = (find crlfcrlf (b :: s)).map (· + 2) := by
  have hfirst : ¬ crlfcrlf.isPrefixOf (13 :: 10 :: b :: s) = true := by
    have hne : ((13 : UInt8) == b) = false := beq_eq_false_iff_ne.mpr (Ne.symm hb)
    simp [crlfcrlf, List.isPrefixOf, hne]
  have hsecond : ¬ crlfcrlf.isPrefixOf (10 :: b :: s) = true := by
    simp [crlfcrlf, List.isPrefixOf]
  have hunfold : find crlfcrlf (crlf ++ b :: s) =
      ((find crlfcrlf (b :: s)).map (· + 1)).map (· + 1) := by
    change find crlfcrlf (13 :: 10 :: b :: s) = _
    rw [find, if_neg hfirst, find, if_neg hsecond]
  rw [hunfold, Option.map_map]
  rfl

/-- **The first `CRLFCRLF` is the end of the block**, as no line of it is empty and none has a line
end in it. -/
theorem find_block {lines : List Bytes} (hne : lines ≠ []) (h : ∀ line ∈ lines, IsLine line)
    (t : Bytes) :
    find crlfcrlf (joinLines lines ++ (crlfcrlf ++ t)) = some (joinLines lines).length := by
  induction lines with
  | nil => exact absurd rfl hne
  | cons line lines ih =>
    have hline := h line List.mem_cons_self
    have hskip : ∀ s, find crlfcrlf (line ++ s) = (find crlfcrlf s).map (· + line.length) :=
      find_append_of_not_mem hline.inLine.1
    cases lines with
    | nil =>
      have hfound : find crlfcrlf (crlfcrlf ++ t) = some 0 := rfl
      rw [joinLines, hskip, hfound, Option.map_some, Nat.zero_add]
    | cons next lines =>
      have hrest := ih (List.cons_ne_nil _ _) fun l hl => h l (List.mem_cons_of_mem _ hl)
      obtain ⟨b, s, hb, hne13, -⟩ := head_joinLines
        (h next (List.mem_cons_of_mem _ List.mem_cons_self)) lines (crlfcrlf ++ t)
      rw [hb] at hrest
      rw [joinLines_cons line (List.cons_ne_nil _ _), List.append_assoc, List.append_assoc, hb,
        hskip, find_crlf_cons hne13, hrest]
      simp only [Option.map_some, List.length_append, Option.some.injEq, crlf, List.length_cons,
        List.length_nil]
      omega

/-- A byte that does not start a line end belongs to the first line. -/
theorem splitLines_cons {b : UInt8} (hb : b ≠ 13) {s line : Bytes} {lines : List Bytes}
    (h : splitLines s = line :: lines) : splitLines (b :: s) = (b :: line) :: lines := by
  rw [splitLines, h]
  intro t hb' _
  exact hb hb'

theorem splitLines_line {line : Bytes} (h : InLine line) : splitLines line = [line] := by
  induction line with
  | nil => rfl
  | cons b line ih =>
    obtain ⟨hb, h13⟩ := List.ne_and_not_mem_of_not_mem_cons h.1
    exact splitLines_cons (Ne.symm hb) (ih ⟨h13, (List.ne_and_not_mem_of_not_mem_cons h.2).2⟩)

/-- A line is read up to its end. -/
theorem splitLines_append {line : Bytes} (h : InLine line) (s : Bytes) :
    splitLines (line ++ crlf ++ s) = line :: splitLines s := by
  induction line with
  | nil => rfl
  | cons b line ih =>
    obtain ⟨hb, h13⟩ := List.ne_and_not_mem_of_not_mem_cons h.1
    exact splitLines_cons (Ne.symm hb) (ih ⟨h13, (List.ne_and_not_mem_of_not_mem_cons h.2).2⟩)

/-- **A block that is cut off is the lines that were joined.** -/
theorem splitLines_joinLines {lines : List Bytes} (hne : lines ≠ [])
    (h : ∀ line ∈ lines, IsLine line) : splitLines (joinLines lines) = lines := by
  induction lines with
  | nil => exact absurd rfl hne
  | cons line lines ih =>
    have hline := (h line List.mem_cons_self).inLine
    cases lines with
    | nil => exact splitLines_line hline
    | cons next lines =>
      have hrest := ih (List.cons_ne_nil _ _) fun l hl => h l (List.mem_cons_of_mem _ hl)
      rw [joinLines_cons line (List.cons_ne_nil _ _), splitLines_append hline, hrest]

/-- Reading a block line by line gives its lines. -/
theorem getlines_joinLines {lines : List Bytes} (hne : lines ≠ [])
    (h : ∀ line ∈ lines, IsLine line) :
    (getlines 10 (joinLines lines)).map (popBack 13) = lines := by
  have hpop : ∀ {line : Bytes}, InLine line → popBack 13 line = line := by
    intro line hline
    rw [popBack, if_neg fun hlast => hline.1 (List.mem_of_getLast? hlast)]
  induction lines with
  | nil => exact absurd rfl hne
  | cons line lines ih =>
    have hline := h line List.mem_cons_self
    cases lines with
    | nil =>
      rw [joinLines, getlines_single hline.inLine.2 hline.ne_nil, List.map_singleton,
        hpop hline.inLine]
    | cons next lines =>
      have hrest := ih (List.cons_ne_nil _ _) fun l hl => h l (List.mem_cons_of_mem _ hl)
      have hten : (10 : UInt8) ∉ line ++ [13] := by
        simp [hline.inLine.2]
      have hsplit : joinLines (line :: next :: lines) =
          (line ++ [13]) ++ 10 :: joinLines (next :: lines) := by
        rw [joinLines_cons line (List.cons_ne_nil _ _)]
        simp [crlf]
      rw [hsplit, getlines_cons hten, List.map_cons, hrest, popBack, if_pos (by simp),
        List.dropLast_concat]

end ByteString
