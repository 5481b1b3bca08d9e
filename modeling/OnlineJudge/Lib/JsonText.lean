/-
# The text of a JSON document

A printer for JSON documents.  Printers differ in the blanks that follow a comma and a colon and in
how they write a fraction; these are a `Style`.  In a text the quote, the backslash and the control
characters are escaped, and nothing else.

The length of what is printed is a sum over the document (`length_print_arr`, `length_print_obj`),
so whether a document fits somewhere is arithmetic on the lengths of its texts.

* `printing`: a printer and any parser make a `Codec` that raises on ill-formed UTF-8.
* `wellFormed_print`: what it prints of a document in well-formed UTF-8 is well-formed.

Printing is total here, and a codec adds the refusal of a text that is not well-formed.  So the
length of a text can be computed of a document before one knows that it can be printed at all.
-/
import OnlineJudge.Lib.Json

open ByteString

namespace Json

/-! ## 1. Printing

The three functions follow the three shapes of a document: a value, the items of an array, the
members of an object. -/

/-- What a printer is free to choose: what stands between two items, behind a name, and for a
fraction. -/
structure Style where
  comma : Bytes
  colon : Bytes
  float : Rat → Bytes

/-- No blanks. -/
def Style.compact (float : Rat → Bytes) : Style := ⟨ascii ",", ascii ":", float⟩

/-- A blank behind each comma and each colon. -/
def Style.spaced (float : Rat → Bytes) : Style := ⟨ascii ", ", ascii ": ", float⟩

/-- A hexadecimal digit. -/
def hexDigit (n : UInt8) : UInt8 := if n < 10 then 48 + n else 87 + n

/-- The control characters with a short escape, and the two characters that need one. -/
def shortEscapes : List (UInt8 × String) :=
  [(34, "\\\""), (92, "\\\\"), (8, "\\b"), (9, "\\t"), (10, "\\n"), (12, "\\f"), (13, "\\r")]

/-- One byte of a text: as it is, with a short escape, or with four hexadecimal digits. -/
def escape (b : UInt8) : Bytes :=
  match shortEscapes.lookup b with
  | some text => ascii text
  | none => if b < 32 then ascii "\\u00" ++ [hexDigit (b / 16), hexDigit (b % 16)] else [b]

/-- A text between quotes. -/
def quote (s : Bytes) : Bytes := 34 :: (s.flatMap escape ++ [34])

mutual

/-- The text of a document, in this style. -/
def print (st : Style) : Json → Bytes
  | null => ascii "null"
  | bool true => ascii "true"
  | bool false => ascii "false"
  | int n => decimalInt n
  | float x => st.float x
  | str s => quote s
  | arr items => 91 :: (st.comma.intercalate (printItems st items) ++ [93])
  | obj members => 123 :: (st.comma.intercalate (printMembers st members) ++ [125])

/-- The texts of the items of an array. -/
def printItems (st : Style) : List Json → List Bytes
  | [] => []
  | v :: vs => print st v :: printItems st vs

/-- The texts of the members of an object. -/
def printMembers (st : Style) : List (Bytes × Json) → List Bytes
  | [] => []
  | (name, v) :: ms => (quote name ++ st.colon ++ print st v) :: printMembers st ms

end

/-- A codec that prints in this style and parses in any way; it refuses to print a text that is not
well-formed UTF-8. -/
def printing (st : Style) (parse : Bytes → Except Bytes Json) : Codec where
  dump v := if v.utf8 then some (v.print st) else none
  parse := parse

theorem printing_dumpsUtf8 (st : Style) (parse : Bytes → Except Bytes Json) :
    (printing st parse).DumpsUtf8 := by
  intro v
  by_cases hv : v.utf8 = true <;> simp [printing, hv]

/-- An object starts with its first name. -/
theorem exists_print_obj (st : Style) (name : Bytes) (v : Json) (ms : List (Bytes × Json)) :
    ∃ rest, print st (.obj ((name, v) :: ms)) = 123 :: (quote name ++ rest) := by
  have hprefix : ∃ rest, st.comma.intercalate
      ((quote name ++ st.colon ++ print st v) :: printMembers st ms) = quote name ++ rest := by
    cases printMembers st ms with
    | nil =>
      exact ⟨st.colon ++ print st v, by rw [List.intercalate_singleton, List.append_assoc]⟩
    | cons t ts =>
      exact ⟨st.colon ++ (print st v ++ (st.comma ++ st.comma.intercalate (t :: ts))), by
        simp only [List.intercalate_cons_cons, List.append_assoc]⟩
  obtain ⟨rest, hrest⟩ := hprefix
  exact ⟨rest ++ [125], by rw [print, printMembers, hrest, List.append_assoc]⟩

/-! ## 2. What is printed is well-formed

An escape is ASCII, and what is not escaped is copied, so only the texts of the document have to be
well-formed. -/

theorem wellFormed_quote {s : Bytes} (h : Utf8.wellFormed s = true) :
    Utf8.wellFormed (quote s) = true := by
  have hascii : ∀ b < 0x80, ∀ c ∈ escape b, c < 0x80 := by
    have hall : ∀ n < 0x80, ∀ c ∈ escape (UInt8.ofNat n), c < 0x80 := by decide +kernel
    intro b hb
    have hspec := hall b.toNat (UInt8.lt_iff_toNat_lt.mp hb)
    rwa [UInt8.ofNat_toNat] at hspec
  have hother : ∀ b, ¬ b < 0x80 → escape b = [b] := by
    have hall : ∀ n < 256, ¬ UInt8.ofNat n < 0x80 → escape (UInt8.ofNat n) = [UInt8.ofNat n] := by
      decide +kernel
    intro b hb
    have hspec := hall b.toNat b.toNat_lt
    rw [UInt8.ofNat_toNat] at hspec
    exact hspec hb
  have hbody := Utf8.wellFormed_flatMap hascii hother h
  have hquote : Utf8.wellFormed [34] = true := by decide
  show Utf8.wellFormed ([34] ++ (s.flatMap escape ++ [34])) = true
  exact Utf8.wellFormed_append hquote (Utf8.wellFormed_append hbody hquote)

theorem wellFormed_decimalInt (n : Int) : Utf8.wellFormed (decimalInt n) = true := by
  have hdigits : Utf8.wellFormed (decimal n.natAbs) = true := by
    refine Utf8.wellFormed_of_ascii fun b hb => ?_
    have hdigit := isDigit_of_mem_decimal hb
    rw [isDigit, Bool.and_eq_true, decide_eq_true_eq, decide_eq_true_eq] at hdigit
    exact UInt8.lt_of_le_of_lt hdigit.2 (by decide)
  have hminus : Utf8.wellFormed (ascii "-") = true := by decide
  unfold decimalInt
  split
  · exact Utf8.wellFormed_append hminus hdigits
  · exact hdigits

theorem wellFormed_intercalate {sep : Bytes} (hsep : Utf8.wellFormed sep = true)
    {texts : List Bytes} (h : ∀ t ∈ texts, Utf8.wellFormed t = true) :
    Utf8.wellFormed (sep.intercalate texts) = true := by
  induction texts with
  | nil => rfl
  | cons t ts ih =>
    have ht := h t List.mem_cons_self
    have hts := ih fun t' ht' => h t' (List.mem_cons_of_mem t ht')
    cases ts with
    | nil => rwa [List.intercalate_singleton]
    | cons u us =>
      rw [List.intercalate_cons_cons]
      exact Utf8.wellFormed_append (Utf8.wellFormed_append ht hsep) hts

/-- The blanks and the fractions of the style are well-formed. -/
structure Style.WellFormed (st : Style) : Prop where
  comma : Utf8.wellFormed st.comma = true
  colon : Utf8.wellFormed st.colon = true
  float : ∀ x, Utf8.wellFormed (st.float x) = true

mutual

/-- **What is printed is well-formed** UTF-8 if the strings of the document are, and the separators
of the style. -/
theorem wellFormed_print {st : Style} (hst : st.WellFormed) :
    ∀ v : Json, v.utf8 = true → Utf8.wellFormed (print st v) = true
  | null, _ => rfl
  | bool true, _ => rfl
  | bool false, _ => rfl
  | int n, _ => wellFormed_decimalInt n
  | float x, _ => hst.float x
  | str s, h => wellFormed_quote h
  | arr items, h => by
    have hopen : Utf8.wellFormed [91] = true := by decide
    have hclose : Utf8.wellFormed [93] = true := by decide
    have hitems := wellFormed_intercalate hst.comma (wellFormed_printItems hst items h)
    show Utf8.wellFormed ([91] ++ (st.comma.intercalate (printItems st items) ++ [93])) = true
    exact Utf8.wellFormed_append hopen (Utf8.wellFormed_append hitems hclose)
  | obj members, h => by
    have hopen : Utf8.wellFormed [123] = true := by decide
    have hclose : Utf8.wellFormed [125] = true := by decide
    have hmembers := wellFormed_intercalate hst.comma (wellFormed_printMembers hst members h)
    show Utf8.wellFormed ([123] ++ (st.comma.intercalate (printMembers st members) ++ [125])) = true
    exact Utf8.wellFormed_append hopen (Utf8.wellFormed_append hmembers hclose)

theorem wellFormed_printItems {st : Style} (hst : st.WellFormed) :
    ∀ vs : List Json, utf8Items vs = true →
      ∀ t ∈ printItems st vs, Utf8.wellFormed t = true
  | [], _ => by simp [printItems]
  | v :: vs, h => by
    rw [utf8Items, Bool.and_eq_true] at h
    rw [printItems, List.forall_mem_cons]
    exact ⟨wellFormed_print hst v h.1, wellFormed_printItems hst vs h.2⟩

theorem wellFormed_printMembers {st : Style} (hst : st.WellFormed) :
    ∀ ms : List (Bytes × Json), utf8Members ms = true →
      ∀ t ∈ printMembers st ms, Utf8.wellFormed t = true
  | [], _ => by simp [printMembers]
  | (name, v) :: ms, h => by
    rw [utf8Members, Bool.and_eq_true, Bool.and_eq_true] at h
    rw [printMembers, List.forall_mem_cons]
    exact ⟨Utf8.wellFormed_append (Utf8.wellFormed_append (wellFormed_quote h.1.1) hst.colon)
      (wellFormed_print hst v h.1.2), wellFormed_printMembers hst ms h.2⟩

end

/-! ## 3. The length of what is printed

Each collection takes its brackets, its separators and the lengths of its parts.  A bound on the
parts is a bound on the whole. -/

/-- The number of bytes of a text once it is escaped. -/
def escapedLength (s : Bytes) : Nat := (s.flatMap escape).length

theorem length_quote (s : Bytes) : (quote s).length = escapedLength s + 2 := by
  simp [quote, escapedLength]

theorem escapedLength_replicate (n : Nat) (b : UInt8) :
    escapedLength (List.replicate n b) = n * (escape b).length := by
  induction n with
  | zero => simp [escapedLength]
  | succ n ih =>
    rw [escapedLength] at ih ⊢
    rw [List.replicate_succ, List.flatMap_cons, List.length_append, ih, Nat.succ_mul, Nat.add_comm]

theorem length_intercalate (sep : Bytes) (texts : List Bytes) :
    (sep.intercalate texts).length =
      (texts.map List.length).sum + sep.length * (texts.length - 1) := by
  induction texts with
  | nil => rfl
  | cons t ts ih =>
    cases ts with
    | nil => simp
    | cons u us =>
      rw [List.intercalate_cons_cons, List.length_append, List.length_append, ih]
      simp only [List.map_cons, List.sum_cons, List.length_cons, Nat.add_sub_cancel, Nat.mul_succ]
      omega

theorem printItems_eq_map (st : Style) (items : List Json) :
    printItems st items = items.map (print st) := by
  induction items with
  | nil => rfl
  | cons v vs ih => rw [printItems, ih, List.map_cons]

theorem printMembers_eq_map (st : Style) (members : List (Bytes × Json)) :
    printMembers st members = members.map fun m => quote m.1 ++ st.colon ++ m.2.print st := by
  induction members with
  | nil => rfl
  | cons m ms ih => rw [printMembers, ih, List.map_cons]

/-- The number of bytes that a member takes. -/
def memberLength (st : Style) (m : Bytes × Json) : Nat :=
  escapedLength m.1 + 2 + st.colon.length + (m.2.print st).length

/-- **The length of an array**: the brackets, the items, and one separator less than there are
items. -/
theorem length_print_arr (st : Style) (items : List Json) :
    (print st (.arr items)).length =
      2 + (items.map fun v => (v.print st).length).sum + st.comma.length * (items.length - 1) := by
  rw [print, printItems_eq_map, List.length_cons, List.length_append, length_intercalate,
    List.map_map, List.length_map]
  simp only [Function.comp_def, List.length_singleton]
  omega

/-- **The length of an object**: the braces, the members, and one separator less than there are
members. -/
theorem length_print_obj (st : Style) (members : List (Bytes × Json)) :
    (print st (.obj members)).length =
      2 + (members.map (memberLength st)).sum + st.comma.length * (members.length - 1) := by
  have hlength : (members.map fun m => quote m.1 ++ st.colon ++ m.2.print st).map List.length =
      members.map (memberLength st) := by
    rw [List.map_map]
    refine List.map_congr_left fun m _ => ?_
    simp only [Function.comp_apply, List.length_append, length_quote, memberLength]
  rw [print, printMembers_eq_map, List.length_cons, List.length_append, length_intercalate,
    hlength, List.length_map, List.length_singleton]
  omega

end Json
