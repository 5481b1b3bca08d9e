/-
# Reading back what the printer writes

A reader for the texts that `print` writes, in any style whose separators are a comma and a colon
with blanks behind them.  With it there is a codec whose two functions are both given
(`Codec.standard`), and `standard_readsBack` holds for every document without fractions, so that
whoever assumes this of a JSON library assumes something that can be had.

The reader counts its recursive calls down from the length of the text, which is always enough.

* `readText_quote`: an escaped text.
* `readValue_print`: a document, with anything behind it that is not a digit.
-/
import OnlineJudge.Lib.JsonText

open ByteString

namespace Json

/-! ## 1. The reader

Each function takes a text and returns what it has read with what is left behind it.  It accepts
more than JSON does; all that matters is what it makes of printed texts. -/

/-- The value of a hexadecimal digit. -/
def unhex (b : UInt8) : UInt8 := if b < 58 then b - 48 else b - 87

/-- The byte that a short escape stands for. -/
def unescape (b : UInt8) : Option UInt8 :=
  (shortEscapes.find? fun e => ascii e.2 == [92, b]).map Prod.fst

/-- A text behind its opening quote, and what follows the closing one; the escapes of the printer
are undone. -/
def readText : Bytes → Option (Bytes × Bytes)
  | [] => none
  | 34 :: rest => some ([], rest)
  | 92 :: 117 :: 48 :: 48 :: x :: y :: rest =>
    (readText rest).map fun (s, rest) => ((16 * unhex x + unhex y) :: s, rest)
  | 92 :: b :: rest =>
    match unescape b with
    | none => none
    | some c => (readText rest).map fun (s, rest) => (c :: s, rest)
  | b :: rest => (readText rest).map fun (s, rest) => (b :: s, rest)

/-- The digits in front, with what follows them. -/
def readDigits (s : Bytes) : Option (Nat × Bytes) :=
  let digits := s.takeWhile isDigit
  if digits = [] then none else some (digitsValue digits, s.drop digits.length)

/-- A number, with what follows it. -/
def readNumber : Bytes → Option (Int × Bytes)
  | 45 :: s => (readDigits s).map fun (n, rest) => (-n, rest)
  | s => (readDigits s).map fun (n, rest) => (n, rest)

/-- The rest of a text behind this word. -/
def behind (word : String) (s : Bytes) : Option Bytes :=
  if s.take (ascii word).length = ascii word then some (s.drop (ascii word).length) else none

/-- A value that is neither a text nor a collection. -/
def readScalar (s : Bytes) : Option (Json × Bytes) :=
  match behind "null" s, behind "true" s, behind "false" s with
  | some rest, _, _ => some (.null, rest)
  | _, some rest, _ => some (.bool true, rest)
  | _, _, some rest => some (.bool false, rest)
  | _, _, _ => (readNumber s).map fun (n, rest) => (.int n, rest)

/-- The text without the blanks in front. -/
def skipBlanks (s : Bytes) : Bytes := s.dropWhile (· == 32)

mutual

/-- A value, with what follows it. -/
def readValue : Nat → Bytes → Option (Json × Bytes)
  | 0, _ => none
  | _ + 1, 34 :: rest => (readText rest).map fun (s, rest) => (.str s, rest)
  | _ + 1, 91 :: 93 :: rest => some (.arr [], rest)
  | fuel + 1, 91 :: rest => (readItems fuel rest).map fun (vs, rest) => (.arr vs, rest)
  | _ + 1, 123 :: 125 :: rest => some (.obj [], rest)
  | fuel + 1, 123 :: rest => (readMembers fuel rest).map fun (ms, rest) => (.obj ms, rest)
  | _ + 1, s => readScalar s

/-- The items of an array from one of them on. -/
def readItems : Nat → Bytes → Option (List Json × Bytes)
  | 0, _ => none
  | fuel + 1, s =>
    match readValue fuel s with
    | some (v, 44 :: rest) =>
      (readItems fuel (skipBlanks rest)).map fun (vs, rest) => (v :: vs, rest)
    | some (v, 93 :: rest) => some ([v], rest)
    | _ => none

/-- The members of an object from one of them on. -/
def readMembers : Nat → Bytes → Option (List (Bytes × Json) × Bytes)
  | 0, _ => none
  | fuel + 1, 34 :: s =>
    match readText s with
    | some (name, 58 :: rest) =>
      match readValue fuel (skipBlanks rest) with
      | some (v, 44 :: rest) =>
        (readMembers fuel (skipBlanks rest)).map fun (ms, rest) => ((name, v) :: ms, rest)
      | some (v, 125 :: rest) => some ([(name, v)], rest)
      | _ => none
    | _ => none
  | _ + 1, _ => none

end

/-- The document that a text is, with nothing behind it.  Irreducible, so that no unification
runs the reader. -/
@[irreducible] def readDocument (s : Bytes) : Except Bytes Json :=
  match readValue (s.length + 1) s with
  | some (v, []) => .ok v
  | _ => .error (ascii "parse error")

/-- A codec that prints in this style, and whose parser is this reader. -/
def Codec.standard (st : Style) : Codec := printing st readDocument

/-! ## 2. Texts

The printer escapes byte by byte, and so the reader is followed byte by byte. -/

/-- What the reader needs of the escape of a byte. -/
def readsAs (b : UInt8) : Bytes → Bool
  | [c] => c == b && b != 34 && b != 92
  | [92, c] => c != 117 && unescape c == some b
  | [92, 117, 48, 48, x, y] => 16 * unhex x + unhex y == b
  | _ => false

theorem readsAs_escape : ∀ n < 256, readsAs (.ofNat n) (escape (.ofNat n)) = true := by
  decide +kernel

theorem readText_escape (b : UInt8) (rest : Bytes) :
    readText (escape b ++ rest) = (readText rest).map fun (s, rest) => (b :: s, rest) := by
  have hreads : readsAs b (escape b) = true := by
    have h := readsAs_escape b.toNat b.toNat_lt
    rwa [UInt8.ofNat_toNat] at h
  unfold readsAs at hreads
  split at hreads
  · rename_i c heq
    simp only [Bool.and_eq_true, beq_iff_eq, bne_iff_ne] at hreads
    obtain ⟨⟨rfl, hquote⟩, hslash⟩ := hreads
    rw [heq, List.singleton_append, readText.eq_def]
    split <;> simp_all
  · rename_i c heq
    simp only [Bool.and_eq_true, beq_iff_eq, bne_iff_ne] at hreads
    obtain ⟨hu, hc⟩ := hreads
    rw [heq, List.cons_append, List.singleton_append, readText, hc]
    intro x y rest' h117
    exact absurd h117 hu
  · rename_i x y heq
    rw [heq]
    simp only [List.cons_append, List.nil_append, readText, eq_of_beq hreads]
  · cases hreads

/-- **An escaped text** is read to its closing quote, and every escape is undone. -/
theorem readText_quote (s rest : Bytes) :
    readText (s.flatMap escape ++ 34 :: rest) = some (s, rest) := by
  induction s with
  | nil => rfl
  | cons b s ih =>
    rw [List.flatMap_cons, List.append_assoc, readText_escape, ih]
    rfl

/-! ## 3. Numbers and words

A number ends where the digits end.  That is the one place at which the reader depends on what comes
behind a value, and the reason for `NoDigit`. -/

/-- What comes behind a value does not go on with a digit.  A number has no end of its own, and
everything else has. -/
def NoDigit (rest : Bytes) : Prop := ∀ b ∈ rest.head?, isDigit b = false

theorem noDigit_cons {b : UInt8} (h : isDigit b = false) (rest : Bytes) : NoDigit (b :: rest) := by
  intro c hc
  obtain rfl := Option.some.inj hc
  exact h

theorem readDigits_decimal (n : Nat) {rest : Bytes} (h : NoDigit rest) :
    readDigits (decimal n ++ rest) = some (n, rest) := by
  have htake := takeWhile_digits (fun b (hb : b ∈ decimal n) => isDigit_of_mem_decimal hb) h
  simp only [readDigits, htake, decimal_ne_nil, if_false, digitsValue_decimal, List.drop_left]

/-- A number starts with a minus or with a digit. -/
theorem head_decimalInt (n : Int) : ∃ b s, decimalInt n = b :: s ∧ (b = 45 ∨ isDigit b = true) := by
  obtain ⟨b, ds, hds⟩ := List.exists_cons_of_ne_nil (decimal_ne_nil n.natAbs)
  unfold decimalInt
  split
  · exact ⟨45, _, rfl, .inl rfl⟩
  · exact ⟨b, ds, hds, .inr (isDigit_of_mem_decimal (hds ▸ List.mem_cons_self))⟩

/-- **A number** is read to its last digit, so that what comes behind it must not be another one. -/
theorem readNumber_decimalInt (n : Int) {rest : Bytes} (h : NoDigit rest) :
    readNumber (decimalInt n ++ rest) = some (n, rest) := by
  have hread := readDigits_decimal n.natAbs h
  by_cases hn : n < 0
  · have htext : decimalInt n ++ rest = 45 :: (decimal n.natAbs ++ rest) := by
      rw [decimalInt, if_pos hn]
      rfl
    have hneg : -(n.natAbs : Int) = n := by omega
    rw [htext, readNumber, hread, Option.map_some]
    exact congrArg (fun m => some (m, rest)) hneg
  · obtain ⟨b, ds, hds⟩ := List.exists_cons_of_ne_nil (decimal_ne_nil n.natAbs)
    have hdigit : isDigit b = true := isDigit_of_mem_decimal (hds ▸ List.mem_cons_self)
    have hne : b ≠ 45 := by
      rintro rfl
      cases hdigit
    have hpos : (n.natAbs : Int) = n := by omega
    rw [decimalInt, if_neg hn]
    rw [hds, List.cons_append] at hread ⊢
    rw [readNumber, hread, Option.map_some]
    · exact congrArg (fun m => some (m, rest)) hpos
    · rintro s ⟨⟩
      exact hne rfl

/-- A word in front of anything is found, and no other word is. -/
theorem readScalar_words (rest : Bytes) :
    readScalar (ascii "null" ++ rest) = some (.null, rest) ∧
      readScalar (ascii "true" ++ rest) = some (.bool true, rest) ∧
      readScalar (ascii "false" ++ rest) = some (.bool false, rest) := ⟨rfl, rfl, rfl⟩

theorem readScalar_decimalInt (n : Int) {rest : Bytes} (h : NoDigit rest) :
    readScalar (decimalInt n ++ rest) = some (.int n, rest) := by
  have hread := readNumber_decimalInt n h
  obtain ⟨b, s, hs, hb⟩ := head_decimalInt n
  rw [hs, List.cons_append] at hread ⊢
  have hword : ∀ word ∈ ["null", "true", "false"], behind word (b :: (s ++ rest)) = none := by
    intro word hword
    refine if_neg fun htake => ?_
    have hhead : (ascii word).head? = some b := by
      rw [← htake]
      simp only [List.mem_cons, List.not_mem_nil, or_false] at hword
      rcases hword with rfl | rfl | rfl <;> rfl
    simp only [List.mem_cons, List.not_mem_nil, or_false] at hword
    rcases hword with rfl | rfl | rfl
    all_goals
      obtain rfl := Option.some.inj hhead
      rcases hb with hb | hb <;> exact absurd hb (by decide)
  simp only [List.forall_mem_cons] at hword
  simp only [readScalar, hword, hread, Option.map_some]

/-! ## 4. Documents

The induction is on the document, for the reader with any number of calls that is large enough and
with anything behind the document.  Fractions are excluded: a printer may write them in ways that
this reader does not know. -/

/-- The separators are a comma and a colon with blanks behind them. -/
structure Style.Separates (st : Style) : Prop where
  comma : ∃ n, st.comma = 44 :: List.replicate n 32
  colon : ∃ n, st.colon = 58 :: List.replicate n 32

theorem separates_compact (float : Rat → Bytes) : (Style.compact float).Separates :=
  ⟨⟨0, rfl⟩, ⟨0, rfl⟩⟩

mutual

/-- There are no fractions in the document, at any depth. -/
def integral : Json → Bool
  | float _ => false
  | arr items => integralItems items
  | obj members => integralMembers members
  | null | bool _ | int _ | str _ => true

/-- `integral` for the items of an array. -/
def integralItems : List Json → Bool
  | [] => true
  | v :: vs => integral v && integralItems vs

/-- `integral` for the members of an object. -/
def integralMembers : List (Bytes × Json) → Bool
  | [] => true
  | (_, v) :: ms => integral v && integralMembers ms

end

theorem integralItems_map {α : Type*} {f : α → Json} {as : List α}
    (h : ∀ a ∈ as, (f a).integral = true) : integralItems (as.map f) = true := by
  induction as with
  | nil => rfl
  | cons a as ih =>
    rw [List.map_cons, integralItems, h a List.mem_cons_self,
      ih fun b hb => h b (List.mem_cons_of_mem a hb)]
    rfl

/-- A document starts with neither a blank nor a closing bracket. -/
theorem head_print (st : Style) {v : Json} (hv : v.integral = true) :
    ∃ b s, print st v = b :: s ∧ b ≠ 32 ∧ b ≠ 93 := by
  cases v with
  | null => exact ⟨110, _, rfl, by decide, by decide⟩
  | bool b => cases b <;> exact ⟨_, _, rfl, by decide, by decide⟩
  | int n =>
    obtain ⟨b, s, hs, hb⟩ := head_decimalInt n
    refine ⟨b, s, hs, ?_, ?_⟩
    all_goals
      rintro rfl
      rcases hb with hb | hb <;> exact absurd hb (by decide)
  | float x => cases hv
  | str s => exact ⟨34, _, rfl, by decide, by decide⟩
  | arr items => exact ⟨91, _, rfl, by decide, by decide⟩
  | obj members => exact ⟨123, _, rfl, by decide, by decide⟩

theorem skipBlanks_replicate (n : Nat) {s : Bytes} (h : ∀ b ∈ s.head?, b ≠ 32) :
    skipBlanks (List.replicate n 32 ++ s) = s := by
  rw [skipBlanks, List.dropWhile_append_of_pos fun b hb => by
    rw [List.eq_of_mem_replicate hb]
    rfl]
  cases s with
  | nil => rfl
  | cons b s => exact List.dropWhile_cons_of_neg (by simpa using h b rfl)

/-- A value that is no text and no collection is left to `readScalar`. -/
theorem readValue_scalar (fuel : Nat) {b : UInt8} (hquote : b ≠ 34) (hopen : b ≠ 91)
    (hbrace : b ≠ 123) (s : Bytes) : readValue (fuel + 1) (b :: s) = readScalar (b :: s) := by
  rw [readValue] <;> simp_all

/-- The items of an array behind the first. -/
theorem intercalate_cons_cons_append (sep t u : Bytes) (us : List Bytes) (rest : Bytes) :
    sep.intercalate (t :: u :: us) ++ rest = t ++ (sep ++ (sep.intercalate (u :: us) ++ rest)) := by
  rw [List.intercalate_cons_cons, List.append_assoc, List.append_assoc]

theorem length_cons_cons (sep t u : Bytes) (us : List Bytes) :
    (sep.intercalate (t :: u :: us)).length =
      t.length + sep.length + (sep.intercalate (u :: us)).length := by
  rw [List.intercalate_cons_cons, List.length_append, List.length_append, Nat.add_assoc]

/-- The items of an array start as the first of them. -/
theorem exists_intercalate_items (st : Style) {v : Json} (hv : v.integral = true)
    (vs : List Json) : ∃ b s, st.comma.intercalate (printItems st (v :: vs)) = b :: s ∧
      b ≠ 32 ∧ b ≠ 93 := by
  obtain ⟨b, s, hs, hne⟩ := head_print st hv
  rw [printItems]
  cases printItems st vs with
  | nil => exact ⟨b, s, by rw [List.intercalate_singleton, hs], hne⟩
  | cons t ts => exact ⟨b, _, by rw [List.intercalate_cons_cons, hs]; rfl, hne⟩

/-- The members of an object start with a quote. -/
theorem exists_intercalate_members (st : Style) (name : Bytes) (v : Json)
    (ms : List (Bytes × Json)) :
    ∃ s, st.comma.intercalate (printMembers st ((name, v) :: ms)) = 34 :: s := by
  rw [printMembers]
  cases printMembers st ms with
  | nil => exact ⟨_, by rw [List.intercalate_singleton]; rfl⟩
  | cons t ts => exact ⟨_, by rw [List.intercalate_cons_cons]; rfl⟩

section

variable {fuel : Nat} {s rest : Bytes} {name : Bytes} {v : Json}

theorem readItems_comma (h : readValue fuel s = some (v, 44 :: rest)) :
    readItems (fuel + 1) s =
      (readItems fuel (skipBlanks rest)).map fun (vs, rest) => (v :: vs, rest) := by
  rw [readItems, h]
  rfl

theorem readItems_last (h : readValue fuel s = some (v, 93 :: rest)) :
    readItems (fuel + 1) s = some ([v], rest) := by
  rw [readItems, h]
  rfl

theorem readMembers_comma {value : Bytes} (hname : readText s = some (name, 58 :: value))
    (h : readValue fuel (skipBlanks value) = some (v, 44 :: rest)) :
    readMembers (fuel + 1) (34 :: s) =
      (readMembers fuel (skipBlanks rest)).map fun (ms, rest) => ((name, v) :: ms, rest) := by
  rw [readMembers, hname]
  simp [h]

theorem readMembers_last {value : Bytes} (hname : readText s = some (name, 58 :: value))
    (h : readValue fuel (skipBlanks value) = some (v, 125 :: rest)) :
    readMembers (fuel + 1) (34 :: s) = some ([(name, v)], rest) := by
  rw [readMembers, hname]
  simp [h]

end

/-- A member, with something behind it, is its name, the colon, blanks and its value. -/
theorem exists_member {st : Style} (hst : st.Separates) {v : Json} (hv : v.integral = true)
    (name rest : Bytes) :
    ∃ value, quote name ++ st.colon ++ print st v ++ rest =
        34 :: (name.flatMap escape ++ 34 :: 58 :: value) ∧
      readText (name.flatMap escape ++ 34 :: 58 :: value) = some (name, 58 :: value) ∧
      skipBlanks value = print st v ++ rest := by
  obtain ⟨n, hcolon⟩ := hst.colon
  refine ⟨List.replicate n 32 ++ (print st v ++ rest), ?_, readText_quote _ _, ?_⟩
  · simp [quote, hcolon]
  · obtain ⟨b, s, hs, hb, -⟩ := head_print st hv
    refine skipBlanks_replicate n fun c hc => ?_
    rw [hs] at hc
    exact Option.some.inj hc ▸ hb

section

variable {st : Style}

/-- What separates two values does not go on with a digit. -/
theorem noDigit_comma (rest : Bytes) : NoDigit (44 :: rest) := noDigit_cons (by decide) rest

mutual

/-- **A document is read back**, with anything behind it that does not go on with a digit. -/
theorem readValue_print (hst : st.Separates) : ∀ (v : Json) (fuel : Nat) (rest : Bytes),
    v.integral = true → (print st v).length ≤ fuel → NoDigit rest →
      readValue fuel (print st v ++ rest) = some (v, rest)
  | .null, fuel + 1, rest, _, _, _ =>
    (readValue_scalar fuel (by decide) (by decide) (by decide) _).trans (readScalar_words rest).1
  | .bool true, fuel + 1, rest, _, _, _ =>
    (readValue_scalar fuel (by decide) (by decide) (by decide) _).trans (readScalar_words rest).2.1
  | .bool false, fuel + 1, rest, _, _, _ =>
    (readValue_scalar fuel (by decide) (by decide) (by decide) _).trans (readScalar_words rest).2.2
  | .int n, 0, _, _, hfuel, _ => by
    obtain ⟨b, s, hs, -⟩ := head_decimalInt n
    rw [print, hs] at hfuel
    cases hfuel
  | .int n, fuel + 1, rest, _, _, hrest => by
    have hread := readScalar_decimalInt n hrest
    obtain ⟨b, s, hs, hb⟩ := head_decimalInt n
    have hne : b ≠ 34 ∧ b ≠ 91 ∧ b ≠ 123 := by
      refine ⟨?_, ?_, ?_⟩
      all_goals
        rintro rfl
        rcases hb with hb | hb <;> exact absurd hb (by decide)
    rw [print]
    rw [hs, List.cons_append] at hread ⊢
    rw [readValue_scalar fuel hne.1 hne.2.1 hne.2.2, hread]
  | .str s, fuel + 1, rest, _, _, _ => by
    have hquote : print st (.str s) ++ rest = 34 :: (s.flatMap escape ++ 34 :: rest) := by
      rw [print, quote, List.cons_append, List.append_assoc]
      rfl
    rw [hquote, readValue, readText_quote]
    rfl
  | .arr [], fuel + 1, rest, _, _, _ => rfl
  | .arr (v :: vs), fuel + 1, rest, hv, hfuel, _ => by
    have hlength : (st.comma.intercalate (printItems st (v :: vs))).length + 2 =
        (print st (.arr (v :: vs))).length := by
      rw [print, List.length_cons, List.length_append]
      rfl
    have hitems := readItems_print hst v vs fuel rest hv (by omega)
    have htext : print st (.arr (v :: vs)) ++ rest =
        91 :: (st.comma.intercalate (printItems st (v :: vs)) ++ 93 :: rest) := by
      rw [print, List.cons_append, List.append_assoc]
      rfl
    have hv' : v.integral = true := by
      rw [integral, integralItems, Bool.and_eq_true] at hv
      exact hv.1
    obtain ⟨b, s, hs, -, hb⟩ := exists_intercalate_items st hv' vs
    rw [htext]
    rw [hs, List.cons_append] at hitems ⊢
    rw [readValue, hitems]
    · rfl
    · rintro s' ⟨⟩
      exact hb rfl
  | .obj [], fuel + 1, rest, _, _, _ => rfl
  | .obj ((name, v) :: ms), fuel + 1, rest, hv, hfuel, _ => by
    have hlength : (st.comma.intercalate (printMembers st ((name, v) :: ms))).length + 2 =
        (print st (.obj ((name, v) :: ms))).length := by
      rw [print, List.length_cons, List.length_append]
      rfl
    have hmembers := readMembers_print hst name v ms fuel rest hv (by omega)
    have htext : print st (.obj ((name, v) :: ms)) ++ rest =
        123 :: (st.comma.intercalate (printMembers st ((name, v) :: ms)) ++ 125 :: rest) := by
      rw [print, List.cons_append, List.append_assoc]
      rfl
    obtain ⟨s, hs⟩ := exists_intercalate_members st name v ms
    rw [htext]
    rw [hs, List.cons_append] at hmembers ⊢
    rw [readValue, hmembers]
    · rfl
    · rintro s' ⟨⟩

theorem readItems_print (hst : st.Separates) : ∀ (v : Json) (vs : List Json) (fuel : Nat)
    (rest : Bytes), integralItems (v :: vs) = true →
      (st.comma.intercalate (printItems st (v :: vs))).length < fuel →
      readItems fuel (st.comma.intercalate (printItems st (v :: vs)) ++ 93 :: rest) =
        some (v :: vs, rest)
  | v, [], fuel + 1, rest, hv, hfuel => by
    rw [integralItems, Bool.and_eq_true] at hv
    simp only [printItems, List.intercalate_singleton] at hfuel ⊢
    have hvalue := readValue_print hst v fuel (93 :: rest) hv.1 (Nat.le_of_lt_succ hfuel)
      (noDigit_cons (by decide) rest)
    exact readItems_last hvalue
  | v, w :: ws, fuel + 1, rest, hv, hfuel => by
    rw [integralItems, Bool.and_eq_true] at hv
    obtain ⟨n, hcomma⟩ := hst.comma
    simp only [printItems] at hfuel ⊢
    rw [length_cons_cons, hcomma] at hfuel
    have hw : w.integral = true := by
      rw [integralItems, Bool.and_eq_true] at hv
      exact hv.2.1
    have hitems := readItems_print hst w ws fuel rest hv.2 (by
      rw [printItems, hcomma]
      simp only [List.length_cons] at hfuel
      omega)
    obtain ⟨b, s, hs, hb, -⟩ := exists_intercalate_items st hw ws
    rw [printItems] at hs hitems
    have hskip : skipBlanks (List.replicate n 32 ++
        (st.comma.intercalate (print st w :: printItems st ws) ++ 93 :: rest)) =
        st.comma.intercalate (print st w :: printItems st ws) ++ 93 :: rest := by
      refine skipBlanks_replicate n fun c hc => ?_
      rw [hs] at hc
      exact Option.some.inj hc ▸ hb
    have hvalue := readValue_print hst v fuel
      (44 :: (List.replicate n 32 ++
        (st.comma.intercalate (print st w :: printItems st ws) ++ 93 :: rest))) hv.1
      (by omega) (noDigit_comma _)
    rw [intercalate_cons_cons_append]
    nth_rewrite 1 [hcomma]
    rw [List.cons_append, readItems_comma hvalue, hskip, hitems]
    rfl

theorem readMembers_print (hst : st.Separates) : ∀ (name : Bytes) (v : Json)
    (ms : List (Bytes × Json)) (fuel : Nat) (rest : Bytes),
      integralMembers ((name, v) :: ms) = true →
      (st.comma.intercalate (printMembers st ((name, v) :: ms))).length < fuel →
      readMembers fuel (st.comma.intercalate (printMembers st ((name, v) :: ms)) ++ 125 :: rest) =
        some ((name, v) :: ms, rest)
  | name, v, [], fuel + 1, rest, hv, hfuel => by
    rw [integralMembers, Bool.and_eq_true] at hv
    obtain ⟨value, htext, hname, hskip⟩ := exists_member hst hv.1 name (125 :: rest)
    simp only [printMembers, List.intercalate_singleton, List.length_append] at hfuel ⊢
    have hvalue := readValue_print hst v fuel (125 :: rest) hv.1 (by omega)
      (noDigit_cons (by decide) rest)
    rw [htext]
    exact readMembers_last hname (by rw [hskip, hvalue])
  | name, v, (name', w) :: ms, fuel + 1, rest, hv, hfuel => by
    rw [integralMembers, Bool.and_eq_true] at hv
    obtain ⟨n, hcomma⟩ := hst.comma
    simp only [printMembers] at hfuel ⊢
    rw [length_cons_cons, hcomma] at hfuel
    have hmembers := readMembers_print hst name' w ms fuel rest hv.2 (by
      rw [printMembers, hcomma]
      simp only [List.length_cons] at hfuel
      omega)
    obtain ⟨s, hs⟩ := exists_intercalate_members st name' w ms
    rw [printMembers] at hs hmembers
    have hblanks : skipBlanks (List.replicate n 32 ++ (st.comma.intercalate
        ((quote name' ++ st.colon ++ print st w) :: printMembers st ms) ++ 125 :: rest)) =
        st.comma.intercalate ((quote name' ++ st.colon ++ print st w) :: printMembers st ms) ++
          125 :: rest := by
      refine skipBlanks_replicate n fun c hc => ?_
      rw [hs] at hc
      obtain rfl := Option.some.inj hc
      decide
    obtain ⟨value, htext, hname, hskip⟩ := exists_member hst hv.1 name
      (44 :: (List.replicate n 32 ++ (st.comma.intercalate
        ((quote name' ++ st.colon ++ print st w) :: printMembers st ms) ++ 125 :: rest)))
    have hvalue := readValue_print hst v fuel
      (44 :: (List.replicate n 32 ++ (st.comma.intercalate
        ((quote name' ++ st.colon ++ print st w) :: printMembers st ms) ++ 125 :: rest))) hv.1
      (by simp only [List.length_append] at hfuel; omega) (noDigit_comma _)
    rw [intercalate_cons_cons_append]
    nth_rewrite 1 [hcomma]
    rw [List.cons_append, htext, readMembers_comma hname (by rw [hskip, hvalue]), hblanks,
      hmembers]
    rfl

end

end

/-! ## 5. The codec

Printer and reader together.  It is the example by which the laws asked of a JSON library are seen
to be consistent. -/

theorem standard_dumpsUtf8 (st : Style) : (Codec.standard st).DumpsUtf8 := printing_dumpsUtf8 st _

/-- The codec prints in this style whenever it prints. -/
def Codec.Prints (codec : Codec) (st : Style) : Prop :=
  ∀ v text, codec.dump v = some text → text = print st v

theorem printing_prints (st : Style) (parse : Bytes → Except Bytes Json) :
    (printing st parse).Prints st := by
  intro v text htext
  simp only [printing] at htext
  split at htext
  · exact (Option.some.inj htext).symm
  · cases htext

/-- **What the codec prints it reads back**, unless there are fractions in it. -/
theorem standard_readsBack {st : Style} (hst : st.Separates) {v : Json} (hv : v.integral = true) :
    (Codec.standard st).ReadsBack v := by
  intro text htext
  have hprint : text = print st v := printing_prints st _ v text htext
  obtain ⟨b, s, hs, -⟩ := head_print st hv
  have hread := readValue_print hst v (text.length + 1) [] hv
    (by rw [hprint]; omega) nofun
  rw [List.append_nil, ← hprint] at hread
  refine ⟨by rw [hprint, hs]; exact List.cons_ne_nil b s, ?_⟩
  show readDocument text = .ok v
  rw [readDocument, hread]

end Json
