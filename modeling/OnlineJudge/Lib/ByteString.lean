/-
# Byte strings

The strings of the modelled program are byte strings: `char` is an 8-bit value, no encoding is
implied, and a string may hold any byte, NUL included.  They are lists of bytes here, with the parts
of the standard library that the program calls on them: searching (`find`, `findFrom`), decimal
output and input (`decimal`, `strtol`, `stol`, `stoi`), input streams (`readWord`, `readInt`), the
operations that raise when a position lies behind the end (`substr`, `compareEq`), reading line by
line (`getlines`), and the prefix a C function sees of a string that holds a NUL (`cStr`).

* `find_eq_some_iff`: `find` returns the first occurrence.
* `stol_decimal`, `readInt_decimalInt`: reading back what was printed gives the number.
* `cutAt_eq`: cutting a string at an occurrence never raises.

The C locale is assumed throughout, and `long` has 64 bits.
-/
import Mathlib.Algebra.Ring.Int.Defs
import Mathlib.Algebra.Ring.Nat
import Mathlib.Data.List.Basic
import Mathlib.Data.List.TakeWhile
import Mathlib.Tactic.Common

/-- A `std::string`: any bytes. -/
abbrev Bytes := List UInt8

/-- What a conversion of the standard library throws. -/
inductive StdException
  | invalidArgument
  | outOfRange
deriving DecidableEq, Repr

namespace ByteString

/-- The bytes of an ASCII string literal. -/
def ascii (s : String) : Bytes := s.toList.map fun c => c.toNat.toUInt8

/-! ## 1. Searching

A search is specified by where it stops.  Most proofs that follow one do so byte by byte from the
front, and the lemmas below say when a byte can be passed. -/

/-- `s.find(needle)`: the first position at which `needle` occurs; `none` is `npos`. -/
def find (needle : Bytes) : Bytes → Option Nat
  | [] => if needle.isEmpty then some 0 else none
  | b :: s => if needle.isPrefixOf (b :: s) then some 0 else (find needle s).map (· + 1)

theorem find_eq_some {needle s : Bytes} {k : Nat} (h : find needle s = some k) :
    k ≤ s.length ∧ needle <+: s.drop k := by
  induction s generalizing k with
  | nil =>
    simp only [find] at h
    split at h
    · rename_i hempty
      obtain rfl := Option.some.inj h
      rw [List.isEmpty_iff.mp hempty]
      exact ⟨Nat.le_refl _, List.nil_prefix⟩
    · cases h
  | cons b s ih =>
    simp only [find] at h
    split at h
    · rename_i hpre
      obtain rfl := Option.some.inj h
      exact ⟨Nat.zero_le _, List.isPrefixOf_iff_prefix.mp hpre⟩
    · obtain ⟨j, hj, rfl⟩ := Option.map_eq_some_iff.mp h
      obtain ⟨hle, hpre⟩ := ih hj
      exact ⟨Nat.succ_le_succ hle, hpre⟩

theorem find_le {needle s : Bytes} {k : Nat} (hk : needle <+: s.drop k) (hle : k ≤ s.length) :
    ∃ j, find needle s = some j ∧ j ≤ k := by
  induction s generalizing k with
  | nil =>
    have hnil : needle = [] := by simpa using hk
    exact ⟨0, by simp [find, hnil], Nat.zero_le _⟩
  | cons b s ih =>
    by_cases hpre : needle.isPrefixOf (b :: s) = true
    · exact ⟨0, by simp [find, hpre], Nat.zero_le _⟩
    · cases k with
      | zero => exact absurd (List.isPrefixOf_iff_prefix.mpr hk) hpre
      | succ k =>
        obtain ⟨j, hj, hjk⟩ := ih hk (Nat.le_of_succ_le_succ hle)
        exact ⟨j + 1, by simp [find, hpre, hj], Nat.succ_le_succ hjk⟩

/-- **`find` returns the first occurrence**: there is one at `k`, and none before it. -/
theorem find_eq_some_iff {needle s : Bytes} {k : Nat} :
    find needle s = some k ↔
      k ≤ s.length ∧ needle <+: s.drop k ∧ ∀ j < k, ¬ needle <+: s.drop j := by
  constructor
  · intro h
    obtain ⟨hle, hpre⟩ := find_eq_some h
    refine ⟨hle, hpre, fun j hjk hj => ?_⟩
    obtain ⟨i, hi, hij⟩ := find_le hj (by omega)
    rw [h, Option.some.injEq] at hi
    omega
  · rintro ⟨hle, hpre, hmin⟩
    obtain ⟨j, hj, hjk⟩ := find_le hpre hle
    rcases Nat.lt_or_ge j k with hlt | hge
    · exact absurd (find_eq_some hj).2 (hmin j hlt)
    · rw [hj, Nat.le_antisymm hjk hge]

/-- The first occurrence of a single byte. -/
theorem find_singleton_append {c : UInt8} {pre : Bytes} (h : c ∉ pre) (post : Bytes) :
    find [c] (pre ++ c :: post) = some pre.length := by
  induction pre with
  | nil => simp [find]
  | cons b pre ih =>
    obtain ⟨hb, hpre⟩ := List.ne_and_not_mem_of_not_mem_cons h
    simp [find, hb, ih hpre]

theorem find_singleton_of_not_mem {c : UInt8} {s : Bytes} (h : c ∉ s) : find [c] s = none := by
  induction s with
  | nil => rfl
  | cons b s ih =>
    obtain ⟨hb, hs⟩ := List.ne_and_not_mem_of_not_mem_cons h
    simp [find, hb, ih hs]

/-- A string has no `c`, or it has a first one. -/
theorem not_mem_or_first (c : UInt8) (s : Bytes) :
    c ∉ s ∨ ∃ pre post, s = pre ++ c :: post ∧ c ∉ pre := by
  by_cases h : c ∈ s
  · obtain ⟨pre, post, rfl, hpre⟩ := List.eq_append_cons_of_mem h
    exact Or.inr ⟨pre, post, rfl, hpre⟩
  · exact Or.inl h

/-- What begins a text lies in front of a byte of it, or has the byte in it. -/
theorem prefix_append_cons {needle s t : Bytes} {c : UInt8} (h : needle <+: s ++ c :: t) :
    needle <+: s ∨ s ++ [c] <+: needle := by
  by_cases hlen : needle.length ≤ s.length
  · exact Or.inl (List.prefix_of_prefix_length_le h (List.prefix_append s (c :: t)) hlen)
  · refine Or.inr (List.prefix_of_prefix_length_le ⟨t, by simp⟩ h ?_)
    rw [List.length_append, List.length_singleton]
    omega

theorem find_cons_eq_none {needle s : Bytes} {b : UInt8} (h : find needle (b :: s) = none) :
    ¬ needle <+: b :: s ∧ find needle s = none := by
  rw [find] at h
  split at h
  · cases h
  · rename_i hfirst
    exact ⟨mt List.isPrefixOf_iff_prefix.mpr hfirst, Option.map_eq_none_iff.mp h⟩

theorem find_cons {needle s : Bytes} {b : UInt8} (h : ¬ needle <+: b :: s) :
    find needle (b :: s) = (find needle s).map (· + 1) := by
  rw [find, if_neg (mt List.isPrefixOf_iff_prefix.mp h)]

/-- A text without the needle is passed, if the byte behind it is none of the needle's. -/
theorem find_append_cons {needle s : Bytes} {c : UInt8} (hne : needle ≠ []) (hc : c ∉ needle)
    (h : find needle s = none) (t : Bytes) :
    find needle (s ++ c :: t) = (find needle t).map (· + (s.length + 1)) := by
  have hreach : ∀ {s : Bytes}, ¬ s ++ [c] <+: needle := fun hpre => hc (hpre.subset (by simp))
  induction s with
  | nil =>
    rw [List.nil_append, find_cons]
    · rfl
    · intro hpre
      rcases prefix_append_cons (s := []) hpre with hnil | hreach'
      · exact hne (List.prefix_nil.mp hnil)
      · exact hreach hreach'
  | cons b s ih =>
    obtain ⟨hfirst, hrest⟩ := find_cons_eq_none h
    rw [List.cons_append, find_cons, ih hrest, Option.map_map]
    · rfl
    · intro hpre
      rcases prefix_append_cons (s := b :: s) hpre with hin | hreach'
      · exact hfirst hin
      · exact hreach hreach'

theorem find_self_append (needle t : Bytes) : find needle (needle ++ t) = some 0 := by
  rw [find_eq_some_iff]
  exact ⟨Nat.zero_le _, List.prefix_append _ _, fun j hj => absurd hj (Nat.not_lt_zero j)⟩

/-- A needle whose first byte does not occur in it again is found behind a text without it. -/
theorem find_append_needle {needle s : Bytes} {c : UInt8} (hc : c ∉ needle)
    (h : find (c :: needle) s = none) (t : Bytes) :
    find (c :: needle) (s ++ (c :: needle ++ t)) = some s.length := by
  induction s with
  | nil => exact find_self_append _ t
  | cons b s ih =>
    obtain ⟨hfirst, hrest⟩ := find_cons_eq_none h
    rw [List.cons_append, find_cons, ih hrest]
    · rfl
    · intro hpre
      rcases prefix_append_cons (s := b :: s) hpre with hin | hreach
      · exact hfirst hin
      · have htail : s ++ [c] <+: needle := (List.cons_prefix_cons.mp hreach).2
        exact hc (htail.subset (by simp))

/-! ## 2. Decimal numbers

Reading a number skips blanks, takes a sign and stops at the first byte that is no digit, so a text
with anything behind its digits is still read.  The conversions differ in the range that they
accept. -/

/-- `std::to_string` of a nonnegative number. -/
def decimal (n : Nat) : Bytes := (Nat.toDigits 10 n).map fun c => c.toNat.toUInt8

/-- `std::to_string` of a signed number. -/
def decimalInt (n : Int) : Bytes :=
  if n < 0 then ascii "-" ++ decimal n.natAbs else decimal n.natAbs

/-- `isspace` in the C locale. -/
def isSpace (b : UInt8) : Bool := b == 32 || (9 ≤ b && b ≤ 13)

def isDigit (b : UInt8) : Bool := 48 ≤ b && b ≤ 57

/-- The number a string of digits denotes. -/
def digitsValue (ds : Bytes) : Nat := ds.foldl (fun n b => 10 * n + (b.toNat - 48)) 0

/-- `strtol` in base 10: blanks, a sign, then as many digits as there are; `none` when there
is no digit. -/
def strtol (s : Bytes) : Option Int :=
  let t := s.dropWhile isSpace
  let negative := t.head? == some 45
  let u := if t.head? == some 45 || t.head? == some 43 then t.tail else t
  let ds := u.takeWhile isDigit
  if ds.isEmpty then none
  else some (if negative then -(digitsValue ds : Int) else digitsValue ds)

/-- What `strtol` leaves behind the digits. -/
def strtolRest (s : Bytes) : Bytes :=
  let t := s.dropWhile isSpace
  let u := if t.head? == some 45 || t.head? == some 43 then t.tail else t
  u.dropWhile isDigit

/-- `std::stol`, for a 64-bit `long`. -/
def stol (s : Bytes) : Except StdException Int :=
  match strtol s with
  | none => .error .invalidArgument
  | some v => if -2 ^ 63 ≤ v ∧ v < 2 ^ 63 then .ok v else .error .outOfRange

/-- `std::stoi`, for a 32-bit `int`. -/
def stoi (s : Bytes) : Except StdException Int :=
  match strtol s with
  | none => .error .invalidArgument
  | some v => if -2 ^ 31 ≤ v ∧ v < 2 ^ 31 then .ok v else .error .outOfRange

/-- A decimal digit is one byte, and it is that digit. -/
theorem toNat_toUInt8_of_isDigit {c : Char} (h : c.isDigit = true) :
    c.toNat.toUInt8.toNat = c.toNat ∧ isDigit c.toNat.toUInt8 = true := by
  have hrange : 48 ≤ c.toNat ∧ c.toNat ≤ 57 := by
    simp only [Char.isDigit, Bool.and_eq_true, decide_eq_true_eq] at h
    exact ⟨h.1, h.2⟩
  have hval : c.toNat.toUInt8.toNat = c.toNat := by
    rw [Nat.toUInt8, UInt8.toNat_ofNat']
    omega
  refine ⟨hval, ?_⟩
  simp only [isDigit, Bool.and_eq_true, decide_eq_true_eq, UInt8.le_iff_toNat_le, hval]
  exact hrange

theorem isDigit_of_mem_decimal {n : Nat} {b : UInt8} (h : b ∈ decimal n) : isDigit b = true := by
  obtain ⟨c, hc, rfl⟩ := List.mem_map.mp h
  exact (toNat_toUInt8_of_isDigit (Nat.isDigit_of_mem_toDigits (by omega) (by omega) hc)).2

theorem decimal_ne_nil (n : Nat) : decimal n ≠ [] := by
  simp [decimal, Nat.toDigits_ne_nil]

/-- The digits printed for `n` denote `n`. -/
theorem digitsValue_decimal (n : Nat) : digitsValue (decimal n) = n := by
  have hdigits : ∀ c ∈ Nat.toDigits 10 n, c.toNat.toUInt8.toNat = c.toNat := fun c hc =>
    (toNat_toUInt8_of_isDigit (Nat.isDigit_of_mem_toDigits (by omega) (by omega) hc)).1
  rw [digitsValue, decimal, List.foldl_map]
  calc (Nat.toDigits 10 n).foldl (fun m c => 10 * m + (c.toNat.toUInt8.toNat - 48)) 0
      = (Nat.toDigits 10 n).foldl (fun m c => 10 * m + (c.toNat - '0'.toNat)) 0 := by
        refine List.foldl_ext _ _ _ fun m c hc => ?_
        rw [hdigits c hc]
        rfl
    _ = Nat.ofDigitChars 10 (Nat.toDigits 10 n) 0 := Nat.ofDigitChars_eq_foldl.symm
    _ = n := Nat.ofDigitChars_ten_toDigits

/-- A digit is neither a blank nor a sign. -/
theorem not_isSpace_of_isDigit {b : UInt8} (h : isDigit b = true) :
    isSpace b = false ∧ b ≠ 45 ∧ b ≠ 43 := by
  simp only [isDigit, Bool.and_eq_true, decide_eq_true_eq, UInt8.le_iff_toNat_le] at h
  have h48 : (48 : UInt8).toNat = 48 := rfl
  refine ⟨?_, ?_, ?_⟩
  · simp only [isSpace, Bool.or_eq_false_iff, beq_eq_false_iff_ne, ne_eq, Bool.and_eq_false_iff,
      decide_eq_false_iff_not, UInt8.le_iff_toNat_le, ← UInt8.toNat_inj]
    have h32 : (32 : UInt8).toNat = 32 := rfl
    have h13 : (13 : UInt8).toNat = 13 := rfl
    omega
  · rintro rfl
    exact absurd h.1 (by decide)
  · rintro rfl
    exact absurd h.1 (by decide)

/-- As many digits are read as there are. -/
theorem takeWhile_digits {ds post : Bytes} (hdigits : ∀ b ∈ ds, isDigit b = true)
    (hpost : ∀ b ∈ post.head?, isDigit b = false) : (ds ++ post).takeWhile isDigit = ds := by
  have htail : post.takeWhile isDigit = [] := by
    cases post with
    | nil => rfl
    | cons c post => exact List.takeWhile_cons_of_neg (by simp [hpost c rfl])
  rw [List.takeWhile_append_of_pos hdigits, htail, List.append_nil]

/-- Digits behind blanks are read as the number they denote. -/
theorem strtol_digits_append {pre ds post : Bytes} (hpre : ∀ b ∈ pre, isSpace b = true)
    (hds : ds ≠ []) (hdigits : ∀ b ∈ ds, isDigit b = true)
    (hpost : ∀ b ∈ post.head?, isDigit b = false) :
    strtol (pre ++ (ds ++ post)) = some (digitsValue ds : Int) := by
  have htake := takeWhile_digits hdigits hpost
  cases ds with
  | nil => exact absurd rfl hds
  | cons b ds =>
    obtain ⟨hspace, hminus, hplus⟩ := not_isSpace_of_isDigit (hdigits b List.mem_cons_self)
    have hdrop : (pre ++ (b :: ds ++ post)).dropWhile isSpace = b :: ds ++ post := by
      rw [List.dropWhile_append_of_pos hpre, List.cons_append,
        List.dropWhile_cons_of_neg (by simp [hspace])]
    have hsign : ∀ c, b ≠ c → ((b :: ds ++ post).head? == some c) = false := fun c hc => by
      simpa using hc
    simp only [strtol, hdrop, hsign 45 hminus, hsign 43 hplus, Bool.or_self, Bool.false_eq_true,
      if_false, htake, List.isEmpty_cons]

/-- Digits between blanks are read as the number they denote. -/
theorem strtol_digits {pre ds post : Bytes} (hpre : ∀ b ∈ pre, isSpace b = true) (hds : ds ≠ [])
    (hdigits : ∀ b ∈ ds, isDigit b = true) (hpost : ∀ b ∈ post, isDigit b = false) :
    strtol (pre ++ (ds ++ post)) = some (digitsValue ds : Int) :=
  strtol_digits_append hpre hds hdigits fun b hb => hpost b (List.mem_of_mem_head? hb)

/-- **What is printed of a signed number reads back**, whatever is printed behind it but digits. -/
theorem strtol_decimalInt {pre post : Bytes} (hpre : ∀ b ∈ pre, isSpace b = true)
    (hpost : ∀ b ∈ post.head?, isDigit b = false) (n : Int) :
    strtol (pre ++ (decimalInt n ++ post)) = some n := by
  have hdigits : ∀ b ∈ decimal n.natAbs, isDigit b = true := fun b hb => isDigit_of_mem_decimal hb
  have hvalue : (digitsValue (decimal n.natAbs) : Int) = n.natAbs := by rw [digitsValue_decimal]
  by_cases hneg : n < 0
  · have hdrop : (pre ++ (decimalInt n ++ post)).dropWhile isSpace =
        45 :: (decimal n.natAbs ++ post) := by
      rw [List.dropWhile_append_of_pos hpre, decimalInt, if_pos hneg]
      rfl
    have htake := takeWhile_digits hdigits hpost
    have hne : (decimal n.natAbs).isEmpty = false := by simp [decimal_ne_nil]
    simp only [strtol, hdrop, List.head?_cons, beq_self_eq_true, Bool.true_or, if_true,
      List.tail_cons, htake, hne, Bool.false_eq_true, if_false, hvalue]
    congr 1
    omega
  · rw [decimalInt, if_neg hneg, strtol_digits_append hpre (decimal_ne_nil _) hdigits hpost, hvalue]
    congr 1
    omega

theorem stol_digits {pre ds post : Bytes} (hpre : ∀ b ∈ pre, isSpace b = true) (hds : ds ≠ [])
    (hdigits : ∀ b ∈ ds, isDigit b = true) (hpost : ∀ b ∈ post, isDigit b = false)
    (h : digitsValue ds < 2 ^ 63) : stol (pre ++ (ds ++ post)) = .ok (digitsValue ds : Int) := by
  rw [stol, strtol_digits hpre hds hdigits hpost]
  exact if_pos (by omega)

/-- **What is printed reads back**, up to the largest `long`. -/
theorem stol_decimal {n : Nat} (h : n < 2 ^ 63) : stol (decimal n) = .ok (n : Int) := by
  have hread : stol ([] ++ (decimal n ++ [])) = .ok (digitsValue (decimal n) : Int) :=
    stol_digits (by simp) (decimal_ne_nil n) (fun b hb => isDigit_of_mem_decimal hb) (by simp)
      (by rwa [digitsValue_decimal])
  rwa [List.nil_append, List.append_nil, digitsValue_decimal] at hread

/-! ## 3. Input streams

A stream is what is left in it.  An extraction that fails leaves no value, and a program that looks
at the failbit sees that. -/

/-- `stream >> word`: the word, and what is left in the stream; `none` sets the failbit. -/
def readWord (s : Bytes) : Option (Bytes × Bytes) :=
  let t := s.dropWhile isSpace
  if t.isEmpty then none
  else some (t.takeWhile fun b => !isSpace b, t.dropWhile fun b => !isSpace b)

/-- `stream >> number`, for a 32-bit `int`. -/
def readInt (s : Bytes) : Option Int := (stoi s).toOption

theorem readWord_append {word post : Bytes} (hne : word ≠ [])
    (hword : ∀ b ∈ word, isSpace b = false) {blank : UInt8} (hblank : isSpace blank = true) :
    readWord (word ++ blank :: post) = some (word, blank :: post) := by
  cases word with
  | nil => exact absurd rfl hne
  | cons b word =>
    have hb := hword b List.mem_cons_self
    have hdrop : (b :: word ++ blank :: post).dropWhile isSpace = b :: word ++ blank :: post := by
      rw [List.cons_append, List.dropWhile_cons_of_neg (by simp [hb])]
    have hnot : ∀ c ∈ b :: word, (!isSpace c) = true := fun c hc => by simp [hword c hc]
    have hend : (!isSpace blank) = false := by simp [hblank]
    have htake : (b :: word ++ blank :: post).takeWhile (fun c => !isSpace c) = b :: word := by
      rw [List.takeWhile_append_of_pos hnot, List.takeWhile_cons_of_neg (by simp [hend]),
        List.append_nil]
    have hrest : (b :: word ++ blank :: post).dropWhile (fun c => !isSpace c) = blank :: post := by
      rw [List.dropWhile_append_of_pos hnot, List.dropWhile_cons_of_neg (by simp [hend])]
    simp only [readWord, hdrop, htake, hrest]
    rfl

/-- **A number reads back**, with any white space in front, and with anything behind it that is no
digit. -/
theorem readInt_decimalInt {pre post : Bytes} (hpre : ∀ b ∈ pre, isSpace b = true)
    (hpost : ∀ b ∈ post.head?, isDigit b = false) {n : Int} (h : -2 ^ 31 ≤ n ∧ n < 2 ^ 31) :
    readInt (pre ++ (decimalInt n ++ post)) = some n := by
  rw [readInt, stoi, strtol_decimalInt hpre hpost n]
  simp only [if_pos h]
  rfl

/-! ## 4. Substrings

The operations with a position raise if it lies behind the end.  A program that takes its positions
from a search is safe, which `cutAt_eq` says for the idiom it uses. -/

/-- `s.substr(pos, n)`. -/
def substr (s : Bytes) (pos n : Nat) : Except StdException Bytes :=
  if s.length < pos then .error .outOfRange else .ok ((s.drop pos).take n)

/-- `s.substr(pos)`. -/
def substrFrom (s : Bytes) (pos : Nat) : Except StdException Bytes :=
  if s.length < pos then .error .outOfRange else .ok (s.drop pos)

/-- `s.compare(pos, n, t) == 0`. -/
def compareEq (s : Bytes) (pos n : Nat) (t : Bytes) : Except StdException Bool :=
  (substr s pos n).map (· == t)

theorem substr_eq {s : Bytes} {pos : Nat} (n : Nat) (h : pos ≤ s.length) :
    substr s pos n = .ok ((s.drop pos).take n) := if_neg (Nat.not_lt_of_le h)

theorem substrFrom_eq {s : Bytes} {pos : Nat} (h : pos ≤ s.length) :
    substrFrom s pos = .ok (s.drop pos) := if_neg (Nat.not_lt_of_le h)

theorem compareEq_eq {s : Bytes} {pos : Nat} (n : Nat) (t : Bytes) (h : pos ≤ s.length) :
    compareEq s pos n t = .ok ((s.drop pos).take n == t) := by
  rw [compareEq, substr_eq n h]
  rfl

/-- `s.find(needle, pos)`. -/
def findFrom (needle s : Bytes) (pos : Nat) : Option Nat :=
  if s.length < pos then none else (find needle (s.drop pos)).map (· + pos)

/-- What `findFrom` finds lies between `pos` and the end. -/
theorem findFrom_eq_some {needle s : Bytes} {pos k : Nat} (h : findFrom needle s pos = some k) :
    pos ≤ k ∧ k + needle.length ≤ s.length := by
  unfold findFrom at h
  split at h
  · cases h
  · obtain ⟨j, hj, rfl⟩ := Option.map_eq_some_iff.mp h
    obtain ⟨hle, hpre⟩ := find_eq_some hj
    have hlen := hpre.length_le
    rw [List.length_drop] at hle
    rw [List.length_drop, List.length_drop] at hlen
    omega

theorem prefix_of_findFrom {needle s : Bytes} {pos k : Nat} (h : findFrom needle s pos = some k) :
    needle <+: s.drop k ∧ ∀ j, pos ≤ j → j < k → ¬ needle <+: s.drop j := by
  unfold findFrom at h
  split at h
  · cases h
  · obtain ⟨k', hk', rfl⟩ := Option.map_eq_some_iff.mp h
    obtain ⟨-, hfound, hfirst⟩ := find_eq_some_iff.mp hk'
    rw [List.drop_drop, Nat.add_comm] at hfound
    refine ⟨hfound, fun j hpos hj => ?_⟩
    have hnot := hfirst (j - pos) (by omega)
    rwa [List.drop_drop, Nat.add_sub_cancel' hpos] at hnot

theorem findFrom_append (needle before s : Bytes) :
    findFrom needle (before ++ s) before.length = (find needle s).map (· + before.length) := by
  rw [findFrom, if_neg (by simp), List.drop_left]

/-- The parts of `s` before and behind the first occurrence of `sep`: the idiom
`pos = s.find(sep)`, `s.substr(0, pos)`, `s.substr(pos + sep.size())`; `none` is `npos`. -/
def cutAt (sep s : Bytes) : Except StdException (Option (Bytes × Bytes)) :=
  match find sep s with
  | none => .ok none
  | some pos => do
    let before ← substr s 0 pos
    let behind ← substrFrom s (pos + sep.length)
    return some (before, behind)

/-- **Cutting at an occurrence never raises**, since both offsets lie inside the string. -/
theorem cutAt_eq (sep s : Bytes) :
    cutAt sep s = .ok ((find sep s).map fun pos => (s.take pos, s.drop (pos + sep.length))) := by
  unfold cutAt
  cases hpos : find sep s with
  | none => rfl
  | some pos =>
    have hlen := (find_eq_some hpos).2.length_le
    have hle := (find_eq_some hpos).1
    rw [List.length_drop] at hlen
    have hbehind : substrFrom s (pos + sep.length) = .ok (s.drop (pos + sep.length)) :=
      substrFrom_eq (by omega)
    simp only [substr_eq pos (Nat.zero_le s.length), hbehind, List.drop_zero]
    rfl

/-- The parts of `s` around the first two occurrences of `sep`: the idiom `p1 = s.find(sep)`,
`p2 = s.find(sep, p1 + 1)`, `s.substr(0, p1)`, `s.substr(p1 + 1, p2 - (p1 + 1))`,
`s.substr(p2 + 1)`; `none` when one of them is `npos`. -/
def splitTwice (sep : UInt8) (s : Bytes) : Option (Bytes × Bytes × Bytes) := do
  let p1 ← find [sep] s
  let p2 ← findFrom [sep] s (p1 + 1)
  return (s.take p1, (s.drop (p1 + 1)).take (p2 - (p1 + 1)), s.drop (p2 + 1))

/-- **The three parts are the string, and the first two have no separator.** -/
theorem splitTwice_eq_some {sep : UInt8} {s a b c : Bytes} :
    splitTwice sep s = some (a, b, c) ↔ s = a ++ sep :: (b ++ sep :: c) ∧ sep ∉ a ∧ sep ∉ b := by
  have hsplit : ∀ x y z : Bytes, sep ∉ x → sep ∉ y →
      splitTwice sep (x ++ sep :: (y ++ sep :: z)) = some (x, y, z) := by
    intro x y z hx hy
    have hdrop : (x ++ sep :: (y ++ sep :: z)).drop (x.length + 1) = y ++ sep :: z := by
      rw [← List.drop_drop, List.drop_left, List.drop_one, List.tail_cons]
    have hlen : ¬ (x ++ sep :: (y ++ sep :: z)).length < x.length + 1 := by
      rw [List.length_append, List.length_cons]
      omega
    have hsecond : findFrom [sep] (x ++ sep :: (y ++ sep :: z)) (x.length + 1) =
        some (y.length + (x.length + 1)) := by
      rw [findFrom, if_neg hlen, hdrop, find_singleton_append hy, Option.map_some]
    have hlast : (x ++ sep :: (y ++ sep :: z)).drop (y.length + (x.length + 1) + 1) = z := by
      rw [show y.length + (x.length + 1) + 1 = x.length + 1 + (y.length + 1) by omega,
        ← List.drop_drop, hdrop, ← List.drop_drop, List.drop_left, List.drop_one, List.tail_cons]
    simp only [splitTwice, find_singleton_append hx, hsecond, Option.bind_eq_bind,
      Option.bind_some, List.take_left, hdrop, hlast, Nat.add_sub_cancel]
    rfl
  constructor
  · intro h
    rcases not_mem_or_first sep s with hnone | ⟨x, rest, rfl, hx⟩
    · rw [splitTwice, find_singleton_of_not_mem hnone] at h
      cases h
    · rcases not_mem_or_first sep rest with hnone | ⟨y, z, rfl, hy⟩
      · have hdrop : (x ++ sep :: rest).drop (x.length + 1) = rest := by
          rw [← List.drop_drop, List.drop_left, List.drop_one, List.tail_cons]
        have hsecond : findFrom [sep] (x ++ sep :: rest) (x.length + 1) = none := by
          rw [findFrom, hdrop, find_singleton_of_not_mem hnone]
          split <;> rfl
        simp only [splitTwice, find_singleton_append hx, hsecond, Option.bind_eq_bind,
          Option.bind_some, Option.bind_none] at h
        cases h
      · rw [hsplit x y z hx hy, Option.some.injEq, Prod.mk.injEq, Prod.mk.injEq] at h
        obtain ⟨rfl, rfl, rfl⟩ := h
        exact ⟨rfl, hx, hy⟩
  · rintro ⟨rfl, ha, hb⟩
    exact hsplit a b c ha hb

/-- `if (!s.empty() && s.back() == b) s.pop_back()`. -/
def popBack (b : UInt8) (s : Bytes) : Bytes := if s.getLast? = some b then s.dropLast else s

/-- `if (!s.empty() && s.front() == b) s.erase(s.begin())`. -/
def popFront (b : UInt8) (s : Bytes) : Bytes := if s.head? = some b then s.tail else s

/-- The lines that `std::getline` reads off a stream until it fails: a last piece without a
delimiter counts unless it is empty. -/
def getlines (delim : UInt8) (s : Bytes) : List Bytes :=
  let pieces := s.splitOn delim
  if pieces.getLast? = some [] then pieces.dropLast else pieces

theorem getlines_cons {delim : UInt8} {line : Bytes} (hline : delim ∉ line) (rest : Bytes) :
    getlines delim (line ++ delim :: rest) = line :: getlines delim rest := by
  have hne : rest.splitOn delim ≠ [] := List.splitOn_ne_nil delim rest
  have hsplit : (line ++ delim :: rest).splitOn delim = line :: rest.splitOn delim := by
    rw [List.splitOn_append_cons_self, List.splitOn_eq_singleton hline, List.singleton_append]
  have hlast : (line :: rest.splitOn delim).getLast? = (rest.splitOn delim).getLast? := by
    cases hpieces : rest.splitOn delim with
    | nil => exact absurd hpieces hne
    | cons piece pieces => rfl
  rw [getlines, getlines, hsplit, hlast]
  split
  · exact List.dropLast_cons_of_ne_nil hne
  · rfl

theorem getlines_single {delim : UInt8} {line : Bytes} (hline : delim ∉ line) (hne : line ≠ []) :
    getlines delim line = [line] := by
  rw [getlines, List.splitOn_eq_singleton hline, if_neg (by simpa using hne)]

/-- `toupper` in the C locale, which leaves every byte from 128 on alone. -/
def toUpper (b : UInt8) : UInt8 := if 97 ≤ b && b ≤ 122 then b - 32 else b

/-- `tolower` in the C locale. -/
def toLower (b : UInt8) : UInt8 := if 65 ≤ b && b ≤ 90 then b + 32 else b

/-- The string a C function sees: what is in front of the first NUL. -/
def cStr (s : Bytes) : Bytes := s.takeWhile (· != 0)

/-- Without a NUL it is the whole string. -/
theorem cStr_of_not_mem {s : Bytes} (h : 0 ∉ s) : cStr s = s := by
  refine List.takeWhile_eq_self_iff.mpr ?_
  intro b hb
  exact bne_iff_ne.mpr (ne_of_mem_of_not_mem hb h)

end ByteString
