/-
# Percent-encoded text

What percent-encoded text means: `%` and two hexadecimal digits stand for one byte, every other byte
for itself, and in a query `+` for a blank (`decode`).  A `%` without two digits behind it is text.

This is the meaning, not the code of a decoder; a decoder is right if it gives the same.  Most are
on texts whose escapes are all well written (`wellEscaped`), and differ in what they make of the
others.

The length facts say how much a reader can lose by starting later: `decode` of a text is at most one
byte shorter than `decode` of its tail (`length_decode_cons`), and with two more bytes in front
never shorter (`length_decode_cons_cons`).  They tell two readers apart by counting, where one of
them has swallowed a byte that the other has kept.
-/
import OnlineJudge.Lib.ByteString

namespace OnlineJudge.Percent

/-- The value of a hexadecimal digit, in capitals or not. -/
def hexValue (c : UInt8) : Option UInt8 :=
  if 48 ≤ c && c ≤ 57 then some (c - 48)
  else if 97 ≤ c && c ≤ 102 then some (c - 97 + 10)
  else if 65 ≤ c && c ≤ 70 then some (c - 65 + 10)
  else none

/-- The byte two hexadecimal digits denote. -/
def hexPair (a b : UInt8) : Option UInt8 := do
  return (← hexValue a) * 16 + (← hexValue b)

/-- A byte outside every escape. -/
def plain (plus : Bool) (c : UInt8) : UInt8 := if c = 43 ∧ plus = true then 32 else c

/-- The byte string a text stands for, from the left: an escape where there is one, and otherwise
the byte itself. -/
def decode (plus : Bool) : Bytes → Bytes
  | c :: a :: b :: rest =>
    if c = 37 then
      match hexPair a b with
      | some v => v :: decode plus rest
      | none => c :: decode plus (a :: b :: rest)
    else plain plus c :: decode plus (a :: b :: rest)
  | c :: rest => plain plus c :: decode plus rest
  | [] => []

theorem decode_escape (plus : Bool) {a b v : UInt8} (h : hexPair a b = some v) (rest : Bytes) :
    decode plus (37 :: a :: b :: rest) = v :: decode plus rest := by
  rw [decode, if_pos rfl, h]

theorem decode_percent (plus : Bool) {a b : UInt8} (h : hexPair a b = none) (rest : Bytes) :
    decode plus (37 :: a :: b :: rest) = 37 :: decode plus (a :: b :: rest) := by
  rw [decode, if_pos rfl, h]

theorem decode_plain (plus : Bool) {c : UInt8} (hc : c ≠ 37) (rest : Bytes) :
    decode plus (c :: rest) = plain plus c :: decode plus rest := by
  match rest with
  | [] => rfl
  | [a] => rfl
  | a :: b :: rest => rw [decode, if_neg hc]

/-- One byte more in front: an escape, or a byte that stands for itself. -/
theorem decode_cons_cases (plus : Bool) (c : UInt8) (rest : Bytes) :
    (∃ a b v tail, rest = a :: b :: tail ∧ c = 37 ∧ hexPair a b = some v) ∨
      (decode plus (c :: rest)).length = (decode plus rest).length + 1 := by
  by_cases hc : c = 37
  · match rest with
    | [] => exact Or.inr rfl
    | [a] => exact Or.inr rfl
    | a :: b :: tail =>
      subst hc
      cases hpair : hexPair a b with
      | none =>
        right
        rw [decode_percent plus hpair, List.length_cons]
      | some v => exact Or.inl ⟨a, b, v, tail, rfl, rfl, hpair⟩
  · right
    rw [decode_plain plus hc, List.length_cons]

/-- A digit is not the mark of an escape. -/
theorem ne_percent_of_hexPair {a b v : UInt8} (h : hexPair a b = some v) : a ≠ 37 ∧ b ≠ 37 := by
  have hmark : hexValue 37 = none := by decide
  constructor
  · rintro rfl
    simp [hexPair, hmark] at h
  · rintro rfl
    simp [hexPair, hmark] at h

theorem length_decode_cons (plus : Bool) (c : UInt8) (rest : Bytes) :
    (decode plus rest).length ≤ (decode plus (c :: rest)).length + 1 := by
  rcases decode_cons_cases plus c rest with ⟨a, b, v, tail, rfl, rfl, hpair⟩ | h
  · obtain ⟨ha, hb⟩ := ne_percent_of_hexPair hpair
    rw [decode_plain plus ha, decode_plain plus hb, decode_escape plus hpair]
    simp only [List.length_cons]
    exact le_refl _
  · omega

theorem length_decode_cons_cons (plus : Bool) (a b : UInt8) (rest : Bytes) :
    (decode plus rest).length ≤ (decode plus (a :: b :: rest)).length := by
  rcases decode_cons_cases plus a (b :: rest) with ⟨b', c, v, tail, hrest, rfl, hpair⟩ | h
  · -- the escape starts at `a` and takes the first byte of `rest`, which is a digit
    obtain ⟨rfl, rfl⟩ := List.cons.inj hrest
    rw [decode_escape plus hpair, decode_plain plus (ne_percent_of_hexPair hpair).2]
    simp only [List.length_cons]
    exact le_refl _
  · have hb := length_decode_cons plus b rest
    omega

/-- Every `%` a reader meets from the left with two bytes behind it is followed by two
hexadecimal digits. -/
def wellEscaped : Bytes → Bool
  | c :: a :: b :: rest =>
    if c = 37 then (hexPair a b).isSome && wellEscaped rest else wellEscaped (a :: b :: rest)
  | _ => true

end OnlineJudge.Percent
