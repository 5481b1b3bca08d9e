/-
# Well-formed UTF-8

A byte string is well-formed UTF-8 when it is a sequence of the byte patterns of the Unicode
standard's table of well-formed sequences: no overlong form, no surrogate, nothing above U+10FFFF,
no truncated character.  The decoder below reads one byte at a time and remembers how many
continuation bytes the current character still owes and in which range the next one has to lie; the
string is well-formed when no byte is refused and nothing is owed at the end.

As an automaton the decoder is a step function, so what is proved of runs in general is used here:
behind a well-formed string it is where it started, and that is all the results need.

* `wellFormed_append`, `wellFormed_append_left`: concatenation, and the converse for a well-formed
  beginning.
* `wellFormed_flatMap`: ASCII characters can be replaced by ASCII texts, which is what an escape
  does.
* `length_le_chars`: a character has at most four bytes.
-/
import OnlineJudge.Lib.ByteString
import OnlineJudge.Lib.Transition

namespace Utf8

/-- The decoder between two bytes: how many bytes the character still owes, and the range of the
next one. -/
structure Pending where
  owed : Nat
  low : UInt8
  high : UInt8
deriving DecidableEq, Repr

/-- Between two characters. -/
def start : Pending := ⟨0, 0x80, 0xBF⟩

/-- The first byte of a character, by the table.  The second byte of some has a smaller range, which
excludes the overlong forms and the surrogates. -/
def lead (b : UInt8) : Option Pending :=
  if b < 0x80 then some start
  else if 0xC2 ≤ b && b ≤ 0xDF then some ⟨1, 0x80, 0xBF⟩
  else if b == 0xE0 then some ⟨2, 0xA0, 0xBF⟩
  else if b == 0xED then some ⟨2, 0x80, 0x9F⟩
  else if 0xE1 ≤ b && b ≤ 0xEF then some ⟨2, 0x80, 0xBF⟩
  else if b == 0xF0 then some ⟨3, 0x90, 0xBF⟩
  else if b == 0xF4 then some ⟨3, 0x80, 0x8F⟩
  else if 0xF1 ≤ b && b ≤ 0xF3 then some ⟨3, 0x80, 0xBF⟩
  else none

/-- One byte. -/
def next (p : Pending) (b : UInt8) : Option Pending :=
  if p.owed = 0 then lead b
  else if p.low ≤ b && b ≤ p.high then some ⟨p.owed - 1, 0x80, 0xBF⟩
  else none

/-- Well-formed UTF-8: no byte is refused, and nothing is owed at the end. -/
def wellFormed (s : Bytes) : Bool := (Transition.exec next start s).any fun p => p.owed == 0

/-- A decoder that owes nothing reads the next byte as a first byte. -/
theorem exec_next_of_owed_eq_zero {p : Pending} (h : p.owed = 0) {s : Bytes} (hs : s ≠ []) :
    Transition.exec next p s = Transition.exec next start s := by
  cases s with
  | nil => exact absurd rfl hs
  | cons b s => simp [Transition.exec_cons, next, h, start]

/-- **Behind a well-formed string decoding starts afresh.**  So a text can be taken apart wherever a
part of it is well-formed. -/
theorem wellFormed_append_left {s : Bytes} (hs : wellFormed s = true) (t : Bytes) :
    wellFormed (s ++ t) = wellFormed t := by
  obtain ⟨p, hp, howed⟩ := (Option.any_eq_true _ _).mp hs
  have hzero : p.owed = 0 := by simpa using howed
  rw [wellFormed, Transition.exec_append, hp, Option.bind_some]
  cases t with
  | nil => exact beq_iff_eq.mpr hzero
  | cons b t =>
    rw [exec_next_of_owed_eq_zero hzero (List.cons_ne_nil b t)]
    rfl

theorem wellFormed_append {s t : Bytes} (hs : wellFormed s = true) (ht : wellFormed t = true) :
    wellFormed (s ++ t) = true := by
  rw [wellFormed_append_left hs, ht]

theorem wellFormed_of_ascii {s : Bytes} (h : ∀ b ∈ s, b < 0x80) : wellFormed s = true := by
  induction s with
  | nil => rfl
  | cons b s ih =>
    have hb : wellFormed [b] = true := by
      simp [wellFormed, Transition.exec_cons, next, lead, start, h b List.mem_cons_self]
    exact wellFormed_append hb (ih fun c hc => h c (List.mem_cons_of_mem _ hc))

/-! ## Replacing characters

An ASCII byte is never a part of a longer character, so it is read between two characters, and what
is put in its place is read there too. -/

/-- What a decoder that owes nothing accepts. -/
theorem accepts_of_owed_eq_zero {p : Pending} (h : p.owed = 0) (s : Bytes) :
    ((Transition.exec next p s).any fun q => q.owed == 0) = wellFormed s := by
  cases s with
  | nil => exact beq_iff_eq.mpr h
  | cons b s => rw [exec_next_of_owed_eq_zero h (List.cons_ne_nil b s), wellFormed]

theorem low_next {p q : Pending} {b : UInt8} (h : next p b = some q) : 0x80 ≤ q.low := by
  have hlead : ∀ n < 256, ∀ q ∈ lead (UInt8.ofNat n), 0x80 ≤ q.low := by decide +kernel
  unfold next at h
  split at h
  · have hspec := hlead b.toNat b.toNat_lt q
    rw [UInt8.ofNat_toNat] at hspec
    exact hspec h
  · split at h
    · obtain rfl := Option.some.inj h
      exact UInt8.le_refl 0x80
    · cases h

/-- **ASCII characters can be replaced by ASCII texts.** -/
theorem wellFormed_flatMap {f : UInt8 → Bytes} (hascii : ∀ b < 0x80, ∀ c ∈ f b, c < 0x80)
    (hother : ∀ b, ¬ b < 0x80 → f b = [b]) {s : Bytes} (hs : wellFormed s = true) :
    wellFormed (s.flatMap f) = true := by
  -- the decoder may be inside a character, so the induction is over all its states
  have hall : ∀ p : Pending, 0x80 ≤ p.low →
      ((Transition.exec next p s).any fun q => q.owed == 0) = true →
      ((Transition.exec next p (s.flatMap f)).any fun q => q.owed == 0) = true := by
    clear hs
    induction s with
    | nil => exact fun _ _ h => h
    | cons b s ih =>
      intro p hlow h
      rw [List.flatMap_cons]
      by_cases hb : b < 0x80
      · by_cases howed : p.owed = 0
        · have hone : wellFormed [b] = true := wellFormed_of_ascii fun c hc =>
            List.mem_singleton.mp hc ▸ hb
          rw [accepts_of_owed_eq_zero howed, ← List.singleton_append,
            wellFormed_append_left hone] at h
          rw [accepts_of_owed_eq_zero howed,
            wellFormed_append_left (wellFormed_of_ascii (hascii b hb))]
          exact ih start (by decide) h
        · have hnone : next p b = none := by
            rw [next, if_neg howed, if_neg]
            intro hrange
            rw [Bool.and_eq_true, decide_eq_true_eq, decide_eq_true_eq] at hrange
            exact absurd (UInt8.lt_of_lt_of_le hb hlow) (UInt8.not_lt.mpr hrange.1)
          rw [Transition.exec_cons, hnone] at h
          cases h
      · rw [hother b hb, List.singleton_append]
        rw [Transition.exec_cons] at h ⊢
        cases hnext : next p b with
        | none =>
          rw [hnext] at h
          cases h
        | some q =>
          rw [hnext] at h
          exact ih q (low_next hnext) h
  exact hall start (by decide) hs

/-! ## Characters

A column of a database counts characters, and a buffer bytes.  The bound connects the two. -/

/-- The number of characters: the bytes that do not continue one. -/
def chars (s : Bytes) : Nat := s.countP fun b => !(0x80 ≤ b && b ≤ 0xBF)

/-- A first byte is counted, and at most three more belong to its character. -/
theorem lead_spec {b : UInt8} {p : Pending} (h : lead b = some p) :
    p.owed ≤ 3 ∧ (!(0x80 ≤ b && b ≤ 0xBF)) = true := by
  have hall : ∀ n < 256, ∀ q ∈ lead (UInt8.ofNat n),
      q.owed ≤ 3 ∧ (!(0x80 ≤ UInt8.ofNat n && UInt8.ofNat n ≤ 0xBF)) = true := by decide +kernel
  have hb : UInt8.ofNat b.toNat = b := UInt8.ofNat_toNat
  have hspec := hall b.toNat b.toNat_lt p
  rw [hb] at hspec
  exact hspec h

/-- What has been read and what is owed is within four bytes a character. -/
theorem length_le_of_exec {p q : Pending} {s : Bytes} (h : Transition.exec next p s = some q) :
    s.length + q.owed ≤ 4 * chars s + p.owed := by
  induction s generalizing p with
  | nil =>
    obtain rfl := Option.some.inj h
    simp [chars]
  | cons b s ih =>
    obtain ⟨p', hnext, hrest⟩ := (Transition.exec_cons_eq_some next).mp h
    have hih := ih hrest
    simp only [chars, List.countP_cons] at hih ⊢
    rw [List.length_cons]
    by_cases howed : p.owed = 0
    · rw [next, if_pos howed] at hnext
      obtain ⟨hthree, hcounted⟩ := lead_spec hnext
      rw [if_pos hcounted]
      omega
    · rw [next, if_neg howed] at hnext
      split at hnext
      · obtain rfl := Option.some.inj hnext
        have hone : p.owed - 1 + 1 = p.owed := by omega
        dsimp only at hih
        omega
      · cases hnext

/-- **A character has at most four bytes.** -/
theorem length_le_chars {s : Bytes} (h : wellFormed s = true) : s.length ≤ 4 * chars s := by
  obtain ⟨q, hq, -⟩ := (Option.any_eq_true _ _).mp h
  have hle := length_le_of_exec hq
  have hstart : start.owed = 0 := rfl
  omega

end Utf8
