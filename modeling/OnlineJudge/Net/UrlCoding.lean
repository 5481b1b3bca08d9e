/-
# URL coding

`UrlEncode` against `UrlDecode`, and `UrlDecode` against percent-decoding (`Lib/PercentText`).

* `urlDecode_urlEncode_iff`: coding round-trips on the strings without a byte from 128 to 254.
  `snprintf` gets a negative `int` for such a byte and writes eight digits, of which the buffer
  keeps two, so that each of them is written `%FF` (`urlEncodeByte_negative`).
* `urlDecode_eq_decode_iff`: `UrlDecode` is percent-decoding on the well escaped texts. `HEXTOI`
  takes every letter for a digit and its `-1` is never looked at.

`UrlEncode` is called nowhere in the repository but is part of its utilities, and `UrlDecode` reads
the path and the query of every request.
-/
import OnlineJudge.Lib.PercentText
import OnlineJudge.Net.Pipelining

namespace OnlineJudge.Net.Util

open ByteString Percent

/-! ## 1. `UrlEncode`

A `char` is signed here, so that it is promoted to a negative `int` from 128 on, and `%02X` reads
that as an unsigned number of eight digits. -/

/-- `isalnum` in the C locale, where no negative `char` is a letter. -/
def isalnum (c : UInt8) : Bool :=
  (48 ≤ c && c ≤ 57) || (65 ≤ c && c ≤ 90) || (97 ≤ c && c ≤ 122)

/-- A signed `char` as `printf` reads it for an `unsigned int`: promoted to `int`, so that a
negative one is shifted by 2^32. -/
def promoted (c : UInt8) : Nat := if c < 128 then c.toNat else 2 ^ 32 - 256 + c.toNat

/-- The digit of `n` at the weight `16 ^ k`. -/
def hexDigitAt (n k : Nat) : UInt8 := hexDigit (UInt8.ofNat (n / 16 ^ k % 16))

/-- `%02X` of an `unsigned int`: its digits without leading zeros, at least two of them. -/
def format02X (n : Nat) : Bytes :=
  ([7, 6, 5, 4, 3, 2].map (hexDigitAt n)).dropWhile (fun d => d == 48) ++
    [hexDigitAt n 1, hexDigitAt n 0]

/-- One round of the loop of `UrlEncode`.  `snprintf(tmp, 4, ..)` keeps three characters. -/
def urlEncodeByte (convertSpaceToPlus : Bool) (c : UInt8) : Bytes :=
  if c == 46 || c == 45 || c == 95 || c == 126 || isalnum c then [c]
  else if c == 32 && convertSpaceToPlus then [43]
  else (37 :: format02X (promoted c)).take 3

def urlEncode (convertSpaceToPlus : Bool) (url : Bytes) : Bytes :=
  url.flatMap (urlEncodeByte convertSpaceToPlus)

/-! ## 2. The round trip

One byte is followed through both functions.  The strings that come back are those all of whose
bytes do. -/

/-- What comes back of one byte: itself below 128, and `255` from there on. -/
def survivor (c : UInt8) : UInt8 := if c < 128 then c else 255

theorem format02X_promoted {c : UInt8} (h : c < 128) :
    format02X (promoted c) = [hexDigit (c / 16), hexDigit (c % 16)] := by
  have hc : c.toNat < 128 := UInt8.lt_iff_toNat_lt.mp h
  have hhigh : ∀ k ∈ [7, 6, 5, 4, 3, 2], hexDigitAt (promoted c) k = 48 := by
    intro k hk
    have hzero : c.toNat / 16 ^ k = 0 := by
      refine Nat.div_eq_of_lt (hc.trans_le ?_)
      calc 128 ≤ 16 ^ 2 := by decide
        _ ≤ 16 ^ k := Nat.pow_le_pow_right (by decide) (by simp at hk; omega)
    rw [hexDigitAt, promoted, if_pos h, hzero]
    decide
  have hone : hexDigitAt (promoted c) 1 = hexDigit (c / 16) := by
    rw [hexDigitAt, promoted, if_pos h]
    congr 1
    rw [← UInt8.toNat_inj, UInt8.toNat_div]
    simp
    omega
  have hzero : hexDigitAt (promoted c) 0 = hexDigit (c % 16) := by
    rw [hexDigitAt, promoted, if_pos h]
    congr 1
    rw [← UInt8.toNat_inj, UInt8.toNat_mod]
    simp
    omega
  have hdrop : ([7, 6, 5, 4, 3, 2].map (hexDigitAt (promoted c))).dropWhile
      (fun d => d == 48) = [] := by
    rw [List.dropWhile_eq_nil_iff]
    intro d hd
    obtain ⟨k, hk, rfl⟩ := List.mem_map.mp hd
    simp [hhigh k hk]
  rw [format02X, hdrop, hone, hzero]
  rfl

/-- **A negative `char` loses its digits**: of the eight that are printed the buffer takes the first
two, which are `FF`. -/
theorem urlEncodeByte_negative (plus : Bool) {c : UInt8} (h : 128 ≤ c) :
    urlEncodeByte plus c = [37, 70, 70] := by
  have hc : 128 ≤ c.toNat := UInt8.le_iff_toNat_le.mp h
  have hlt : c.toNat < 256 := c.toNat_lt
  have hdigit : ∀ k, k = 7 ∨ k = 6 → hexDigitAt (promoted c) k = 70 := by
    intro k hk
    have hnot : ¬ c < 128 := UInt8.not_lt.mpr h
    have hvalue : (2 ^ 32 - 256 + c.toNat) / 16 ^ k % 16 = 15 := by
      rcases hk with rfl | rfl <;> omega
    rw [hexDigitAt, promoted, if_neg hnot, hvalue]
    decide
  have hplain : (c == 46 || c == 45 || c == 95 || c == 126 || isalnum c) = false := by
    simp only [isalnum, Bool.or_eq_false_iff, Bool.and_eq_false_iff, beq_eq_false_iff_ne,
      decide_eq_false_iff_not, UInt8.le_iff_toNat_le, ne_eq, ← UInt8.toNat_inj]
    simp only [UInt8.reduceToNat]
    omega
  have hblank : (c == 32 && plus) = false := by
    rw [Bool.and_eq_false_iff, beq_eq_false_iff_ne]
    left
    rintro rfl
    exact absurd h (by decide)
  rw [urlEncodeByte, hplain, hblank, format02X]
  simp [hdigit 7 (Or.inl rfl), hdigit 6 (Or.inr rfl)]

theorem urlDecode_percent (plus : Bool) (a b : UInt8) (rest : Bytes) :
    urlDecode plus (37 :: a :: b :: rest) =
      (hexToI a * 16 + hexToI b) :: urlDecode plus rest := by
  simp [urlDecode]

theorem urlDecode_urlEncodeByte (plus : Bool) (c : UInt8) (rest : Bytes) :
    urlDecode plus (urlEncodeByte plus c ++ rest) = survivor c :: urlDecode plus rest := by
  by_cases hneg : c < 128
  · rw [survivor, if_pos hneg]
    by_cases hplain : (c == 46 || c == 45 || c == 95 || c == 126 || isalnum c) = true
    · have hplus : c ≠ 43 := by
        rintro rfl
        exact absurd hplain (by decide)
      have hpercent : c ≠ 37 := by
        rintro rfl
        exact absurd hplain (by decide)
      rw [urlEncodeByte, if_pos hplain]
      exact urlDecode_cons plus hplus hpercent rest
    · by_cases hblank : (c == 32 && plus) = true
      · obtain ⟨hc, rfl⟩ := (Bool.and_eq_true _ _ ▸ hblank : (c == 32) = true ∧ plus = true)
        obtain rfl := beq_iff_eq.mp hc
        have hspace : urlEncodeByte true 32 = [43] := rfl
        rw [hspace]
        match rest with
        | [] => rfl
        | [a] => rfl
        | a :: b :: rest => rfl
      · rw [urlEncodeByte, if_neg hplain, if_neg hblank, format02X_promoted hneg]
        exact (urlDecode_percent plus _ _ rest).trans
          (congrArg (· :: urlDecode plus rest) (hexDigit_value c))
  · have hff : hexToI 70 * 16 + hexToI 70 = 255 := by decide
    rw [urlEncodeByte_negative plus (UInt8.not_lt.mp hneg), survivor, if_neg hneg, ← hff]
    exact urlDecode_percent plus 70 70 rest

/-- What comes back of a string: every byte below 128 as it was, `255` for the others. -/
theorem urlDecode_urlEncode (plus : Bool) (s : Bytes) :
    urlDecode plus (urlEncode plus s) = s.map survivor := by
  induction s with
  | nil => rfl
  | cons c s ih =>
    rw [urlEncode, List.flatMap_cons, urlDecode_urlEncodeByte]
    exact congrArg (survivor c :: ·) ih

theorem survivor_eq_self_iff (c : UInt8) : survivor c = c ↔ c < 128 ∨ c = 255 := by
  unfold survivor
  split
  · rename_i h
    exact ⟨fun _ => Or.inl h, fun _ => rfl⟩
  · rename_i h
    exact ⟨fun e => Or.inr e.symm, fun e => (e.resolve_left h).symm⟩

/-- **When URL coding round-trips**: on the strings of bytes below 128 and of 255, which is what
every byte from 128 on comes back as. -/
theorem urlDecode_urlEncode_iff (plus : Bool) (s : Bytes) :
    urlDecode plus (urlEncode plus s) = s ↔ ∀ c ∈ s, c < 128 ∨ c = 255 := by
  have hself : s.map survivor = s ↔ ∀ c ∈ s, survivor c = c := by
    rw [← List.map_id s, List.map_map, List.map_inj_left]
    simp
  rw [urlDecode_urlEncode, hself]
  constructor
  · intro h c hc
    exact (survivor_eq_self_iff c).mp (h c hc)
  · intro h c hc
    exact (survivor_eq_self_iff c).mpr (h c hc)

/-- The first byte of `é` in UTF-8 comes back as another one. -/
theorem urlDecode_urlEncode_ne :
    ¬ ∀ (plus : Bool) (s : Bytes), urlDecode plus (urlEncode plus s) = s := by
  intro h
  exact absurd (h false [0xC3, 0xA9]) (by decide)

/-! ## 3. `UrlDecode` and percent-decoding

Both functions go through the text from the left, and they part where a `%` has two bytes behind it
that are not two digits.  From there on the lengths of the results keep them apart. -/

theorem hexToI_of_hexValue {c v : UInt8} (h : hexValue c = some v) : hexToI c = v := by
  unfold hexValue at h
  unfold hexToI
  simp only [Bool.and_eq_true, decide_eq_true_eq] at h ⊢
  grind

/-- On two digits `UrlDecode` reads the byte they denote. -/
theorem hexToI_of_hexPair {a b v : UInt8} (h : hexPair a b = some v) :
    hexToI a * 16 + hexToI b = v := by
  cases ha : hexValue a with
  | none => simp [hexPair, ha] at h
  | some x =>
    cases hb : hexValue b with
    | none => simp [hexPair, ha, hb] at h
    | some y =>
      simp only [hexPair, ha, hb, Option.bind_eq_bind, Option.bind_some, Option.pure_def,
        Option.some.injEq] at h
      rw [hexToI_of_hexValue ha, hexToI_of_hexValue hb, h]

theorem urlDecode_plain (plus : Bool) {c : UInt8} (hc : c ≠ 37) (rest : Bytes) :
    urlDecode plus (c :: rest) = plain plus c :: urlDecode plus rest := by
  match rest with
  | [] => rfl
  | [a] => rfl
  | a :: b :: rest =>
    rw [urlDecode, plain, if_neg hc]
    split <;> rfl

/-- A text too short for an escape. -/
theorem urlDecode_short (plus : Bool) {s : Bytes}
    (h : ∀ c a b rest, s = c :: a :: b :: rest → False) : urlDecode plus s = decode plus s := by
  match s with
  | [] => rfl
  | [c] => rfl
  | [c, a] => rfl
  | c :: a :: b :: rest => exact absurd rfl (h c a b rest)

/-- `UrlDecode` takes every `%` with two bytes behind it for an escape, so that its result is
never the longer one. -/
theorem length_urlDecode_le (plus : Bool) (s : Bytes) :
    (urlDecode plus s).length ≤ (decode plus s).length := by
  induction s using wellEscaped.induct with
  | case1 a b rest ih =>
    rw [urlDecode_percent, List.length_cons]
    cases hpair : hexPair a b with
    | some v =>
      rw [decode_escape plus hpair, List.length_cons]
      exact Nat.succ_le_succ ih
    | none =>
      rw [decode_percent plus hpair, List.length_cons]
      exact Nat.succ_le_succ (ih.trans (length_decode_cons_cons plus a b rest))
  | case2 c a b rest hc ih =>
    rw [urlDecode_plain plus hc, decode_plain plus hc, List.length_cons, List.length_cons]
    exact Nat.succ_le_succ ih
  | case3 s hshort => rw [urlDecode_short plus hshort]

/-- An escape that holds another `%` is never read as a `%`. -/
theorem hexToI_mark_ne {a b : UInt8} (h : a = 37 ∨ b = 37) :
    hexToI a * 16 + hexToI b ≠ 37 := by
  have hmark : (hexToI 37).toNat = 255 := by decide
  have hdigit : hexToI b ≤ 35 ∨ hexToI b = 255 := by
    unfold hexToI
    simp only [Bool.and_eq_true, decide_eq_true_eq]
    grind
  rw [UInt8.le_iff_toNat_le, ← UInt8.toNat_inj] at hdigit
  change (hexToI b).toNat ≤ 35 ∨ (hexToI b).toNat = 255 at hdigit
  rw [Ne, ← UInt8.toNat_inj, UInt8.toNat_add, UInt8.toNat_mul]
  show ¬ ((hexToI a).toNat * 16 % 256 + (hexToI b).toNat) % 256 = 37
  rcases h with rfl | rfl
  · rw [hmark]
    omega
  · rw [hmark]
    omega

/-- A `%` without two digits behind it is not copied. -/
theorem urlDecode_percent_ne (plus : Bool) {a b : UInt8} (h : hexPair a b = none) (rest : Bytes) :
    urlDecode plus (37 :: a :: b :: rest) ≠ decode plus (37 :: a :: b :: rest) := by
  rw [urlDecode_percent, decode_percent plus h]
  intro heq
  obtain ⟨hbyte, htail⟩ := List.cons.inj heq
  by_cases hmark : a = 37 ∨ b = 37
  · exact hexToI_mark_ne hmark hbyte
  · -- both bytes are copied by the reference, which then has too much left
    obtain ⟨ha, hb⟩ := not_or.mp hmark
    rw [decode_plain plus ha, decode_plain plus hb] at htail
    have hlength := length_urlDecode_le plus rest
    rw [htail, List.length_cons, List.length_cons] at hlength
    omega

/-- **When `UrlDecode` is percent-decoding**: on the texts in which every `%` has two digits behind
it. -/
theorem urlDecode_eq_decode_iff (plus : Bool) (s : Bytes) :
    urlDecode plus s = decode plus s ↔ wellEscaped s = true := by
  induction s using wellEscaped.induct with
  | case1 a b rest ih =>
    rw [wellEscaped, if_pos rfl]
    cases hpair : hexPair a b with
    | some v =>
      rw [urlDecode_percent, decode_escape plus hpair, hexToI_of_hexPair hpair, List.cons_inj_right,
        ih]
      rfl
    | none =>
      have hne := urlDecode_percent_ne plus hpair rest
      simp [hne]
  | case2 c a b rest hc ih =>
    rw [urlDecode_plain plus hc, decode_plain plus hc, List.cons_inj_right, ih, wellEscaped,
      if_neg hc]
  | case3 s hshort =>
    have hwell : wellEscaped s = true := by
      match s with
      | [] => rfl
      | [c] => rfl
      | [c, a] => rfl
      | c :: a :: b :: rest => exact absurd rfl (hshort c a b rest)
    exact iff_of_true (urlDecode_short plus hshort) hwell

/-- `%zz` is text, and is read as the byte 83. -/
theorem urlDecode_ne_decode :
    ¬ ∀ (plus : Bool) (s : Bytes), urlDecode plus s = decode plus s := by
  intro h
  exact absurd (h false (ascii "%zz")) (by decide)

end OnlineJudge.Net.Util
