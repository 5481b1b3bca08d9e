/-
# Base64

The standard alphabet with padding: three bytes are four characters, and a last group of one or two
bytes is filled up with `=`.

* `decode_encode`: what is encoded decodes to itself.
* `encode_shape`: an encoded text is characters of the alphabet and at most two `=` behind them, and
  its length is a multiple of four (`length_encode`).

A decoder that is given something else (a character outside the alphabet, padding in the middle, a
length that is no multiple of four) has no value here.  What a library makes of such a text is its
own business, and whoever needs it has to ask for it.
-/
import Mathlib.Data.List.Basic
import OnlineJudge.Lib.ByteString

namespace Base64

open ByteString

/-! ## 1. Characters

A character is a number below 64.  That the alphabet has no character twice is checked by
evaluation, and so is all that follows from its 64 entries. -/

/-- The alphabet. -/
def alphabet : Bytes :=
  ascii "ABCDEFGHIJKLMNOPQRSTUVWXYZabcdefghijklmnopqrstuvwxyz0123456789+/"

/-- The padding character. -/
def pad : UInt8 := 61

/-- The character of a group of six bits. -/
def digit (n : Nat) : UInt8 := alphabet.getD n pad

/-- The six bits of a character. -/
def value? (b : UInt8) : Option Nat :=
  if alphabet.idxOf b < 64 then some (alphabet.idxOf b) else none

/-- **The characters of the alphabet stand for 64 different values.** -/
theorem value?_digit : ∀ n < 64, value? (digit n) = some n := by decide +kernel

theorem digit_mem : ∀ n < 64, digit n ∈ alphabet := by decide +kernel

theorem pad_not_mem : pad ∉ alphabet := by decide

theorem digit_ne_pad {n : Nat} (h : n < 64) : digit n ≠ pad := fun heq =>
  pad_not_mem (heq ▸ digit_mem n h)

/-! ## 2. Groups

Both directions go group by group.  The last group is the only one that may be short, and its
padding says how short. -/

/-- Three bytes. -/
def encodeThree (a b c : UInt8) : Bytes :=
  [digit (a.toNat / 4), digit (a.toNat % 4 * 16 + b.toNat / 16),
    digit (b.toNat % 16 * 4 + c.toNat / 64), digit (c.toNat % 64)]

/-- Encoding, three bytes at a time. -/
def encode : Bytes → Bytes
  | a :: b :: c :: rest => encodeThree a b c ++ encode rest
  | [a, b] =>
    [digit (a.toNat / 4), digit (a.toNat % 4 * 16 + b.toNat / 16), digit (b.toNat % 16 * 4), pad]
  | [a] => [digit (a.toNat / 4), digit (a.toNat % 4 * 16), pad, pad]
  | [] => []

/-- The first byte of a group of four characters. -/
def firstByte (p q : Nat) : UInt8 := UInt8.ofNat (p * 4 + q / 16)

/-- The second byte. -/
def secondByte (q r : Nat) : UInt8 := UInt8.ofNat (q % 16 * 16 + r / 4)

/-- The third byte. -/
def thirdByte (r s : Nat) : UInt8 := UInt8.ofNat (r % 4 * 64 + s)

/-- Decoding, four characters at a time; the last four may end with padding. -/
def decode : Bytes → Option Bytes
  | a :: b :: c :: d :: rest => do
    let p ← value? a
    let q ← value? b
    if rest = [] ∧ d = pad then
      if c = pad then return [firstByte p q]
      let r ← value? c
      return [firstByte p q, secondByte q r]
    let r ← value? c
    let s ← value? d
    let bytes ← decode rest
    return firstByte p q :: secondByte q r :: thirdByte r s :: bytes
  | [] => some []
  | _ => none

/-! ## 3. The round trip

Each byte of a group is put together again from the bits of two characters: arithmetic on numbers
below 256, by `omega`. -/

theorem firstByte_eq (a : UInt8) {low : Nat} (h : low < 16) :
    firstByte (a.toNat / 4) (a.toNat % 4 * 16 + low) = a := by
  apply UInt8.toNat_inj.mp
  have ha := a.toNat_lt
  rw [firstByte, UInt8.toNat_ofNat']
  omega

theorem secondByte_eq (b : UInt8) {high low : Nat} (h : low < 4) :
    secondByte (high * 16 + b.toNat / 16) (b.toNat % 16 * 4 + low) = b := by
  apply UInt8.toNat_inj.mp
  have hb := b.toNat_lt
  rw [secondByte, UInt8.toNat_ofNat']
  omega

theorem thirdByte_eq (c : UInt8) {high : Nat} :
    thirdByte (high * 4 + c.toNat / 64) (c.toNat % 64) = c := by
  apply UInt8.toNat_inj.mp
  have hc := c.toNat_lt
  rw [thirdByte, UInt8.toNat_ofNat']
  omega

/-- **What is encoded decodes to itself.** -/
theorem decode_encode (bytes : Bytes) : decode (encode bytes) = some bytes := by
  induction bytes using encode.induct with
  | case1 a b c rest ih =>
    have ha := a.toNat_lt
    have hb := b.toNat_lt
    have hc := c.toNat_lt
    have hlast : ¬ (encode rest = [] ∧ digit (c.toNat % 64) = pad) := fun h =>
      digit_ne_pad (Nat.mod_lt _ (by omega)) h.2
    simp only [encode, encodeThree, List.cons_append, List.nil_append, decode,
      value?_digit _ (show a.toNat / 4 < 64 by omega),
      value?_digit _ (show a.toNat % 4 * 16 + b.toNat / 16 < 64 by omega),
      value?_digit _ (show b.toNat % 16 * 4 + c.toNat / 64 < 64 by omega),
      value?_digit _ (show c.toNat % 64 < 64 by omega), if_neg hlast, ih, Option.bind_eq_bind,
      Option.bind_some, firstByte_eq a (show b.toNat / 16 < 16 by omega),
      secondByte_eq b (show c.toNat / 64 < 4 by omega), thirdByte_eq c]
    rfl
  | case2 a b =>
    have ha := a.toNat_lt
    have hb := b.toNat_lt
    have hthird : digit (b.toNat % 16 * 4) ≠ pad := digit_ne_pad (by omega)
    have hsecond : secondByte (a.toNat % 4 * 16 + b.toNat / 16) (b.toNat % 16 * 4 + 0) = b :=
      secondByte_eq b (show 0 < 4 by omega)
    rw [Nat.add_zero] at hsecond
    simp only [encode, decode, value?_digit _ (show a.toNat / 4 < 64 by omega),
      value?_digit _ (show a.toNat % 4 * 16 + b.toNat / 16 < 64 by omega),
      value?_digit _ (show b.toNat % 16 * 4 < 64 by omega), Option.bind_eq_bind,
      Option.bind_some, and_self, if_true, if_neg hthird,
      firstByte_eq a (show b.toNat / 16 < 16 by omega), hsecond]
    rfl
  | case3 a =>
    have ha := a.toNat_lt
    have hfirst := firstByte_eq a (show 0 < 16 by omega)
    rw [Nat.add_zero] at hfirst
    simp only [encode, decode, value?_digit _ (show a.toNat / 4 < 64 by omega),
      value?_digit _ (show a.toNat % 4 * 16 < 64 by omega), Option.bind_eq_bind,
      Option.bind_some, and_self, if_true, hfirst]
    rfl
  | case4 => rfl

/-! ## 4. The text

What a user of an encoded text asks: how long it is, and which characters are in it. -/

/-- Every three bytes, or what is left of them, are four characters. -/
theorem length_encode (bytes : Bytes) : (encode bytes).length = (bytes.length + 2) / 3 * 4 := by
  induction bytes using encode.induct with
  | case1 a b c rest ih =>
    rw [encode, List.length_append, ih, encodeThree]
    simp only [List.length_cons, List.length_nil]
    omega
  | case2 a b => simp [encode]
  | case3 a => simp [encode]
  | case4 => rfl

/-- **Characters of the alphabet, then padding up to a multiple of four**, at most twice. -/
theorem encode_padded (bytes : Bytes) :
    ∃ body k, encode bytes = body ++ List.replicate k pad ∧ (∀ b ∈ body, b ∈ alphabet) ∧ k < 3 ∧
      (body.length + k) % 4 = 0 := by
  induction bytes using encode.induct with
  | case1 a b c rest ih =>
    obtain ⟨body, k, heq, hbody, hk, hlen⟩ := ih
    refine ⟨encodeThree a b c ++ body, k, ?_, ?_, hk, ?_⟩
    · rw [encode, heq, List.append_assoc]
    · have ha := a.toNat_lt
      have hb := b.toNat_lt
      have hc := c.toNat_lt
      intro x hx
      rcases List.mem_append.mp hx with hx | hx
      · simp only [encodeThree, List.mem_cons, List.not_mem_nil, or_false] at hx
        rcases hx with rfl | rfl | rfl | rfl <;> exact digit_mem _ (by omega)
      · exact hbody x hx
    · rw [List.length_append, encodeThree, List.length_cons, List.length_cons, List.length_cons,
        List.length_singleton]
      omega
  | case2 a b =>
    have ha := a.toNat_lt
    have hb := b.toNat_lt
    refine ⟨[digit (a.toNat / 4), digit (a.toNat % 4 * 16 + b.toNat / 16),
      digit (b.toNat % 16 * 4)], 1, rfl, ?_, by omega, by simp⟩
    intro x hx
    simp only [List.mem_cons, List.not_mem_nil, or_false] at hx
    rcases hx with rfl | rfl | rfl <;> exact digit_mem _ (by omega)
  | case3 a =>
    have ha := a.toNat_lt
    refine ⟨[digit (a.toNat / 4), digit (a.toNat % 4 * 16)], 2, rfl, ?_, by omega, by simp⟩
    intro x hx
    simp only [List.mem_cons, List.not_mem_nil, or_false] at hx
    rcases hx with rfl | rfl <;> exact digit_mem _ (by omega)
  | case4 => exact ⟨[], 0, rfl, by simp, by omega, rfl⟩

theorem encode_shape (bytes : Bytes) :
    ∃ body k, encode bytes = body ++ List.replicate k pad ∧ (∀ b ∈ body, b ∈ alphabet) ∧ k < 4 ∧
      (body.length + k) % 4 = 0 := by
  obtain ⟨body, k, heq, hbody, hk, hlen⟩ := encode_padded bytes
  exact ⟨body, k, heq, hbody, by omega, hlen⟩

end Base64
