/-
# The base64url round trip, for texts of any size

`ToBase64` and `FromBase64` (`utils/crypto.cpp`) hand sizes to OpenSSL as an `int`, and `FromBase64`
takes an empty result for an error.  The functions here do so too, and OpenSSL is a parameter as in
`Auth.Crypto`: of its filter it is assumed that it writes and reads padded base64.

* `Sized.base64UrlEncode_eq`, `Sized.base64UrlDecode_eq`: for texts that fit these functions are
  those of `Auth.Crypto`, which the tokens and the passwords are modelled with.
* `Sized.decode_encode`: what comes back of any text at all.
* `Sized.decode_encode_iff`: a text comes back exactly if it is not empty and its base64 text is
  shorter than 2 GiB.
-/
import OnlineJudge.Auth.Crypto
import OnlineJudge.Lib.Json

namespace OnlineJudge.Auth

open ByteString

/-! ## 1. Sizes as `int`

A `size_t` that is passed for an `int` loses its upper bits.  From `2 ^ 31` on it is negative or too
small, and OpenSSL does nothing, or only a part. -/

/-- How many bytes `BIO_write` and `BIO_read` take for a size: none for a negative number. -/
def intSize (n : Nat) : Nat := (Json.toInt32 n).toNat

theorem intSize_of_lt {n : Nat} (h : n < 2 ^ 31) : intSize n = n := by
  rw [intSize, Json.toInt32, Int.bmod_def]
  split <;> omega

theorem intSize_of_ge {n : Nat} (h : 2 ^ 31 ≤ n) (h' : n < 2 ^ 32) : intSize n = 0 := by
  rw [intSize, Json.toInt32, Int.bmod_def]
  split <;> omega

theorem intSize_lt (n : Nat) : intSize n < 2 ^ 31 := by
  rw [intSize, Json.toInt32, Int.bmod_def]
  split <;> omega

/-- What `BIO_new_mem_buf` gives to read: for a negative size the C string. -/
def memBuf (text : Bytes) : Bytes :=
  if Json.toInt32 text.length < 0 then cStr text else text.take (intSize text.length)

theorem memBuf_of_lt {text : Bytes} (h : text.length < 2 ^ 31) : memBuf text = text := by
  have hsize : ¬ Json.toInt32 text.length < 0 := by
    rw [Json.toInt32, Int.bmod_def]
    split <;> omega
  rw [memBuf, if_neg hsize, intSize_of_lt h, List.take_length]

namespace Sized

def toBase64 (lib : OpenSsl) (data : Bytes) : Bytes :=
  lib.bioWrite (data.take (intSize data.length))

/-- `FromBase64`.  The buffer for the result has the size of the text. -/
def fromBase64 (lib : OpenSsl) (text : Bytes) : Except Raised Bytes :=
  let out := (lib.bioRead (memBuf text)).take (intSize text.length)
  if out = [] then .error (.runtime (ascii "base64 decode failed")) else .ok out

def base64UrlEncode (lib : OpenSsl) (data : Bytes) : Bytes :=
  base64UrlFromBase64 (toBase64 lib data)

def base64UrlDecode (lib : OpenSsl) (text : Bytes) : Option Bytes :=
  (fromBase64 lib (base64FromBase64Url text)).toOption

/-! ## 2. Texts that fit

For these the casts change nothing, and the functions are the simpler ones. -/

/-- What OpenSSL reads is no longer than what it is read from.  The wrapper makes its buffer as long
as the text, so with such a library nothing is cut off there. -/
def Shrinks (lib : OpenSsl) : Prop := ∀ text, (lib.bioRead text).length ≤ text.length

theorem base64UrlEncode_eq {lib : OpenSsl} {data : Bytes} (h : data.length < 2 ^ 31) :
    base64UrlEncode lib data = Auth.base64UrlEncode lib data := by
  rw [base64UrlEncode, toBase64, intSize_of_lt h, List.take_length]
  rfl

theorem base64UrlDecode_eq {lib : OpenSsl} (hlib : Shrinks lib) {text : Bytes}
    (h : (base64FromBase64Url text).length < 2 ^ 31) :
    base64UrlDecode lib text = Auth.base64UrlDecode lib text := by
  rw [base64UrlDecode, fromBase64, memBuf_of_lt h, intSize_of_lt h,
    List.take_of_length_le (hlib _)]
  rfl

/-! ## 3. The round trip

A long text comes back in part or not at all, and the empty one not at all, since an empty result
counts as an error.  What comes back of any text is stated first; when it is the text itself is read
off from that. -/

/-- What comes back is the part that was written, if it is not empty and its base64 text fits. -/
theorem decode_encode {lib : OpenSsl} (hwrites : lib.WritesBase64) (hlib : lib.ReadsBase64)
    (data : Bytes) : base64UrlDecode lib (base64UrlEncode lib data) =
      if data.take (intSize data.length) ≠ [] ∧ (toBase64 lib data).length < 2 ^ 31
      then some (data.take (intSize data.length)) else none := by
  generalize hpart : data.take (intSize data.length) = part
  have hback : base64FromBase64Url (base64UrlEncode lib data) = Base64.encode part := by
    rw [base64UrlEncode, toBase64, hpart, hwrites part]
    exact base64FromBase64Url_encode part
  have hlen : (Base64.encode part).length = (part.length + 2) / 3 * 4 := Base64.length_encode part
  have hpartLen : part.length < 2 ^ 31 := by
    rw [← hpart, List.length_take]
    have := intSize_lt data.length
    omega
  rw [base64UrlDecode, hback, fromBase64, toBase64, hpart, hwrites part]
  by_cases hfits : (Base64.encode part).length < 2 ^ 31
  · have hwhole : part.take (Base64.encode part).length = part :=
      List.take_of_length_le (by omega)
    simp only [memBuf_of_lt hfits, intSize_of_lt hfits, hlib part, hwhole]
    by_cases hnil : part = []
    · rw [if_pos hnil, if_neg (fun h => h.1 hnil)]
      rfl
    · rw [if_neg hnil, if_pos ⟨hnil, hfits⟩]
      rfl
  · simp only [intSize_of_ge (Nat.le_of_not_lt hfits) (by omega), List.take_zero, if_true]
    rw [if_neg (fun h => hfits h.2)]
    rfl

/-- **When the round trip gives the text back**: it is not empty, and its base64 text, four
characters for every three bytes or what is left of them, is shorter than `2 ^ 31`. -/
theorem decode_encode_iff {lib : OpenSsl} (hwrites : lib.WritesBase64) (hlib : lib.ReadsBase64)
    (data : Bytes) : base64UrlDecode lib (base64UrlEncode lib data) = some data ↔
      data ≠ [] ∧ (data.length + 2) / 3 * 4 < 2 ^ 31 := by
  rw [decode_encode hwrites hlib, toBase64, hwrites, Base64.length_encode]
  constructor
  · intro h
    split at h
    · rename_i hfits
      -- the part that was written is the whole text
      have hpart := Option.some.inj h
      rw [hpart] at hfits
      exact hfits
    · cases h
  · rintro ⟨hne, hlen⟩
    have hwhole : data.take (intSize data.length) = data := by
      rw [intSize_of_lt (by omega), List.take_length]
    rw [hwhole, if_pos ⟨hne, hlen⟩]

/-- OpenSSL, as far as base64 goes. -/
def plainOpenSsl : OpenSsl where
  bioWrite := Base64.encode
  bioRead text := (Base64.decode text).getD []
  hmac _ _ := none
  pbkdf2 _ _ _ _ := none
  randBytes _ := none

theorem plainOpenSsl_writesBase64 : plainOpenSsl.WritesBase64 := fun _ => rfl

theorem plainOpenSsl_readsBase64 : plainOpenSsl.ReadsBase64 := by
  intro bytes
  simp only [plainOpenSsl, Base64.decode_encode, Option.getD_some]

/-- Bytes whose base64 text has both characters in it that the URL alphabet replaces. -/
theorem decode_encode_iff_special :
    base64UrlDecode plainOpenSsl (base64UrlEncode plainOpenSsl [251, 239, 255, 254]) =
        some [251, 239, 255, 254] ↔
      [251, 239, 255, 254] ≠ ([] : Bytes) ∧
        (([251, 239, 255, 254] : Bytes).length + 2) / 3 * 4 < 2 ^ 31 :=
  decode_encode_iff plainOpenSsl_writesBase64 plainOpenSsl_readsBase64 [251, 239, 255, 254]

/-- The empty text does not come back. -/
theorem decode_encode_empty :
    ¬ ∀ lib : OpenSsl, lib.WritesBase64 → lib.ReadsBase64 → ∀ data : Bytes,
      base64UrlDecode lib (base64UrlEncode lib data) = some data := by
  intro h
  have hempty := h plainOpenSsl plainOpenSsl_writesBase64 plainOpenSsl_readsBase64 []
  rw [decode_encode plainOpenSsl_writesBase64 plainOpenSsl_readsBase64] at hempty
  cases hempty

end Sized

end OnlineJudge.Auth
