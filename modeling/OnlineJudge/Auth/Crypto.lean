/-
# `utils/crypto.cpp`

The wrappers around OpenSSL: base64 in its two alphabets, the password hash and the keyed hash of
a token.  What OpenSSL computes is a parameter (`OpenSsl`).  What the results take for granted of it
are properties of that parameter: `WritesBase64` and `ReadsBase64` say that the filter for base64 is
the standard one, `Sized` that random bytes and derived keys have the length that was asked for.
They are kept apart because a token that one call writes may be read by another, at another time.

* `base64UrlDecode_encode`: a nonempty text that is encoded in the URL alphabet decodes to itself.
* `dot_not_mem_base64UrlEncode`: the encoded text has no dot.
* `generatePasswordHash_spec`: a stored hash verifies a password exactly if PBKDF2 gives for it what
  it has given for the one that was stored.
-/
import OnlineJudge.Lib.Base64
import OnlineJudge.Lib.Program

namespace OnlineJudge.Auth

open ByteString

/-! ## 1. OpenSSL

A call that fails makes the wrappers throw, whatever the reason.  Nothing is said of what HMAC or
PBKDF2 compute: no result depends on it but by the comparison of two of their values. -/

/-- The functions of OpenSSL that the wrappers call.  `bioWrite` is what a base64 filter without
line breaks has written to memory after `BIO_write` and `BIO_flush`, `bioRead` what `BIO_read` gets
out of such a filter, nothing where it returns 0 or less; `none` is a failing call. -/
structure OpenSsl where
  bioWrite : Bytes → Bytes
  bioRead : Bytes → Bytes
  hmac : Bytes → Bytes → Option Bytes
  pbkdf2 : Bytes → Bytes → Int → Nat → Option Bytes
  randBytes : Nat → Option Bytes

/-- The base64 filter writes padded base64, in one line, as its flags ask.  Of what it writes
otherwise nothing is said. -/
def OpenSsl.WritesBase64 (lib : OpenSsl) : Prop := ∀ bytes, lib.bioWrite bytes = Base64.encode bytes

/-- It reads padded base64.  What it makes of any other text is left open, so a proof that needs
this has to know where the text comes from. -/
def OpenSsl.ReadsBase64 (lib : OpenSsl) : Prop := ∀ bytes, lib.bioRead (Base64.encode bytes) = bytes

/-! ## 2. Base64

The URL alphabet is the standard one with two characters replaced and the padding left out.
`Base64FromBase64Url` puts both back, the padding by the length of the text. -/

/-- `ToBase64`, of a text that is short enough for an `int`. -/
def toBase64 (lib : OpenSsl) (data : Bytes) : Bytes := lib.bioWrite data

/-- `FromBase64`, of such a text.  An empty result is taken for an error. -/
def fromBase64 (lib : OpenSsl) (text : Bytes) : Except Raised Bytes :=
  if lib.bioRead text = [] then .error (.runtime (ascii "base64 decode failed"))
  else .ok (lib.bioRead text)

/-- A character of the URL alphabet. -/
def urlChar (c : UInt8) : UInt8 := if c = 43 then 45 else if c = 47 then 95 else c

/-- A character of the standard alphabet. -/
def standardChar (c : UInt8) : UInt8 := if c = 45 then 43 else if c = 95 then 47 else c

def base64UrlFromBase64 (s : Bytes) : Bytes :=
  ((s.map urlChar).reverse.dropWhile (· == Base64.pad)).reverse

/-- `Base64FromBase64Url`.  The padding is put back by the length of the text. -/
def base64FromBase64Url (s : Bytes) : Bytes :=
  let out := s.map standardChar
  let m := out.length % 4
  if m ≠ 0 then out ++ List.replicate (4 - m) Base64.pad else out

def base64UrlEncode (lib : OpenSsl) (data : Bytes) : Bytes :=
  base64UrlFromBase64 (toBase64 lib data)

/-- `Base64UrlDecode`: nothing where `FromBase64` throws. -/
def base64UrlDecode (lib : OpenSsl) (text : Bytes) : Option Bytes :=
  (fromBase64 lib (base64FromBase64Url text)).toOption

/-! ## 3. The round trip

The spelling is undone before OpenSSL sees the text, so what is asked of its decoder is about
standard base64 only. -/

/-- The characters of the alphabet can be told from the padding, and come back from the URL
alphabet; none of them becomes a dot. -/
theorem urlChar_spec : ∀ c ∈ Base64.alphabet,
    urlChar c ≠ Base64.pad ∧ standardChar (urlChar c) = c ∧ urlChar c ≠ 46 := by decide +kernel

theorem map_urlChar_replicate (k : Nat) :
    (List.replicate k Base64.pad).map urlChar = List.replicate k Base64.pad := by
  rw [List.map_replicate]
  rfl

/-- The URL form loses the padding only. -/
theorem base64UrlFromBase64_padded {body : Bytes} (h : ∀ c ∈ body, c ∈ Base64.alphabet) (k : Nat) :
    base64UrlFromBase64 (body ++ List.replicate k Base64.pad) = body.map urlChar := by
  rw [base64UrlFromBase64, List.map_append, map_urlChar_replicate, List.reverse_append,
    List.reverse_replicate, List.dropWhile_append_of_pos (by simp)]
  have hstop : (body.map urlChar).reverse.dropWhile (· == Base64.pad) =
      (body.map urlChar).reverse := by
    rw [List.dropWhile_eq_self_iff]
    intro hlen
    have hmem := List.getElem_mem hlen
    rw [List.mem_reverse] at hmem
    obtain ⟨c, hc, heq⟩ := List.mem_map.mp hmem
    rw [← heq]
    simpa using (urlChar_spec c (h c hc)).1
  rw [hstop, List.reverse_reverse]

theorem base64FromBase64Url_map {body : Bytes} (h : ∀ c ∈ body, c ∈ Base64.alphabet) {k : Nat}
    (hk : k < 4) (hlen : (body.length + k) % 4 = 0) :
    base64FromBase64Url (body.map urlChar) = body ++ List.replicate k Base64.pad := by
  have hback : (body.map urlChar).map standardChar = body := by
    rw [List.map_map]
    refine (List.map_congr_left fun c hc => ?_).trans (List.map_id body)
    exact (urlChar_spec c (h c hc)).2.1
  simp only [base64FromBase64Url, hback]
  by_cases hm : body.length % 4 = 0
  · have hzero : k = 0 := by omega
    rw [if_neg (not_not.mpr hm), hzero, List.replicate_zero, List.append_nil]
  · rw [if_pos hm, show 4 - body.length % 4 = k by omega]

/-- The standard text comes back from its URL form. -/
theorem base64FromBase64Url_encode (data : Bytes) :
    base64FromBase64Url (base64UrlFromBase64 (Base64.encode data)) = Base64.encode data := by
  obtain ⟨body, k, heq, hbody, hk, hlen⟩ := Base64.encode_shape data
  rw [heq, base64UrlFromBase64_padded hbody, base64FromBase64Url_map hbody hk hlen]

/-- **So what is encoded in the URL alphabet is standard base64 but for the spelling.** -/
theorem base64FromBase64Url_base64UrlEncode {lib : OpenSsl} (hwrites : lib.WritesBase64)
    (data : Bytes) : base64FromBase64Url (base64UrlEncode lib data) = Base64.encode data := by
  rw [base64UrlEncode, toBase64, hwrites data]
  exact base64FromBase64Url_encode data

/-- **What one has encoded another decodes**, unless it is empty. -/
theorem base64UrlDecode_encode {lib lib' : OpenSsl} (hwrites : lib.WritesBase64)
    (hreads : lib'.ReadsBase64) {data : Bytes} (h : data ≠ []) :
    base64UrlDecode lib' (base64UrlEncode lib data) = some data := by
  rw [base64UrlDecode, base64FromBase64Url_base64UrlEncode hwrites, fromBase64, hreads data,
    if_neg h]
  rfl

/-- What is encoded is spelled in the URL alphabet. -/
theorem exists_urlChar_of_mem {lib : OpenSsl} (hwrites : lib.WritesBase64) {data : Bytes}
    {b : UInt8} (h : b ∈ base64UrlEncode lib data) : ∃ c ∈ Base64.alphabet, urlChar c = b := by
  obtain ⟨body, k, heq, hbody, -, -⟩ := Base64.encode_shape data
  rw [base64UrlEncode, toBase64, hwrites data, heq, base64UrlFromBase64_padded hbody] at h
  obtain ⟨c, hc, rfl⟩ := List.mem_map.mp h
  exact ⟨c, hbody c hc, rfl⟩

/-- **The encoded text has no dot.**  That is what allows a token to be cut at its dots. -/
theorem dot_not_mem_base64UrlEncode {lib : OpenSsl} (hwrites : lib.WritesBase64) (data : Bytes) :
    46 ∉ base64UrlEncode lib data := by
  intro hmem
  obtain ⟨c, hc, hdot⟩ := exists_urlChar_of_mem hwrites hmem
  exact (urlChar_spec c hc).2.2 hdot

/-! ## 4. Hashes

A stored hash is three fields with colons between them: the number of iterations, the salt and the
derived key.  A text without two colons verifies no password, and one whose fields cannot be read
raises. -/

def hmacSha256Base64Url (lib : OpenSsl) (key data : Bytes) : Except Raised Bytes :=
  match lib.hmac key data with
  | none => .error (.runtime (ascii "HMAC failed"))
  | some mac => .ok (base64UrlFromBase64 (toBase64 lib mac))

/-- `GeneratePasswordHash`: a fresh salt, and 100000 iterations. -/
def generatePasswordHash (lib : OpenSsl) (password : Bytes) : Except Raised Bytes :=
  match lib.randBytes 16 with
  | none => .error (.runtime (ascii "RAND_bytes failed"))
  | some salt =>
    match lib.pbkdf2 password salt 100000 32 with
    | none => .error (.runtime (ascii "PBKDF2 failed"))
    | some dk => .ok (decimal 100000 ++ 58 :: (toBase64 lib salt ++ 58 :: toBase64 lib dk))

/-- `VerifyPassword`.  The iterations and the salt are those of the stored hash, and the keys are
compared whole. -/
def verifyPassword (lib : OpenSsl) (password stored : Bytes) : Except Raised Bool :=
  match splitTwice 58 stored with
  | none => .ok false
  | some (first, second, third) => do
    let iterations ← (stoi first).mapError .std
    let salt ← fromBase64 lib second
    let dk ← fromBase64 lib third
    return lib.pbkdf2 password salt iterations dk.length == some dk

/-! ## 5. What is stored can be verified

Reading a stored hash back means cutting it at its colons, reading a number and decoding two fields,
and each of them could fail.  None does, for what the program has written itself. -/

/-- What `RAND_bytes` and PBKDF2 give has the length that was asked for, and base64 has the length
that the standard gives it.  So a stored hash fits its column. -/
structure OpenSsl.Sized (lib : OpenSsl) : Prop where
  bioWrite : lib.WritesBase64
  randBytes : ∀ n bytes, lib.randBytes n = some bytes → bytes.length = n
  pbkdf2 : ∀ password salt iterations n dk,
    lib.pbkdf2 password salt iterations n = some dk → dk.length = n

theorem colon_not_mem_encode (data : Bytes) : 58 ∉ Base64.encode data := by
  have halphabet : ∀ c ∈ Base64.alphabet, c ≠ 58 := by decide +kernel
  obtain ⟨body, k, heq, hbody, -, -⟩ := Base64.encode_shape data
  rw [heq]
  intro hmem
  rcases List.mem_append.mp hmem with hmem | hmem
  · exact halphabet 58 (hbody 58 hmem) rfl
  · exact absurd (List.eq_of_mem_replicate hmem) (by decide)

theorem fromBase64_encode {lib : OpenSsl} (hlib : lib.ReadsBase64) {data : Bytes}
    (h : data ≠ []) : fromBase64 lib (Base64.encode data) = .ok data := by
  rw [fromBase64, hlib data, if_neg h]

/-- The number of iterations is read back. -/
theorem stoi_iterations : stoi (decimal 100000) = .ok 100000 := by decide +kernel

/-- **A stored hash verifies a password exactly if PBKDF2 gives the same for it**, with the salt of
the hash.  The hash has 76 bytes. -/
theorem generatePasswordHash_spec {lib : OpenSsl} (hsized : lib.Sized) {password hash : Bytes}
    (h : generatePasswordHash lib password = .ok hash) :
    hash.length = 76 ∧ ∃ salt dk, lib.randBytes 16 = some salt ∧
      lib.pbkdf2 password salt 100000 32 = some dk ∧ ∀ lib' : OpenSsl, lib'.ReadsBase64 →
        ∀ password', verifyPassword lib' password' hash =
          .ok (lib'.pbkdf2 password' salt 100000 32 == some dk) := by
  unfold generatePasswordHash at h
  split at h
  · cases h
  · rename_i salt hsalt
    split at h
    · cases h
    · rename_i dk hdk
      obtain rfl := Except.ok.inj h
      have hsaltLength : salt.length = 16 := hsized.randBytes _ _ hsalt
      have hdkLength : dk.length = 32 := hsized.pbkdf2 _ _ _ _ _ hdk
      simp only [toBase64, hsized.bioWrite salt, hsized.bioWrite dk]
      constructor
      · have hdecimal : (decimal 100000).length = 6 := by decide +kernel
        simp only [List.length_append, List.length_cons, hdecimal, Base64.length_encode,
          hsaltLength, hdkLength]
      · refine ⟨salt, dk, hsalt, hdk, fun lib' hlib password' => ?_⟩
        have hdigits : 58 ∉ decimal 100000 := by
          intro hmem
          exact absurd (isDigit_of_mem_decimal hmem) (by decide)
        have hsplit : splitTwice 58
            (decimal 100000 ++ 58 :: (Base64.encode salt ++ 58 :: Base64.encode dk)) =
            some (decimal 100000, Base64.encode salt, Base64.encode dk) :=
          splitTwice_eq_some.mpr ⟨rfl, hdigits, colon_not_mem_encode salt⟩
        have hsaltBytes := fromBase64_encode hlib (List.ne_nil_of_length_pos (by omega) : salt ≠ [])
        have hdkBytes := fromBase64_encode hlib (List.ne_nil_of_length_pos (by omega) : dk ≠ [])
        simp only [verifyPassword, hsplit, stoi_iterations, hsaltBytes, hdkBytes]
        show Except.ok (lib'.pbkdf2 password' salt 100000 dk.length == some dk) = _
        rw [hdkLength]

end OnlineJudge.Auth
