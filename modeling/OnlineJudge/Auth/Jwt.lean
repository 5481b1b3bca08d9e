/-
# Tokens

`GenerateJwt` and `VerifyJwt` of `middleware/auth.cpp`.  A token is header, payload and signature in
base64url with dots between them; the signature is a keyed hash of the text before it.

* `verifyJwt_eq_some_iff`: which strings are accepted, and with which claims.  The split at the
  first two dots is `splitTwice`; a claim with a default may be absent.
* `verifyJwt_generateJwt`: what `GenerateJwt` issues is accepted until it expires.
* `jwt_sound_complete`: both, with the existence of the token.
* `fraction_accepted`: a fraction in a signed payload is read as the integer below it in size.

The hash, the base64 filter and the JSON library are parameters.  That a hash cannot be forged is no
part of this: what is said of a string that is accepted is that its signature is the hash of its
first part, whoever has computed it.
-/
import Mathlib.Tactic.NormNum
import OnlineJudge.Auth.Crypto
import OnlineJudge.Net.HttpRequest

namespace OnlineJudge.Auth

open ByteString

/-! ## 1. The code

The header of a token is written and never read: `VerifyJwt` does not look at the method that it
names. -/

/-- `AuthInfo`: who the bearer of a token is said to be. -/
structure AuthInfo where
  userId : Int64
  username : Bytes
  role : Bytes
deriving DecidableEq

/-- A reading of `system_clock` in whole seconds.  The clock counts nanoseconds in 64 bits. -/
structure Instant where
  seconds : Int
  lower : -2 ^ 63 ≤ seconds * 10 ^ 9
  upper : seconds * 10 ^ 9 < 2 ^ 63

/-- The header of a token. -/
def jwtHeader : Json :=
  .obj [(ascii "alg", .str (ascii "HS256")), (ascii "typ", .str (ascii "JWT"))]

/-- The members of a payload; `nlohmann::json` keeps the members of an object sorted. -/
def jwtMembers (claims : AuthInfo) (now : Instant) (expiresSeconds : Int32) :
    List (Bytes × Json) :=
  [(ascii "exp", .int (now.seconds + expiresSeconds.toInt)), (ascii "iat", .int now.seconds),
    (ascii "role", .str claims.role), (ascii "sub", .int claims.userId.toInt),
    (ascii "username", .str claims.username)]

/-- The payload of a token. -/
def jwtPayload (claims : AuthInfo) (now : Instant) (expiresSeconds : Int32) : Json :=
  .obj (jwtMembers claims now expiresSeconds)

variable (codec : Json.Codec) (lib : OpenSsl)

/-- `GenerateJwt`.  The clock is read once, in whole seconds. -/
def generateJwt (secret : Bytes) (claims : AuthInfo) (expiresSeconds : Int32) (now : Instant) :
    Except Raised Bytes := do
  let headerB64 := base64UrlEncode lib (← codec.print jwtHeader)
  let payloadB64 := base64UrlEncode lib (← codec.print (jwtPayload claims now expiresSeconds))
  let signingInput := headerB64 ++ 46 :: payloadB64
  let sig ← hmacSha256Base64Url lib secret signingInput
  return signingInput ++ 46 :: sig

/-- The second `try` block of `VerifyJwt`: the claims of a payload, unless it has expired. -/
def readClaims (text : Bytes) (now : Instant) : Except Raised (Option AuthInfo) := do
  let payload ← codec.read text
  let exp ← (payload.valueLong (ascii "exp") 0).mapError .json
  if exp ≠ 0 ∧ exp.toInt < now.seconds then return none
  let userId ← (payload.valueLong (ascii "sub") 0).mapError .json
  let username ← (payload.valueStr (ascii "username") []).mapError .json
  let role ← (payload.valueStr (ascii "role") []).mapError .json
  return some { userId := userId, username := username, role := role }

/-- `VerifyJwt`.  Every exception on the way makes it return nothing. -/
def verifyJwt (secret token : Bytes) (now : Instant) : Option AuthInfo :=
  match splitTwice 46 token with
  | none => none
  | some (headerB64, payloadB64, sig) =>
    match hmacSha256Base64Url lib secret (headerB64 ++ 46 :: payloadB64) with
    | .error _ => none
    | .ok expectedSig =>
      if expectedSig ≠ sig then none
      else
        match base64UrlDecode lib payloadB64 with
        | none => none
        | some text =>
          match readClaims codec text now with
          | .error _ => none
          | .ok info => info

/-- `AuthenticateRequest`: the token behind `Bearer ` in the header of a request. -/
def authenticateRequest (secret : Bytes) (req : Net.HttpRequest) (now : Instant) :
    Option AuthInfo :=
  match req.headers.find? (ascii "Authorization") with
  | none => none
  | some v =>
    if v.length ≤ (ascii "Bearer ").length ∨ v.take (ascii "Bearer ").length ≠ ascii "Bearer " then
      none
    else verifyJwt codec lib secret (v.drop (ascii "Bearer ").length) now

/-! ## 2. Which strings are accepted

The code throws at several places, and each of them is caught and means that the string is not
accepted.  The characterisation has one conjunct for each thing that has to go well. -/

/-- A numeric claim as `value(name, 0L)` reads it: absent and 0, or a number that converts to `n`.
A claim of another type raises, and is neither. -/
def LongClaim (members : List (Bytes × Json)) (name : Bytes) (n : Int64) : Prop :=
  (members.lookup name = none ∧ n = 0) ∨ ∃ v, members.lookup name = some v ∧ v.AsLong n

/-- A text claim as `value(name, "")` reads it: absent and empty, or the text. -/
def StrClaim (members : List (Bytes × Json)) (name s : Bytes) : Prop :=
  (members.lookup name = none ∧ s = []) ∨ members.lookup name = some (.str s)

/-- The claims of a payload that is not expired.  An absent expiry, and one of 0, never is. -/
structure Carries (members : List (Bytes × Json)) (info : AuthInfo) (now : Instant) : Prop where
  sub : LongClaim members (ascii "sub") info.userId
  username : StrClaim members (ascii "username") info.username
  role : StrClaim members (ascii "role") info.role
  exp : ∃ exp, LongClaim members (ascii "exp") exp ∧ (exp = 0 ∨ now.seconds ≤ exp.toInt)

theorem valueLong_eq_ok {members : List (Bytes × Json)} {name : Bytes} {n : Int64} :
    (Json.obj members).valueLong name 0 = .ok n ↔ LongClaim members name n := by
  rw [Json.valueLong, Json.value_obj_eq_ok, LongClaim]
  simp only [Json.getLong_eq_ok]

theorem valueStr_eq_ok {members : List (Bytes × Json)} {name s : Bytes} :
    (Json.obj members).valueStr name [] = .ok s ↔ StrClaim members name s := by
  rw [Json.valueStr, Json.value_obj_eq_ok, StrClaim]
  simp only [Json.getStr_eq_ok, exists_eq_right]

variable {codec lib}

theorem readClaims_eq_some {text : Bytes} {now : Instant} {info : AuthInfo} :
    readClaims codec text now = .ok (some info) ↔
      ∃ members, codec.parse text = .ok (.obj members) ∧ Carries members info now := by
  simp only [readClaims, Except.bind_eq_ok, Json.Codec.read_eq_ok, Except.mapError_eq_ok]
  constructor
  · rintro ⟨payload, hparse, exp, hexp, hrest⟩
    obtain ⟨members, rfl⟩ := Json.exists_obj_of_value hexp
    split at hrest
    · cases hrest
    · rename_i hfresh
      simp only [Except.bind_eq_ok, Except.mapError_eq_ok] at hrest
      obtain ⟨userId, hsub, username, husername, role, hrole, hinfo⟩ := hrest
      obtain rfl := Option.some.inj (Except.ok.inj hinfo)
      refine ⟨members, hparse, valueLong_eq_ok.mp hsub, valueStr_eq_ok.mp husername,
        valueStr_eq_ok.mp hrole, exp, valueLong_eq_ok.mp hexp, ?_⟩
      by_contra hneither
      obtain ⟨hzero, hlate⟩ := not_or.mp hneither
      exact hfresh ⟨hzero, Int.not_le.mp hlate⟩
  · rintro ⟨members, hparse, hsub, husername, hrole, exp, hexp, hfresh⟩
    refine ⟨.obj members, hparse, exp, valueLong_eq_ok.mpr hexp, ?_⟩
    have hnot : ¬ (exp ≠ 0 ∧ exp.toInt < now.seconds) := by
      rintro ⟨hne, hlt⟩
      rcases hfresh with hzero | hle
      · exact hne hzero
      · exact Int.not_le.mpr hlt hle
    rw [if_neg hnot]
    simp only [Except.bind_eq_ok, Except.mapError_eq_ok]
    exact ⟨_, valueLong_eq_ok.mpr hsub, _, valueStr_eq_ok.mpr husername, _,
      valueStr_eq_ok.mpr hrole, rfl⟩

/-- **Acceptance.**  A token is accepted with these claims exactly if it is `h.p.s`, split at its
first two dots, `s` is the signature of `h.p`, and `p` decodes to an object with these claims that
has not expired. -/
theorem verifyJwt_eq_some_iff {secret token : Bytes} {now : Instant} {info : AuthInfo} :
    verifyJwt codec lib secret token now = some info ↔
      ∃ h p s text members, token = h ++ 46 :: (p ++ 46 :: s) ∧ 46 ∉ h ∧ 46 ∉ p ∧
        hmacSha256Base64Url lib secret (h ++ 46 :: p) = .ok s ∧
        base64UrlDecode lib p = some text ∧ codec.parse text = .ok (.obj members) ∧
        Carries members info now := by
  constructor
  · intro hverify
    unfold verifyJwt at hverify
    split at hverify
    · cases hverify
    · rename_i h p s hsplit
      obtain ⟨htoken, hh, hp⟩ := splitTwice_eq_some.mp hsplit
      split at hverify
      · cases hverify
      · rename_i expected hsig
        split at hverify
        · cases hverify
        · rename_i heq
          obtain rfl : expected = s := not_not.mp heq
          split at hverify
          · cases hverify
          · rename_i text htext
            split at hverify
            · cases hverify
            · rename_i hclaims
              rw [hverify] at hclaims
              obtain ⟨members, hparse, hcarries⟩ := readClaims_eq_some.mp hclaims
              exact ⟨h, p, expected, text, members, htoken, hh, hp, hsig, htext, hparse, hcarries⟩
  · rintro ⟨h, p, s, text, members, htoken, hh, hp, hsig, htext, hparse, hcarries⟩
    have hsplit : splitTwice 46 token = some (h, p, s) := splitTwice_eq_some.mpr ⟨htoken, hh, hp⟩
    have hclaims : readClaims codec text now = .ok (some info) :=
      readClaims_eq_some.mpr ⟨members, hparse, hcarries⟩
    simp only [verifyJwt, hsplit, hsig, ne_eq, not_true_eq_false, if_false, htext, hclaims]

/-- A request is authenticated by a token behind `Bearer ` that is accepted. -/
theorem authenticateRequest_eq_some_iff {secret : Bytes} {req : Net.HttpRequest} {now : Instant}
    {info : AuthInfo} :
    authenticateRequest codec lib secret req now = some info ↔
      ∃ token, req.headers.find? (ascii "Authorization") = some (ascii "Bearer " ++ token) ∧
        verifyJwt codec lib secret token now = some info := by
  unfold authenticateRequest
  cases hheader : req.headers.find? (ascii "Authorization") with
  | none => simp
  | some v =>
    simp only [Option.some.injEq]
    constructor
    · intro h
      split at h
      · cases h
      · rename_i hprefix
        have htake : v.take (ascii "Bearer ").length = ascii "Bearer " :=
          not_not.mp (not_or.mp hprefix).2
        refine ⟨v.drop (ascii "Bearer ").length, ?_, h⟩
        conv_lhs => rw [← List.take_append_drop (ascii "Bearer ").length v, htake]
    · rintro ⟨token, rfl, hverify⟩
      have hne : token ≠ [] := by
        rintro rfl
        obtain ⟨h, p, s, text, members, htoken, -⟩ := verifyJwt_eq_some_iff.mp hverify
        cases h <;> cases htoken
      have hlength : ¬ (ascii "Bearer " ++ token).length ≤ (ascii "Bearer ").length := by
        have hpos := List.length_pos_iff.mpr hne
        rw [List.length_append]
        omega
      rw [if_neg (not_or.mpr ⟨hlength, by simp⟩), List.drop_left]
      exact hverify

/-! ## 3. Issued tokens

An issued token is followed through the reader: its parts have no dot, what was printed is read
back, and the claims of the payload are those that were put into it. -/

theorem generateJwt_eq_ok {secret token : Bytes} {claims : AuthInfo} {expiresSeconds : Int32}
    {now : Instant} :
    generateJwt codec lib secret claims expiresSeconds now = .ok token ↔
      ∃ header payload sig, codec.dump jwtHeader = some header ∧
        codec.dump (jwtPayload claims now expiresSeconds) = some payload ∧
        hmacSha256Base64Url lib secret
            (base64UrlEncode lib header ++ 46 :: base64UrlEncode lib payload) =
          .ok sig ∧
        token = base64UrlEncode lib header ++ 46 :: (base64UrlEncode lib payload ++ 46 :: sig) := by
  simp only [generateJwt, Except.bind_eq_ok, Json.Codec.print_eq_ok]
  constructor
  · rintro ⟨header, hheader, payload, hpayload, sig, hsig, htoken⟩
    refine ⟨header, payload, sig, hheader, hpayload, hsig, ?_⟩
    rw [← Except.ok.inj htoken, List.append_assoc, List.cons_append]
  · rintro ⟨header, payload, sig, hheader, hpayload, hsig, rfl⟩
    refine ⟨header, hheader, payload, hpayload, sig, hsig, ?_⟩
    rw [List.append_assoc, List.cons_append]
    rfl

theorem toInt_expiry (now : Instant) (expiresSeconds : Int32) :
    (Int64.ofInt (now.seconds + expiresSeconds.toInt)).toInt =
      now.seconds + expiresSeconds.toInt := by
  have hlower := now.lower
  have hupper := now.upper
  have hlt := expiresSeconds.toInt_lt
  have hle := expiresSeconds.le_toInt
  have hsize : (Int64.size : Int) = 2 ^ 64 := rfl
  rw [Int64.toInt_ofInt]
  refine Int.bmod_eq_of_le ?_ ?_
  · rw [hsize]
    omega
  · rw [hsize]
    omega

theorem longClaim_int {members : List (Bytes × Json)} {name : Bytes} {m : Int} {n : Int64}
    (h : members.lookup name = some (.int m)) : LongClaim members name n ↔ n = .ofInt m := by
  rw [LongClaim, h]
  constructor
  · rintro (⟨hnone, -⟩ | ⟨v, hv, hlong⟩)
    · cases hnone
    · obtain rfl := Option.some.inj hv
      cases hlong
      rfl
  · rintro rfl
    exact Or.inr ⟨_, rfl, .int m⟩

theorem strClaim_str {members : List (Bytes × Json)} {name s t : Bytes}
    (h : members.lookup name = some (.str t)) : StrClaim members name s ↔ s = t := by
  rw [StrClaim, h]
  simp [eq_comm]

/-- An issued payload carries the claims it was issued for, until it expires. -/
theorem carries_jwtMembers {claims info : AuthInfo} {issued now : Instant} {expiresSeconds : Int32}
    (hexpiry : issued.seconds + expiresSeconds.toInt ≠ 0) :
    Carries (jwtMembers claims issued expiresSeconds) info now ↔
      info = claims ∧ now.seconds ≤ issued.seconds + expiresSeconds.toInt := by
  have hsub : LongClaim (jwtMembers claims issued expiresSeconds) (ascii "sub") info.userId ↔
      info.userId = .ofInt claims.userId.toInt := longClaim_int rfl
  have husername : StrClaim (jwtMembers claims issued expiresSeconds) (ascii "username")
      info.username ↔ info.username = claims.username := strClaim_str rfl
  have hrole : StrClaim (jwtMembers claims issued expiresSeconds) (ascii "role") info.role ↔
      info.role = claims.role := strClaim_str rfl
  have hexp : ∀ exp, LongClaim (jwtMembers claims issued expiresSeconds) (ascii "exp") exp ↔
      exp = .ofInt (issued.seconds + expiresSeconds.toInt) := fun exp => longClaim_int rfl
  rw [Int64.ofInt_toInt] at hsub
  have hzero : Int64.ofInt (issued.seconds + expiresSeconds.toInt) ≠ 0 := by
    intro heq
    have htoInt := toInt_expiry issued expiresSeconds
    rw [heq] at htoInt
    exact hexpiry htoInt.symm
  constructor
  · rintro ⟨hs, hu, hr, exp, he, hfresh⟩
    obtain rfl := (hexp exp).mp he
    rw [toInt_expiry] at hfresh
    refine ⟨?_, hfresh.resolve_left hzero⟩
    cases info
    cases claims
    simp only [AuthInfo.mk.injEq]
    exact ⟨hsub.mp hs, husername.mp hu, hrole.mp hr⟩
  · rintro ⟨rfl, hle⟩
    refine ⟨hsub.mpr rfl, husername.mpr rfl, hrole.mpr rfl, _, (hexp _).mpr rfl, Or.inr ?_⟩
    rwa [toInt_expiry]

/-- **What is issued is accepted until it expires**, with the claims it was issued for. -/
theorem verifyJwt_generateJwt (hwrites : lib.WritesBase64) (hlib : lib.ReadsBase64)
    {secret token : Bytes} {claims : AuthInfo} {issued now : Instant} {expiresSeconds : Int32}
    (hpayload : codec.ReadsBack (jwtPayload claims issued expiresSeconds))
    (hexpiry : issued.seconds + expiresSeconds.toInt ≠ 0)
    (h : generateJwt codec lib secret claims expiresSeconds issued = .ok token) :
    verifyJwt codec lib secret token now =
      if now.seconds ≤ issued.seconds + expiresSeconds.toInt then some claims else none := by
  obtain ⟨header, payload, sig, -, hdump, hsig, rfl⟩ := generateJwt_eq_ok.mp h
  obtain ⟨hne, hparse⟩ := hpayload payload hdump
  have hdecode := base64UrlDecode_encode hwrites hlib hne
  have haccept : ∀ info, verifyJwt codec lib secret
      (base64UrlEncode lib header ++ 46 :: (base64UrlEncode lib payload ++ 46 :: sig)) now =
        some info ↔
      info = claims ∧ now.seconds ≤ issued.seconds + expiresSeconds.toInt := by
    intro info
    rw [verifyJwt_eq_some_iff]
    constructor
    · rintro ⟨h', p', s', text, members, htoken, hh, hp, -, htext, hmembers, hcarries⟩
      -- the first two dots are those that were put there
      have hsplit : splitTwice 46
          (base64UrlEncode lib header ++ 46 :: (base64UrlEncode lib payload ++ 46 :: sig)) =
          some (base64UrlEncode lib header, base64UrlEncode lib payload, sig) :=
        splitTwice_eq_some.mpr ⟨rfl, dot_not_mem_base64UrlEncode hwrites header,
          dot_not_mem_base64UrlEncode hwrites payload⟩
      have hsplit' := splitTwice_eq_some.mpr ⟨htoken, hh, hp⟩
      rw [hsplit, Option.some.injEq, Prod.mk.injEq, Prod.mk.injEq] at hsplit'
      obtain ⟨rfl, rfl, rfl⟩ := hsplit'
      obtain rfl : payload = text := Option.some.inj (hdecode.symm.trans htext)
      obtain rfl := Json.obj.inj (Except.ok.inj (hmembers.symm.trans hparse))
      exact (carries_jwtMembers hexpiry).mp hcarries
    · intro hinfo
      exact ⟨_, _, sig, payload, jwtMembers claims issued expiresSeconds, rfl,
        dot_not_mem_base64UrlEncode hwrites header, dot_not_mem_base64UrlEncode hwrites payload,
        hsig, hdecode, hparse, (carries_jwtMembers hexpiry).mpr hinfo⟩
  split
  · exact (haccept claims).mpr ⟨rfl, ‹_›⟩
  · rename_i hlate
    rw [Option.eq_none_iff_forall_not_mem]
    exact fun info hinfo => hlate ((haccept info).mp hinfo).2

/-- An issued token carries the claims it was issued for, whoever verifies it. -/
theorem claims_of_verifyJwt (hwrites : lib.WritesBase64) {lib' : OpenSsl} (hlib : lib'.ReadsBase64)
    {secret secret' token : Bytes} {claims info : AuthInfo} {issued now : Instant}
    {expiresSeconds : Int32} (hpayload : codec.ReadsBack (jwtPayload claims issued expiresSeconds))
    (h : generateJwt codec lib secret claims expiresSeconds issued = .ok token)
    (hverify : verifyJwt codec lib' secret' token now = some info) : info = claims := by
  obtain ⟨header, payload, sig, -, hdump, -, rfl⟩ := generateJwt_eq_ok.mp h
  obtain ⟨h', p', s', text, members, htoken, hh, hp, -, htext, hmembers, hcarries⟩ :=
    verifyJwt_eq_some_iff.mp hverify
  obtain ⟨hne, hparse⟩ := hpayload payload hdump
  have hsplit : splitTwice 46
      (base64UrlEncode lib header ++ 46 :: (base64UrlEncode lib payload ++ 46 :: sig)) =
      some (base64UrlEncode lib header, base64UrlEncode lib payload, sig) :=
    splitTwice_eq_some.mpr ⟨rfl, dot_not_mem_base64UrlEncode hwrites header,
      dot_not_mem_base64UrlEncode hwrites payload⟩
  have hsplit' := splitTwice_eq_some.mpr ⟨htoken, hh, hp⟩
  rw [hsplit, Option.some.injEq, Prod.mk.injEq, Prod.mk.injEq] at hsplit'
  obtain ⟨rfl, rfl, rfl⟩ := hsplit'
  obtain rfl : payload = text :=
    Option.some.inj ((base64UrlDecode_encode hwrites hlib hne).symm.trans htext)
  obtain rfl := Json.obj.inj (Except.ok.inj (hmembers.symm.trans hparse))
  have hsub : info.userId = .ofInt claims.userId.toInt := (longClaim_int rfl).mp hcarries.sub
  rw [Int64.ofInt_toInt] at hsub
  have husername : info.username = claims.username := (strClaim_str rfl).mp hcarries.username
  have hrole : info.role = claims.role := (strClaim_str rfl).mp hcarries.role
  cases info
  cases claims
  simp only [AuthInfo.mk.injEq]
  exact ⟨hsub, husername, hrole⟩

/-- What is encoded in base64url is ASCII. -/
theorem ascii_base64UrlEncode (hwrites : lib.WritesBase64) (data : Bytes) :
    ∀ b ∈ base64UrlEncode lib data, b < 0x80 := by
  have hchars : ∀ c ∈ Base64.alphabet, urlChar c < 0x80 := by decide +kernel
  intro b hb
  obtain ⟨c, hc, rfl⟩ := exists_urlChar_of_mem hwrites hb
  exact hchars c hc

/-- **A token is ASCII**: three texts of the URL alphabet and two dots. -/
theorem ascii_token (hwrites : lib.WritesBase64) {secret token : Bytes} {claims : AuthInfo}
    {expiresSeconds : Int32} {now : Instant}
    (h : generateJwt codec lib secret claims expiresSeconds now = .ok token) :
    ∀ b ∈ token, b < 0x80 := by
  obtain ⟨header, payload, sig, -, -, hsig, rfl⟩ := generateJwt_eq_ok.mp h
  have hascii : ∀ b ∈ sig, b < 0x80 := by
    unfold hmacSha256Base64Url at hsig
    split at hsig
    · cases hsig
    · rename_i mac _
      obtain rfl := Except.ok.inj hsig
      exact ascii_base64UrlEncode hwrites mac
  intro b hb
  simp only [List.mem_append, List.mem_cons] at hb
  rcases hb with hb | rfl | hb | rfl | hb
  · exact ascii_base64UrlEncode hwrites header b hb
  · decide
  · exact ascii_base64UrlEncode hwrites payload b hb
  · decide
  · exact hascii b hb

/-- So it can be put into any document. -/
theorem wellFormed_token (hwrites : lib.WritesBase64) {secret token : Bytes} {claims : AuthInfo}
    {expiresSeconds : Int32} {now : Instant}
    (h : generateJwt codec lib secret claims expiresSeconds now = .ok token) :
    Utf8.wellFormed token = true := Utf8.wellFormed_of_ascii (ascii_token hwrites h)

/-- A token is issued for claims in well-formed UTF-8. -/
theorem exists_generateJwt (hdump : codec.DumpsUtf8) {secret : Bytes}
    (hhmac : ∀ data, (lib.hmac secret data).isSome) {claims : AuthInfo}
    (husername : Utf8.wellFormed claims.username = true)
    (hrole : Utf8.wellFormed claims.role = true) (expiresSeconds : Int32) (now : Instant) :
    ∃ token, generateJwt codec lib secret claims expiresSeconds now = .ok token := by
  have hheader : jwtHeader.utf8 = true := by decide
  have hpayload : (jwtPayload claims now expiresSeconds).utf8 = true := by
    have hexp : Utf8.wellFormed (ascii "exp") = true := by decide
    have hiat : Utf8.wellFormed (ascii "iat") = true := by decide
    have hsub : Utf8.wellFormed (ascii "sub") = true := by decide
    have hroleName : Utf8.wellFormed (ascii "role") = true := by decide
    have husernameName : Utf8.wellFormed (ascii "username") = true := by decide
    simp [jwtPayload, jwtMembers, Json.utf8, Json.utf8Members, hexp, hiat, hsub, hroleName,
      husernameName, husername, hrole]
  obtain ⟨header, hheader⟩ := hdump.exists_dump hheader
  obtain ⟨payload, hpayload⟩ := hdump.exists_dump hpayload
  obtain ⟨mac, hmac⟩ := Option.isSome_iff_exists.mp
    (hhmac (base64UrlEncode lib header ++ 46 :: base64UrlEncode lib payload))
  refine ⟨_, generateJwt_eq_ok.mpr ⟨header, payload, base64UrlFromBase64 (toBase64 lib mac),
    hheader, hpayload, ?_, rfl⟩⟩
  rw [hmacSha256Base64Url, hmac]

/-! ## 4. Soundness and completeness

Both directions together.  An expiry of 0 is excluded, since the reader takes 0 for a token that
does not expire. -/

/-- **Tokens are sound and complete.**  A token is issued for any claims; it is accepted, with
exactly these claims, until its expiry, and not after it.  A string is accepted only if it is
signed with the secret and its payload has exactly the claims that are returned, numbers as they
convert to a `long`, and has not expired. -/
theorem jwt_sound_complete (codec : Json.Codec) (lib : OpenSsl) (secret : Bytes)
    (hdump : codec.DumpsUtf8) (hwrites : lib.WritesBase64) (hlib : lib.ReadsBase64)
    (hhmac : ∀ data, (lib.hmac secret data).isSome) :
    (∀ (claims : AuthInfo) (issued now : Instant) (expiresSeconds : Int32),
      Utf8.wellFormed claims.username = true → Utf8.wellFormed claims.role = true →
      codec.ReadsBack (jwtPayload claims issued expiresSeconds) →
      issued.seconds + expiresSeconds.toInt ≠ 0 →
      ∃ token, generateJwt codec lib secret claims expiresSeconds issued = .ok token ∧
        verifyJwt codec lib secret token now =
          if now.seconds ≤ issued.seconds + expiresSeconds.toInt then some claims else none) ∧
    ∀ (token : Bytes) (now : Instant) (info : AuthInfo),
      verifyJwt codec lib secret token now = some info ↔
        ∃ h p s text members, token = h ++ 46 :: (p ++ 46 :: s) ∧ 46 ∉ h ∧ 46 ∉ p ∧
          hmacSha256Base64Url lib secret (h ++ 46 :: p) = .ok s ∧
          base64UrlDecode lib p = some text ∧ codec.parse text = .ok (.obj members) ∧
          Carries members info now := by
  constructor
  · intro claims issued now expiresSeconds husername hrole hpayload hexpiry
    obtain ⟨token, htoken⟩ :=
      exists_generateJwt hdump hhmac husername hrole expiresSeconds issued
    exact ⟨token, htoken, verifyJwt_generateJwt hwrites hlib hpayload hexpiry htoken⟩
  · intro token now info
    exact verifyJwt_eq_some_iff

/-- Claims, and the second at which a token is issued for them. -/
def sampleClaims : AuthInfo := ⟨7, ascii "bob", ascii "admin"⟩

/-- When it is issued. -/
def sampleInstant : Instant := ⟨1700000000, by decide, by decide⟩

/-- The header, as `dump()` prints it. -/
def sampleHeaderText : Bytes := ascii "\x7b\"alg\":\"HS256\",\"typ\":\"JWT\"\x7d"

/-- The payload of a token for an hour. -/
def samplePayloadText : Bytes :=
  ascii ("\x7b\"exp\":1700003600,\"iat\":1700000000,\"role\":\"admin\",\"sub\":7," ++
    "\"username\":\"bob\"\x7d")

/-- A payload with a fraction. -/
def fractionText : Bytes := ascii "\x7b\"exp\":0.5\x7d"

/-- A codec that knows these three texts. -/
def sampleCodec : Json.Codec where
  dump v :=
    if v.utf8 then
      some (if (v.find? (ascii "alg")).isSome then sampleHeaderText else samplePayloadText)
    else none
  parse text :=
    if text = samplePayloadText then .ok (jwtPayload sampleClaims sampleInstant 3600)
    else if text = fractionText then .ok (.obj [(ascii "exp", .float (1 / 2))])
    else .error (ascii "parse error")

theorem sampleCodec_dumpsUtf8 : sampleCodec.DumpsUtf8 := by
  intro v
  by_cases hv : v.utf8 = true <;> simp [sampleCodec, hv]

theorem sampleCodec_readsBack :
    sampleCodec.ReadsBack (jwtPayload sampleClaims sampleInstant 3600) := by
  intro text htext
  have hdump : sampleCodec.dump (jwtPayload sampleClaims sampleInstant 3600) =
      some samplePayloadText := by rfl
  obtain rfl : samplePayloadText = text := Option.some.inj (hdump.symm.trans htext)
  refine ⟨by decide, ?_⟩
  simp only [sampleCodec, if_true]

/-- The text in base64url. -/
def urlText (text : Bytes) : Bytes := base64UrlFromBase64 (Base64.encode text)

/-- The HMAC-SHA256 of the two signing inputs under the key `secret`. -/
def sampleMac (data : Bytes) : Bytes :=
  if data = urlText sampleHeaderText ++ 46 :: urlText fractionText then
    [11, 246, 159, 162, 254, 54, 153, 171, 209, 223, 95, 216, 123, 10, 240, 58, 124, 116, 134, 167,
      220, 117, 202, 149, 13, 137, 226, 214, 38, 209, 201, 235]
  else
    [48, 53, 38, 171, 43, 226, 11, 150, 253, 93, 25, 64, 239, 33, 103, 85, 39, 79, 32, 247, 162,
      187, 124, 108, 147, 190, 30, 250, 108, 42, 42, 10]

/-- OpenSSL, as far as these tokens need it. -/
def sampleOpenSsl : OpenSsl where
  bioWrite := Base64.encode
  bioRead text := (Base64.decode text).getD []
  hmac _ data := some (sampleMac data)
  pbkdf2 _ _ _ _ := none
  randBytes _ := none

theorem sampleOpenSsl_writesBase64 : sampleOpenSsl.WritesBase64 := fun _ => rfl

theorem sampleOpenSsl_readsBase64 : sampleOpenSsl.ReadsBase64 := by
  intro bytes
  simp only [sampleOpenSsl, Base64.decode_encode, Option.getD_some]

/-- A token for an hour is accepted in the second it is issued. -/
theorem jwt_sound_complete_hour :
    ∃ token, generateJwt sampleCodec sampleOpenSsl (ascii "secret") sampleClaims 3600
        sampleInstant = .ok token ∧
      verifyJwt sampleCodec sampleOpenSsl (ascii "secret") token sampleInstant =
        some sampleClaims :=
  (jwt_sound_complete sampleCodec sampleOpenSsl (ascii "secret") sampleCodec_dumpsUtf8
    sampleOpenSsl_writesBase64 sampleOpenSsl_readsBase64 fun _ => rfl).1 sampleClaims
    sampleInstant sampleInstant 3600 (by decide) (by decide) sampleCodec_readsBack (by decide)

/-- **A fraction is dropped.**  The payload `exp` is 0.5, neither absent nor 0 and long before the
second at which the token is verified, and the token is accepted. -/
theorem fraction_accepted :
    verifyJwt sampleCodec sampleOpenSsl (ascii "secret")
        (ascii ("eyJhbGciOiJIUzI1NiIsInR5cCI6IkpXVCJ9.eyJleHAiOjAuNX0." ++
          "C_afov42mavR31_YewrwOnx0hqfcdcqVDYni1ibRyes")) sampleInstant = some ⟨0, [], []⟩ ∧
      base64UrlDecode sampleOpenSsl (ascii "eyJleHAiOjAuNX0") = some fractionText ∧
      sampleCodec.parse fractionText = .ok (.obj [(ascii "exp", .float (1 / 2))]) ∧
      (1 / 2 : Rat) ≠ 0 ∧ (1 / 2 : Rat) < sampleInstant.seconds := by
  refine ⟨by decide +kernel, by decide +kernel, ?_, by norm_num, ?_⟩
  · have hne : fractionText ≠ samplePayloadText := by decide
    simp only [sampleCodec, if_neg hne, if_true]
  · norm_num [sampleInstant]

end OnlineJudge.Auth
