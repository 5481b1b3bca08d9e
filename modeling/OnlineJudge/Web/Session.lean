/-
# The session in the browser

The pages keep the token of the last login in `localStorage`, with the role that its payload names
(`web/js/utils.js`).  They read the payload themselves and do not check the signature: to show who
is signed in, to hide the administration, and to leave a token that has expired at home (`request`
of `web/js/api.js`).  The server reads the same token with `VerifyJwt`.

`localStorage` is one for all tabs.  A run is any sequence of answers that arrive, pages that look
and users who sign out, at whatever times.

* `decodeJwtPayload_token`: in a token of the server the pages find the payload.
* `session_agrees`: in every run, what the pages take a user for is what the server takes the next
  request for.

The clocks of the browser and of the server are assumed to agree at the instant that is looked at.
Without that the statement would be false, and nothing in the pages allows for it.
-/
import OnlineJudge.Handler.Accounts
import OnlineJudge.Server.HtmlEscape

namespace OnlineJudge.Web

open ByteString Net Auth Handler

/-! ## 1. The browser

What the pages need of the language and of the browser.  `atob` is a definition, since what it skips
and refuses matters; `JSON.parse` and the conversions are parameters with what is relied on as a
hypothesis. -/

/-- The string of these code units, as `atob` returns it. -/
def binary (bytes : Bytes) : JsString := bytes.map UInt8.toUInt16

/-- A number, by its value.  A finite one is a rational here, since only comparisons with whole
seconds are made. -/
inductive JsNumber
  | nan
  | infinite (negative : Bool)
  | finite (q : Rat)

/-- A value as `JSON.parse` returns it. -/
inductive JsValue
  | null
  | bool (b : Bool)
  | number (x : JsNumber)
  | string (s : JsString)
  | array (items : List JsValue)
  | object (members : List (JsString × JsValue))

namespace JsValue

/-- Whether `||` and `if` take the value for true. -/
def truthy : JsValue → Bool
  | null => false
  | bool b => b
  | number .nan => false
  | number (.infinite _) => true
  | number (.finite q) => q != 0
  | string s => !s.isEmpty
  | array _ => true
  | object _ => true

/-- `v.name`, for a name that only objects have; `none` is `undefined`. -/
def get (v : JsValue) (name : JsString) : Option JsValue :=
  match v with
  | object members => members.lookup name
  | _ => none

/-- `v`, if `typeof v === "string"`. -/
def text? : JsValue → Option JsString
  | string s => some s
  | _ => none

end JsValue

/-- What the pages call.  `text` is the string of the bytes of a response, `parse` is `JSON.parse`
where it does not raise, `number` is `Number(v)` and `string` is `String(v)`. -/
structure Engine where
  text : Bytes → JsString
  parse : JsString → Option JsValue
  number : JsValue → JsNumber
  string : JsValue → JsString

/-- What `atob` skips. -/
def isWhitespace (c : UInt16) : Bool := [9, 10, 12, 13, 32].contains c

/-- A character of the standard alphabet. -/
def isAlphabet (c : UInt16) : Bool := c < 128 && Base64.alphabet.contains c.toUInt8

/-- At most two `=` at the end. -/
def dropPadding (s : JsString) : JsString :=
  match s.reverse with
  | 61 :: 61 :: rest => rest.reverse
  | 61 :: rest => rest.reverse
  | _ => s

/-- `atob`; `none` where it raises. -/
def atob (s : JsString) : Option JsString :=
  let kept := s.filter fun c => !isWhitespace c
  let digits := if kept.length % 4 = 0 then dropPadding kept else kept
  if digits.all isAlphabet ∧ digits.length % 4 ≠ 1 then
    (Base64.decode (digits.map UInt16.toUInt8 ++
      List.replicate ((4 - digits.length % 4) % 4) Base64.pad)).map binary
  else none

/-! ## 2. `utils.js`

The functions of the source on a storage with four places.  A look at the storage can change it: a
token that has expired is thrown away. -/

def base64UrlToBase64 (str : JsString) : JsString :=
  (str.map fun c => if c = 45 then 43 else c).map fun c => if c = 95 then 47 else c

/-- `localStorage`, as far as `STORAGE_KEYS` go. -/
structure Storage where
  token : Option JsString
  userId : Option JsString
  username : Option JsString
  role : Option JsString

/-- `clearAuth`. -/
def Storage.cleared : Storage := ⟨none, none, none, none⟩

def getToken (st : Storage) : JsString := st.token.getD []

/-- What `getCurrentUser` returns. -/
structure CurrentUser where
  token : JsString
  username : JsString
  userId : JsNumber
  role : JsString
  isAuthed : Bool

section

variable (engine : Engine)

def decodeJwtPayload (token : JsString) : Option JsValue :=
  match token.splitOn 46 with
  | _ :: part :: _ =>
    let b64 := base64UrlToBase64 part
    (atob (b64 ++ List.replicate ((4 - b64.length % 4) % 4) 61)).bind engine.parse
  | _ => none

/-- `isJwtExpired`; `now` is `Date.now()` in whole seconds. -/
def isJwtExpired (token : JsString) (now : Int) : Bool :=
  match decodeJwtPayload engine token with
  | none => false
  | some payload =>
    if !payload.truthy then false
    else
      let exp := match payload.get (js "exp") with
        | some v => if v.truthy then v else .number (.finite 0)
        | none => .number (.finite 0)
      match engine.number exp with
      | .finite q => if q ≤ 0 then false else decide (q < now)
      | _ => false

/-- `payload && typeof payload.role === "string"`, with the role. -/
def payloadRole (token : JsString) : Option JsString :=
  match decodeJwtPayload engine token with
  | none => none
  | some payload => if payload.truthy then (payload.get (js "role")).bind JsValue.text? else none

/-- `setAuth`.  The arguments are members of an answer, which may not be there. -/
def setAuth (st : Storage) (token userId : Option JsValue) (username : JsString) : Storage :=
  let st := match token with
    | some v =>
      if v.truthy then
        { st with
          token := some (engine.string v)
          role := payloadRole engine (engine.string v) }
      else st
    | none => st
  let st := match userId with
    | none | some .null => st
    | some v => { st with userId := some (engine.string v) }
  if username = [] then st else { st with username := some username }

/-- `getCurrentUser`, with what it leaves in the storage. -/
def getCurrentUser (now : Int) (st : Storage) : CurrentUser × Storage :=
  let token := getToken st
  if token ≠ [] ∧ isJwtExpired engine token now then
    (⟨[], [], .finite 0, [], false⟩, .cleared)
  else
    let userId := match engine.number (match st.userId with
        | some s => if s = [] then .number (.finite 0) else .string s
        | none => .number (.finite 0)) with
      | .finite q => .finite q
      | _ => .finite 0
    let role := st.role.getD []
    match (if role = [] ∧ token ≠ [] then payloadRole engine token else none) with
    | some found =>
      (⟨token, st.username.getD [], userId, found, !token.isEmpty⟩, { st with role := some found })
    | none => (⟨token, st.username.getD [], userId, role, !token.isEmpty⟩, st)

def isAdmin (now : Int) (st : Storage) : Bool :=
  let u := (getCurrentUser engine now st).1
  u.isAuthed && u.role == js "admin"

/-! ## 3. `api.js`

`request` has a part before the answer and a part behind it.  The first decides whether a token is
sent along, the second stores the one that comes. -/

/-- What becomes of a request of the pages. -/
inductive Sent
  /-- It is not sent: the login has expired. -/
  | refused
  /-- It is sent without an `Authorization` field. -/
  | plain
  /-- It is sent with `Bearer` and this token. -/
  | bearer (token : JsString)

/-- The first part of `request`, with what it leaves in the storage. -/
def request (now : Int) (st : Storage) : Sent × Storage :=
  let rawToken := getToken st
  let current := getCurrentUser engine now st
  if rawToken ≠ [] ∧ current.1.token = [] then (.refused, current.2)
  else if current.1.token = [] then (.plain, current.2)
  else (.bearer current.1.token, current.2)

/-- The payload that the second part of `request` makes of a body. -/
def payloadOf (body : Bytes) : JsValue :=
  if engine.text body = [] then .null
  else (engine.parse (engine.text body)).getD (.string (engine.text body))

/-- The second part of `request` for `login` and `register`, and what the page does with the
result. -/
def receive (st : Storage) (rsp : HttpResponse) (username : JsString) : Storage :=
  if 200 ≤ rsp.statu ∧ rsp.statu ≤ 299 then
    match payloadOf engine rsp.body with
    | .null => st
    | result => setAuth engine st (result.get (js "token")) (result.get (js "id")) username
  else if rsp.statu = 401 then .cleared
  else st

/-- What happens to the storage: an answer is stored, a page looks, or the user signs out. -/
inductive SessionAction
  /-- The answer to a login or a registration arrives, in the page of this user. -/
  | signIn (rsp : HttpResponse) (username : JsString)
  /-- The answer to another request arrives. -/
  | answered (statu : Int)
  /-- A page looks who is signed in, or begins a request. -/
  | look (now : Int)
  | signOut

/-- One of them. -/
def sessionStep (st : Storage) : SessionAction → Storage
  | .signIn rsp username => receive engine st rsp username
  | .answered statu => if statu = 401 then .cleared else st
  | .look now => (getCurrentUser engine now st).2
  | .signOut => .cleared

end

/-! ## 4. A token of the server in the browser

The payload is encoded by the server and decoded by the browser, by two programs that share no code.
The texts between them are ASCII, and the padding is put back on both sides. -/

theorem toUInt8_binary (bytes : Bytes) : (binary bytes).map UInt16.toUInt8 = bytes := by
  rw [binary, List.map_map]
  refine (List.map_congr_left fun b _ => ?_).trans (List.map_id bytes)
  exact UInt8.toUInt8_toUInt16 b

theorem binary_injective : Function.Injective binary :=
  Function.LeftInverse.injective toUInt8_binary

theorem binary_eq_nil {bytes : Bytes} : binary bytes = [] ↔ bytes = [] := List.map_eq_nil_iff

theorem length_binary (bytes : Bytes) : (binary bytes).length = bytes.length := List.length_map _

theorem binary_append (s t : Bytes) : binary (s ++ t) = binary s ++ binary t := List.map_append

theorem not_mem_binary {b : UInt8} {bytes : Bytes} (h : b ∉ bytes) :
    b.toUInt16 ∉ binary bytes := by
  intro hmem
  obtain ⟨c, hc, heq⟩ := List.mem_map.mp hmem
  have hsame := congrArg UInt16.toUInt8 heq
  rw [UInt8.toUInt8_toUInt16, UInt8.toUInt8_toUInt16] at hsame
  exact h (hsame ▸ hc)

/-- The characters of an encoded text are digits for `atob`, the padding apart. -/
theorem alphabet_spec : ∀ b ∈ Base64.alphabet, isWhitespace b.toUInt16 = false ∧
    isAlphabet b.toUInt16 = true ∧ b.toUInt16 ≠ 61 := by decide +kernel

/-- **The padding is dropped**, whether it is none, one or two characters. -/
theorem dropPadding_padded {s : JsString} (h : ∀ c ∈ s, c ≠ 61) {k : Nat} (hk : k ≤ 2) :
    dropPadding (s ++ List.replicate k 61) = s := by
  have hreverse : (s ++ List.replicate k (61 : UInt16)).reverse =
      List.replicate k 61 ++ s.reverse := by
    rw [List.reverse_append, List.reverse_replicate]
  have hs : ∀ c ∈ s.reverse, c ≠ 61 := fun c hc => h c (List.mem_reverse.mp hc)
  rw [dropPadding, hreverse]
  rw [← List.reverse_reverse s] at *
  rw [List.reverse_reverse] at hs ⊢
  generalize s.reverse = r at hs ⊢
  obtain rfl | rfl | rfl : k = 0 ∨ k = 1 ∨ k = 2 := by omega
  · cases r with
    | nil => rfl
    | cons c r =>
      have hc : c ≠ 61 := hs c (.head _)
      simp [hc]
  · cases r with
    | nil => rfl
    | cons c r =>
      have hc : c ≠ 61 := hs c (.head _)
      simp [hc]
  · simp

/-- **`atob` reads what the server has encoded**, with the padding that it has. -/
theorem atob_encode (data : Bytes) : atob (binary (Base64.encode data)) = some (binary data) := by
  obtain ⟨body, k, heq, hbody, hk, hlen⟩ := Base64.encode_padded data
  have hpad : binary (List.replicate k Base64.pad) = List.replicate k 61 := List.map_replicate
  have hdigit : ∀ c ∈ binary body, isWhitespace c = false ∧ isAlphabet c = true ∧ c ≠ 61 := by
    intro c hc
    obtain ⟨b, hb, rfl⟩ := List.mem_map.mp hc
    exact alphabet_spec b (hbody b hb)
  have hkept : (binary (Base64.encode data)).filter (fun c => !isWhitespace c) =
      binary body ++ List.replicate k 61 := by
    rw [heq, binary_append, hpad, List.filter_append, List.filter_replicate]
    congr 1
    exact List.filter_eq_self.mpr fun c hc => by rw [(hdigit c hc).1]; rfl
  have hdigits : (if (binary body ++ List.replicate k (61 : UInt16)).length % 4 = 0 then
      dropPadding (binary body ++ List.replicate k 61) else binary body ++ List.replicate k 61) =
      binary body := by
    rw [if_pos (by rw [List.length_append, length_binary, List.length_replicate]; exact hlen)]
    exact dropPadding_padded (fun c hc => (hdigit c hc).2.2) (by omega)
  have hall : (binary body).all isAlphabet = true :=
    List.all_eq_true.mpr fun c hc => (hdigit c hc).2.1
  have hcount : (4 - body.length % 4) % 4 = k := by omega
  have hone : body.length % 4 ≠ 1 := by omega
  simp only [atob, hkept, hdigits, length_binary, hall, toUInt8_binary, hcount]
  rw [if_pos ⟨trivial, hone⟩, ← heq, Base64.decode_encode]
  rfl

theorem base64UrlToBase64_padded (p : Bytes) :
    base64UrlToBase64 (binary p) ++
        List.replicate ((4 - (base64UrlToBase64 (binary p)).length % 4) % 4) 61 =
      binary (base64FromBase64Url p) := by
  have hchar : ∀ b : UInt8, (fun c : UInt16 => if c = 95 then (47 : UInt16) else c)
      ((fun c : UInt16 => if c = 45 then (43 : UInt16) else c) b.toUInt16) =
      (standardChar b).toUInt16 := by
    have hall : ∀ n < 256, (fun c : UInt16 => if c = 95 then (47 : UInt16) else c)
        ((fun c : UInt16 => if c = 45 then (43 : UInt16) else c) (UInt8.ofNat n).toUInt16) =
        (standardChar (UInt8.ofNat n)).toUInt16 := by decide +kernel
    intro b
    rw [← UInt8.ofNat_toNat (x := b)]
    exact hall b.toNat b.toNat_lt
  have hmap : base64UrlToBase64 (binary p) = binary (p.map standardChar) := by
    rw [base64UrlToBase64, binary, binary, List.map_map, List.map_map, List.map_map]
    exact List.map_congr_left fun b _ => hchar b
  have hpad : ∀ k, binary (List.replicate k Base64.pad) = List.replicate k 61 :=
    fun k => List.map_replicate
  rw [hmap, length_binary, base64FromBase64Url]
  by_cases hm : (p.map standardChar).length % 4 = 0
  · rw [if_neg (not_not.mpr hm), hm]
    exact List.append_nil _
  · rw [if_pos hm, binary_append, hpad]
    congr 2
    omega

section

variable {engine : Engine} {env : Env}

/-- What the pages rely on: `JSON.parse` reads the texts that the server prints, whose strings are
then strings of bytes, and `Number` and `String` leave numbers and strings as they are. -/
structure Engine.Reads (engine : Engine) (codec : Json.Codec) : Prop where
  payload : ∀ claims issued text, codec.dump (jwtPayload claims issued 3600) = some text →
    ∃ members, engine.parse (binary text) = some (.object members) ∧
      members.lookup (js "exp") = some (.number (.finite (issued.seconds + 3600 : Int))) ∧
      members.lookup (js "role") = some (.string (binary claims.role))
  answer : ∀ id token text, (∀ b ∈ token, b < 0x80) →
    codec.dump (tokenDoc id token) = some text → engine.text text ≠ [] ∧
      ∃ members, engine.parse (engine.text text) = some (.object members) ∧
        members.lookup (js "token") = some (.string (binary token))
  number : ∀ x, engine.number (.number x) = x
  string : ∀ s, engine.string (.string s) = s

/-- A token that the server has issued for these claims, with the lifetime of the handlers, at an
instant after 1970. -/
def Issued (env : Env) (claims : AuthInfo) (issued : Instant) (token : Bytes) : Prop :=
  0 ≤ issued.seconds ∧
    generateJwt env.codec env.openSsl env.jwtSecret claims 3600 issued = .ok token

/-- **In a token of the server the pages find the payload.** -/
theorem decodeJwtPayload_token (hwrites : env.openSsl.WritesBase64) {claims : AuthInfo}
    {issued : Instant} {token : Bytes} (h : Issued env claims issued token) :
    ∃ text, env.codec.dump (jwtPayload claims issued 3600) = some text ∧
      decodeJwtPayload engine (binary token) = engine.parse (binary text) := by
  obtain ⟨header, payload, sig, -, hpayload, -, rfl⟩ := generateJwt_eq_ok.mp h.2
  refine ⟨payload, hpayload, ?_⟩
  have hdot : ∀ data, (46 : UInt16) ∉ binary (base64UrlEncode env.openSsl data) :=
    fun data => not_mem_binary (dot_not_mem_base64UrlEncode hwrites data)
  have hbytes : binary (base64UrlEncode env.openSsl header ++ 46 ::
      (base64UrlEncode env.openSsl payload ++ 46 :: sig)) =
        binary (base64UrlEncode env.openSsl header) ++ 46 ::
          (binary (base64UrlEncode env.openSsl payload) ++ 46 :: binary sig) := by
    simp only [binary, List.map_append, List.map_cons]
    rfl
  have hsplit : (binary (base64UrlEncode env.openSsl header ++ 46 ::
      (base64UrlEncode env.openSsl payload ++ 46 :: sig))).splitOn 46 =
        binary (base64UrlEncode env.openSsl header) ::
          binary (base64UrlEncode env.openSsl payload) :: (binary sig).splitOn 46 := by
    rw [hbytes, List.splitOn_append_cons_self_of_not_mem (hdot _),
      List.splitOn_append_cons_self_of_not_mem (hdot _)]
  simp only [decodeJwtPayload, hsplit]
  rw [base64UrlToBase64_padded, base64FromBase64Url_base64UrlEncode hwrites, atob_encode]
  rfl

/-- It names the expiry and the role. -/
theorem members_of_token (hwrites : env.openSsl.WritesBase64) (hreads : engine.Reads env.codec)
    {claims : AuthInfo} {issued : Instant} {token : Bytes} (h : Issued env claims issued token) :
    ∃ members, decodeJwtPayload engine (binary token) = some (.object members) ∧
      members.lookup (js "exp") = some (.number (.finite (issued.seconds + 3600 : Int))) ∧
      members.lookup (js "role") = some (.string (binary claims.role)) := by
  obtain ⟨text, hdump, hdecode⟩ := decodeJwtPayload_token hwrites h
  rw [hdecode]
  exact hreads.payload claims issued text hdump

/-- **The pages take a token for expired when the server does.** -/
theorem isJwtExpired_token (hwrites : env.openSsl.WritesBase64) (hreads : engine.Reads env.codec)
    {claims : AuthInfo} {issued : Instant} {token : Bytes} (h : Issued env claims issued token)
    (now : Int) :
    isJwtExpired engine (binary token) now = decide (issued.seconds + 3600 < now) := by
  obtain ⟨members, hdecode, hexp, -⟩ := members_of_token hwrites hreads h
  have hpos : 0 < issued.seconds + 3600 := by
    have hissued := h.1
    omega
  have hrat : (0 : Rat) < ((issued.seconds + 3600 : Int) : Rat) := Int.cast_pos.mpr hpos
  have htruthy : (JsValue.number (.finite ((issued.seconds + 3600 : Int) : Rat))).truthy = true :=
    bne_iff_ne.mpr (ne_of_gt hrat)
  simp only [isJwtExpired, hdecode, JsValue.get, hexp, htruthy, if_true, hreads.number]
  rw [if_neg (not_le.mpr hrat)]
  simp only [JsValue.truthy, Bool.not_true, Bool.false_eq_true, if_false, Int.cast_lt]

/-- And for a token of its role. -/
theorem payloadRole_token (hwrites : env.openSsl.WritesBase64) (hreads : engine.Reads env.codec)
    {claims : AuthInfo} {issued : Instant} {token : Bytes} (h : Issued env claims issued token) :
    payloadRole engine (binary token) = some (binary claims.role) := by
  obtain ⟨members, hdecode, -, hrole⟩ := members_of_token hwrites hreads h
  simp only [payloadRole, hdecode, JsValue.get, hrole, JsValue.truthy, if_true]
  rfl

end

/-! ## 5. What the server answers

What the storage gets is what the handlers of login and registration answer, over any database: an
error or a token. -/

/-- An error, or a token. -/
def GivesToken (env : Env) (rsp : HttpResponse) : Prop :=
  400 ≤ rsp.statu ∨ ∃ claims, HandsOut env claims rsp

section

variable {σ : Type} {env : Env} {dao : Dao σ} {w : World σ}

theorem givesToken_loginHandler (hw : w.response = .ofStatu 200) (req : HttpRequest)
    (captures : List Bytes) :
    GivesToken env ((loginHandler env dao req captures).run w).2.response := by
  refine Program.final_of_wp (P := fun w : World σ => GivesToken env w.response) ?_
  have hanswered : ∀ {w' : World σ} {status : Int} {text : Bytes}, 400 ≤ status →
      GivesToken env (w'.answered status text).response := fun hstatus => .inl hstatus
  rw [loginHandler, wp_guardAuth]
  simp only [Program.wp_bind, Program.wp_ofExcept]
  refine ⟨fun given _ => ?_, fun _ _ => hanswered (by decide)⟩
  split
  · exact hanswered (by decide)
  · simp only [Program.wp_bind, wp_call]
    refine ⟨fun found db _ => ?_, fun _ _ _ => hanswered (by decide)⟩
    cases found with
    | none => exact hanswered (by decide)
    | some u =>
      simp only [Program.wp_bind, Program.wp_ofExcept]
      refine ⟨fun verified _ => ?_, fun _ _ => hanswered (by decide)⟩
      cases verified with
      | false => exact hanswered (by decide)
      | true =>
        exact wp_sendToken _ hw (fun _ => hanswered (by decide)) fun rsp hrsp => .inr ⟨_, hrsp⟩

theorem givesToken_registerHandler (hw : w.response = .ofStatu 200) (req : HttpRequest)
    (captures : List Bytes) :
    GivesToken env ((registerHandler env dao req captures).run w).2.response := by
  refine Program.final_of_wp (P := fun w : World σ => GivesToken env w.response) ?_
  have hanswered : ∀ {w' : World σ} {status : Int} {text : Bytes}, 400 ≤ status →
      GivesToken env (w'.answered status text).response := fun hstatus => .inl hstatus
  rw [registerHandler, wp_guardAuth]
  simp only [Program.wp_bind, Program.wp_ofExcept]
  refine ⟨fun given _ => ⟨fun email _ => ?_, fun _ _ => hanswered (by decide)⟩,
    fun _ _ => hanswered (by decide)⟩
  split
  · exact hanswered (by decide)
  · simp only [Program.wp_bind, wp_call]
    refine ⟨fun found db _ => ?_, fun _ _ _ => hanswered (by decide)⟩
    cases found with
    | some u => exact hanswered (by decide)
    | none =>
      simp only [Program.wp_bind, Program.wp_ofExcept, wp_call]
      refine ⟨fun hash _ => ⟨fun id db' _ => ?_, fun _ _ _ => hanswered (by decide)⟩,
        fun _ _ => hanswered (by decide)⟩
      exact wp_sendToken _ hw (fun _ => hanswered (by decide)) fun rsp hrsp => .inr ⟨_, hrsp⟩

end

/-- What can happen: the answers to logins and registrations are those of the two handlers, at any
time after 1970 and over any database. -/
def SessionAction.Possible (env : Env) : SessionAction → Prop
  | .signIn rsp _ => ∃ (issued : Instant) (σ : Type) (dao : Dao σ) (w : World σ) (req : HttpRequest)
      (captures : List Bytes), 0 ≤ issued.seconds ∧ w.response = .ofStatu 200 ∧
        (rsp = ((loginHandler { env with now := issued } dao req captures).run w).2.response ∨
          rsp = ((registerHandler { env with now := issued } dao req captures).run w).2.response)
  | _ => True

/-- An answer to a login or a registration is an error, or carries a token that was just issued. -/
theorem SessionAction.Possible.signIn {env : Env} {rsp : HttpResponse} {username : JsString}
    (h : (SessionAction.signIn rsp username).Possible env) :
    400 ≤ rsp.statu ∨ ∃ claims issued token text, Issued env claims issued token ∧
      env.codec.dump (tokenDoc claims.userId token) = some text ∧ rsp.statu = 200 ∧
        rsp.body = text := by
  obtain ⟨issued, σ, dao, w, req, captures, hissued, hw, hrsp⟩ := h
  have hgives : GivesToken { env with now := issued } rsp := by
    rcases hrsp with rfl | rfl
    · exact givesToken_loginHandler hw req captures
    · exact givesToken_registerHandler hw req captures
  rcases hgives with herror | ⟨claims, token, text, htoken, hdump, rfl⟩
  · exact .inl herror
  · exact .inr ⟨claims, issued, token, text, ⟨hissued, htoken⟩, hdump, rfl, rfl⟩

/-! ## 6. The session

The invariant of the storage, whichever tab changes it. -/

section

variable {engine : Engine} {env : Env}

/-- **The invariant of the storage.**  It is empty, or it has a token of the server with its
role. -/
inductive Session (env : Env) : Storage → Prop
  | out : Session env .cleared
  | signedIn {st : Storage} (claims : AuthInfo) (issued : Instant) (token : Bytes)
      (hissued : Issued env claims issued token) (htoken : st.token = some (binary token))
      (hrole : st.role = some (binary claims.role)) : Session env st

theorem Issued.ne_nil {claims : AuthInfo} {issued : Instant} {token : Bytes}
    (h : Issued env claims issued token) : binary token ≠ [] := by
  obtain ⟨header, payload, sig, -, -, -, rfl⟩ := generateJwt_eq_ok.mp h.2
  rw [Ne, binary_eq_nil]
  exact List.append_ne_nil_of_right_ne_nil _ (List.cons_ne_nil _ _)

theorem Issued.ascii (hwrites : env.openSsl.WritesBase64) {claims : AuthInfo} {issued : Instant}
    {token : Bytes} (h : Issued env claims issued token) : ∀ b ∈ token, b < 0x80 :=
  ascii_token hwrites h.2

theorem setAuth_token (hreads : engine.Reads env.codec) (st : Storage) {t : JsString} (ht : t ≠ [])
    (userId : Option JsValue) (username : JsString) :
    (setAuth engine st (some (.string t)) userId username).token = some t ∧
      (setAuth engine st (some (.string t)) userId username).role = payloadRole engine t := by
  have htruthy : (JsValue.string t).truthy = true := by
    cases t with
    | nil => exact absurd rfl ht
    | cons c t => rfl
  simp only [setAuth, htruthy, if_true, hreads.string]
  split <;> split <;> exact ⟨rfl, rfl⟩

/-- Nobody is signed in, and the storage stays as it is. -/
theorem getCurrentUser_cleared (engine : Engine) (now : Int) :
    (getCurrentUser engine now .cleared).1.token = [] ∧
      (getCurrentUser engine now .cleared).1.role = [] ∧
      (getCurrentUser engine now .cleared).1.isAuthed = false ∧
      (getCurrentUser engine now .cleared).2 = .cleared := by
  simp [getCurrentUser, getToken, Storage.cleared]

/-- Whoever has a token is shown with its role until it has expired, and then the storage is
cleared. -/
theorem getCurrentUser_signedIn (hwrites : env.openSsl.WritesBase64)
    (hreads : engine.Reads env.codec) {st : Storage} {claims : AuthInfo} {issued : Instant}
    {token : Bytes} (hissued : Issued env claims issued token)
    (htoken : st.token = some (binary token)) (hrole : st.role = some (binary claims.role))
    (now : Int) :
    if now ≤ issued.seconds + 3600 then
      (getCurrentUser engine now st).1.token = binary token ∧
        (getCurrentUser engine now st).1.role = binary claims.role ∧
        (getCurrentUser engine now st).1.isAuthed = true ∧ (getCurrentUser engine now st).2 = st
    else getCurrentUser engine now st = (⟨[], [], .finite 0, [], false⟩, .cleared) := by
  have hget : getToken st = binary token := by
    rw [getToken, htoken]
    rfl
  have hexpired := isJwtExpired_token hwrites hreads hissued now
  have hauthed : (!(binary token).isEmpty) = true := by
    rw [Bool.not_eq_true', List.isEmpty_eq_false_iff]
    exact hissued.ne_nil
  split
  · rename_i hle
    have hfresh : ¬ (binary token ≠ [] ∧ isJwtExpired engine (binary token) now = true) := by
      rw [hexpired, decide_eq_true_eq]
      omega
    have hrole' : st.role.getD [] = binary claims.role := by
      rw [hrole]
      rfl
    simp only [getCurrentUser, hget, if_neg hfresh, hrole',
      payloadRole_token hwrites hreads hissued]
    by_cases hempty : binary claims.role = [] ∧ binary token ≠ []
    · -- an empty role is looked up again, and is empty
      rw [if_pos hempty]
      refine ⟨rfl, rfl, hauthed, ?_⟩
      cases st
      dsimp only at hrole
      rw [hrole]
    · rw [if_neg hempty]
      exact ⟨rfl, rfl, hauthed, rfl⟩
  · rename_i hlate
    have hlate' : binary token ≠ [] ∧ isJwtExpired engine (binary token) now = true := by
      refine ⟨hissued.ne_nil, ?_⟩
      rw [hexpired, decide_eq_true_eq]
      omega
    simp only [getCurrentUser, hget, if_pos hlate']

/-- A look leaves the session, or ends it. -/
theorem Session.look (hwrites : env.openSsl.WritesBase64) (hreads : engine.Reads env.codec)
    {st : Storage} (h : Session env st) (now : Int) :
    Session env (getCurrentUser engine now st).2 := by
  cases h with
  | out =>
    rw [(getCurrentUser_cleared engine now).2.2.2]
    exact .out
  | signedIn claims issued token hissued htoken hrole =>
    have hlook := getCurrentUser_signedIn hwrites hreads hissued htoken hrole now
    split at hlook
    · rw [hlook.2.2.2]
      exact .signedIn claims issued token hissued htoken hrole
    · rw [hlook]
      exact .out

/-- **What a step keeps**: an answer stores a token of the server or nothing, a look may clear the
storage, and signing out does. -/
theorem Session.step (hwrites : env.openSsl.WritesBase64) (hreads : engine.Reads env.codec)
    {st : Storage} (h : Session env st) {a : SessionAction} (ha : a.Possible env) :
    Session env (sessionStep engine st a) := by
  cases a with
  | signIn rsp username =>
    rw [sessionStep, receive]
    rcases ha.signIn with herror | ⟨claims, issued, token, text, hissued, hdump, hstatu, hbody⟩
    · rw [if_neg (by omega)]
      split
      · exact .out
      · exact h
    · obtain ⟨hne, members, hparse, hmember⟩ := hreads.answer _ _ _ (hissued.ascii hwrites) hdump
      have hpayload : payloadOf engine rsp.body = .object members := by
        rw [payloadOf, hbody, if_neg hne, hparse]
        rfl
      have hget : (JsValue.object members).get (js "token") = some (.string (binary token)) :=
        hmember
      obtain ⟨htoken, hrole⟩ := setAuth_token hreads st hissued.ne_nil
        ((JsValue.object members).get (js "id")) username
      rw [if_pos (by omega), hpayload]
      dsimp only
      rw [hget]
      exact .signedIn claims issued token hissued htoken
        (hrole.trans (payloadRole_token hwrites hreads hissued))
  | answered statu =>
    rw [sessionStep]
    split
    · exact .out
    · exact h
  | look now => exact h.look hwrites hreads now
  | signOut => exact .out

/-- **What a run keeps**, by induction on what happens to the storage. -/
theorem session_of_run (hwrites : env.openSsl.WritesBase64) (hreads : engine.Reads env.codec)
    {as : List SessionAction} (has : ∀ a ∈ as, a.Possible env) {st : Storage} (h : Session env st) :
    Session env (as.foldl (sessionStep engine) st) := by
  induction as generalizing st with
  | nil => exact h
  | cons a as ih =>
    rw [List.foldl_cons]
    exact ih (fun b hb => has b (.tail _ hb)) (h.step hwrites hreads (has a (.head _)))

end

/-! ## 7. Browser and server

`Agreement` is what one look at the storage shows, on both sides.  The three cases are a storage
without a token, with one that is fresh and with one that has expired. -/

/-- The request has the `Authorization` field with which it is sent. -/
def Bears : Sent → HttpRequest → Prop
  | .refused, _ => False
  | .plain, req => req.headers.find? (ascii "Authorization") = none
  | .bearer t, req => ∃ token, t = binary token ∧
      req.headers.find? (ascii "Authorization") = some (ascii "Bearer " ++ token)

section

variable {engine : Engine} {env : Env}

/-- What the server makes of a request with this token. -/
theorem authenticateRequest_bearer {req : HttpRequest} {token : Bytes}
    (h : req.headers.find? (ascii "Authorization") = some (ascii "Bearer " ++ token))
    (now : Instant) :
    authenticateRequest env.codec env.openSsl env.jwtSecret req now =
      verifyJwt env.codec env.openSsl env.jwtSecret token now := by
  refine Option.ext fun info => ?_
  rw [authenticateRequest_eq_some_iff, h]
  constructor
  · rintro ⟨token', hsame, hverify⟩
    obtain rfl := List.append_cancel_left (Option.some.inj hsame)
    exact hverify
  · exact fun hverify => ⟨token, rfl, hverify⟩

theorem js_admin : js "admin" = binary (ascii "admin") := by decide

/-- **What it is to agree** on a storage at an instant: a request that is sent is authenticated
exactly if the page shows somebody as signed in, the administration is shown exactly if the server
takes the request for an administrator's, and the page shows the role of the token.  A request that
is kept back has ended the session. -/
structure Agreement (engine : Engine) (env : Env) (now : Instant) (st : Storage) : Prop where
  sent : ∀ req, Bears (request engine now.seconds st).1 req →
    ((getCurrentUser engine now.seconds st).1.isAuthed = true ↔
      (authenticateRequest env.codec env.openSsl env.jwtSecret req now).isSome = true) ∧
    (isAdmin engine now.seconds st = true ↔
      ∃ info, authenticateRequest env.codec env.openSsl env.jwtSecret req now = some info ∧
        info.role = ascii "admin") ∧
    ∀ info, authenticateRequest env.codec env.openSsl env.jwtSecret req now = some info →
      (getCurrentUser engine now.seconds st).1.role = binary info.role
  refused : (request engine now.seconds st).1 = .refused →
    (request engine now.seconds st).2 = .cleared ∧
      (getCurrentUser engine now.seconds st).1.isAuthed = false ∧
      isAdmin engine now.seconds st = false

/-- Signed out, the page sends no token, and shows nobody. -/
theorem agreement_cleared (engine : Engine) (env : Env) (now : Instant) :
    Agreement engine env now .cleared := by
  obtain ⟨htoken, hrole, hauthed, hcleared⟩ := getCurrentUser_cleared engine now.seconds
  have hraw : getToken .cleared = [] := rfl
  have hsent : request engine now.seconds .cleared = (.plain, .cleared) := by
    simp [request, hraw, htoken, hcleared]
  have hadmin : isAdmin engine now.seconds .cleared = false := by
    simp [isAdmin, hauthed]
  refine ⟨fun req hbears => ?_, fun hrefused => ?_⟩
  · rw [hsent] at hbears
    have hnone : authenticateRequest env.codec env.openSsl env.jwtSecret req now = none := by
      rw [authenticateRequest, show req.headers.find? (ascii "Authorization") = none from hbears]
    rw [hnone, hauthed, hadmin]
    simp
  · rw [hsent] at hrefused
    cases hrefused

/-- As long as the token has not expired, the page sends it and shows what it is for. -/
theorem agreement_fresh {st : Storage} {claims : AuthInfo} {token : Bytes} {now : Instant}
    (hne : binary token ≠ []) (hraw : getToken st = binary token)
    (hlook : (getCurrentUser engine now.seconds st).1.token = binary token ∧
      (getCurrentUser engine now.seconds st).1.role = binary claims.role ∧
      (getCurrentUser engine now.seconds st).1.isAuthed = true ∧
      (getCurrentUser engine now.seconds st).2 = st)
    (hverify : verifyJwt env.codec env.openSsl env.jwtSecret token now = some claims) :
    Agreement engine env now st := by
  obtain ⟨htoken, hrole, hauthed, hstays⟩ := hlook
  have hsent : (request engine now.seconds st).1 = .bearer (binary token) := by
    simp [request, hraw, htoken, hne]
  refine ⟨fun req hbears => ?_, fun hrefused => ?_⟩
  · rw [hsent] at hbears
    obtain ⟨token', hsame, hheader⟩ := hbears
    obtain rfl := binary_injective hsame
    rw [authenticateRequest_bearer hheader, hverify, hauthed]
    refine ⟨iff_of_true rfl rfl, ?_, ?_⟩
    · rw [isAdmin, hauthed, hrole, js_admin, Bool.true_and, beq_iff_eq, binary_injective.eq_iff]
      constructor
      · exact fun h => ⟨claims, rfl, h⟩
      · rintro ⟨info, hinfo, h⟩
        obtain rfl := Option.some.inj hinfo
        exact h
    · intro info hinfo
      obtain rfl := Option.some.inj hinfo
      exact hrole
  · rw [hsent] at hrefused
    cases hrefused

/-- Afterwards it sends nothing, and forgets the token. -/
theorem agreement_expired {st : Storage} {now : Instant} (hraw : getToken st ≠ [])
    (hlook : getCurrentUser engine now.seconds st = (⟨[], [], .finite 0, [], false⟩, .cleared)) :
    Agreement engine env now st := by
  have hsent : request engine now.seconds st = (.refused, .cleared) := by
    simp [request, hraw, hlook]
  refine ⟨fun req hbears => ?_, fun _ => ?_⟩
  · rw [hsent] at hbears
    exact hbears.elim
  · rw [hsent]
    simp [isAdmin, hlook]

/-- **Signed in**, the page and the server look at the same expiry. -/
theorem agreement_signedIn (hwrites : env.openSsl.WritesBase64) (hlib : env.openSsl.ReadsBase64)
    (hreads : engine.Reads env.codec)
    (hback : ∀ claims issued, env.codec.ReadsBack (jwtPayload claims issued 3600)) {st : Storage}
    {claims : AuthInfo} {issued : Instant} {token : Bytes}
    (hissued : Issued env claims issued token) (htoken : st.token = some (binary token))
    (hrole : st.role = some (binary claims.role))
    (now : Instant) : Agreement engine env now st := by
  have hlook := getCurrentUser_signedIn hwrites hreads hissued htoken hrole now.seconds
  have hraw : getToken st = binary token := by
    rw [getToken, htoken]
    rfl
  have hhour : (3600 : Int32).toInt = 3600 := by decide
  have hexpiry : issued.seconds + (3600 : Int32).toInt ≠ 0 := by
    have hpos := hissued.1
    rw [hhour]
    omega
  have hverify : verifyJwt env.codec env.openSsl env.jwtSecret token now =
      if now.seconds ≤ issued.seconds + 3600 then some claims else none := by
    rw [← hhour]
    exact verifyJwt_generateJwt hwrites hlib (hback claims issued) hexpiry hissued.2
  split at hlook
  · rename_i hle
    rw [if_pos hle] at hverify
    exact agreement_fresh hissued.ne_nil hraw hlook hverify
  · exact agreement_expired (hraw ▸ hissued.ne_nil) hlook

/-- **Browser and server agree.**  In every run of a browser that begins with an empty storage, at
any instant on which the clocks agree: a request that is sent is authenticated exactly if the page
shows somebody as signed in, and then the page shows the role of the token; the administration is
shown exactly if the server takes the request for an administrator's; and a request that is kept
back has ended the session.  Signed out, nothing is stored. -/
theorem session_agrees (hreads : engine.Reads env.codec) (hwrites : env.openSsl.WritesBase64)
    (hlib : env.openSsl.ReadsBase64)
    (hback : ∀ claims issued, env.codec.ReadsBack (jwtPayload claims issued 3600))
    {as : List SessionAction} (has : ∀ a ∈ as, a.Possible env) {st : Storage}
    (hst : as.foldl (sessionStep engine) .cleared = st) (now : Instant) :
    (st.token = none → st = .cleared) ∧
      (∀ req, Bears (request engine now.seconds st).1 req →
        ((getCurrentUser engine now.seconds st).1.isAuthed = true ↔
          (authenticateRequest env.codec env.openSsl env.jwtSecret req now).isSome = true) ∧
        (isAdmin engine now.seconds st = true ↔
          ∃ info, authenticateRequest env.codec env.openSsl env.jwtSecret req now = some info ∧
            info.role = ascii "admin") ∧
        ∀ info, authenticateRequest env.codec env.openSsl env.jwtSecret req now = some info →
          (getCurrentUser engine now.seconds st).1.role = binary info.role) ∧
      ((request engine now.seconds st).1 = .refused →
        (request engine now.seconds st).2 = .cleared ∧
          (getCurrentUser engine now.seconds st).1.isAuthed = false ∧
          isAdmin engine now.seconds st = false) := by
  have hsession : Session env st := hst ▸ session_of_run hwrites hreads has .out
  cases hsession with
  | out =>
    have hagrees := agreement_cleared engine env now
    exact ⟨fun _ => rfl, hagrees.sent, hagrees.refused⟩
  | signedIn claims issued token hissued htoken hrole =>
    have hagrees := agreement_signedIn hwrites hlib hreads hback hissued htoken hrole now
    refine ⟨fun hnone => ?_, hagrees.sent, hagrees.refused⟩
    rw [htoken] at hnone
    cases hnone

end

/-! ## 8. Bob registers

A run in which the two sides agree on somebody. -/

/-- A value without parts. -/
def flatValue : Json → JsValue
  | .bool b => .bool b
  | .int n => .number (.finite n)
  | .str s => .string (binary s)
  | _ => .null

/-- An engine that reads the objects which the server prints. -/
def sampleEngine : Engine where
  text := binary
  parse s :=
    match accountSite.codec.parse (s.map UInt16.toUInt8) with
    | .ok (.obj members) => some (.object (members.map fun m => (binary m.1, flatValue m.2)))
    | _ => none
  number v :=
    match v with
    | .number x => x
    | _ => .nan
  string v :=
    match v with
    | .string s => s
    | _ => []

theorem parse_sampleEngine {members : List (Bytes × Json)} {text : Bytes}
    (h : accountSite.codec.parse text = .ok (.obj members)) :
    sampleEngine.parse (binary text) =
      some (.object (members.map fun m => (binary m.1, flatValue m.2))) := by
  simp only [sampleEngine, toUInt8_binary, h]

theorem sampleEngine_reads : sampleEngine.Reads accountSite.codec where
  payload claims issued text htext := by
    refine ⟨_, parse_sampleEngine (readsBack_jwtPayload claims issued text htext).2, ?_, ?_⟩
    · have hfirst : (js "exp" == binary (ascii "exp")) = true := by decide
      simp only [jwtMembers, List.map_cons, List.lookup_cons, hfirst]
      rfl
    · have hexp : (js "role" == binary (ascii "exp")) = false := by decide
      have hiat : (js "role" == binary (ascii "iat")) = false := by decide
      have hrole : (js "role" == binary (ascii "role")) = true := by decide
      simp only [jwtMembers, List.map_cons, List.lookup_cons, hexp, hiat, hrole]
      rfl
  answer id token text _ htext := by
    obtain ⟨hne, hparse⟩ := readsBack_tokenDoc id token text htext
    refine ⟨fun hnil => hne (binary_eq_nil.mp hnil), _, parse_sampleEngine hparse, ?_⟩
    have hid : (js "token" == binary (ascii "id")) = false := by decide
    have htoken : (js "token" == binary (ascii "token")) = true := by decide
    simp only [List.map_cons, List.lookup_cons, hid, htoken]
    rfl
  number _ := rfl
  string _ := rfl

/-- The site at which Bob registers. -/
def bobEnv : Env := registerMoment.env accountSite

/-- The answer that he gets. -/
def bobRegistration : HttpResponse :=
  ((registerHandler bobEnv registerMoment.server.dao (loginRequest "secret-pass") []).run
    emptyState.world).2.response

/-- Bob is signed in, and the page shows that as long as the server takes his token. -/
theorem session_agrees_bob :
    ∃ st, [SessionAction.signIn bobRegistration (js "bob")].foldl (sessionStep sampleEngine)
        .cleared = st ∧ st.token.isSome = true ∧
      ∀ (now : Instant) (req : HttpRequest), Bears (request sampleEngine now.seconds st).1 req →
        ((getCurrentUser sampleEngine now.seconds st).1.isAuthed = true ↔
          (authenticateRequest bobEnv.codec bobEnv.openSsl bobEnv.jwtSecret req now).isSome =
            true) := by
  have hpossible : (SessionAction.signIn bobRegistration (js "bob")).Possible bobEnv :=
    ⟨bobEnv.now, _, registerMoment.server.dao, emptyState.world, loginRequest "secret-pass", [],
      by decide, rfl, .inr rfl⟩
  refine ⟨_, rfl, by decide +kernel, fun now req hbears => ?_⟩
  have hagrees := @session_agrees sampleEngine bobEnv sampleEngine_reads
    sampleOpenSsl_writesBase64 sampleOpenSsl_readsBase64 readsBack_jwtPayload
    [.signIn bobRegistration (js "bob")]
    (fun a ha => List.mem_singleton.mp ha ▸ hpossible) _ rfl now
  exact (hagrees.2.1 req hbears).1

end OnlineJudge.Web
