/-
# Registration and login

`RegisterHandler` and `LoginHandler` of `auth_handler.cpp`.  Both answer with a token for the user;
whatever they raise is answered with 500.

* `login_of_status_ok`: the only login that is not answered with an error is that of a user the
  database finds under the name, with a password that verifies against the stored hash.
* `loginHandler_of_verified`: such a login is answered with a token.

An answer with an error has a fixed text and tells nothing of what was wrong: a name that is not
there and a password that does not verify are answered alike.  What `status` says of a user is not
read by either handler.
-/
import OnlineJudge.Handler.HandlerBase

namespace OnlineJudge.Handler

open ByteString Db Net Auth

/-! ## 1. The handlers

Both read the body in the same way, and an exception on the way, also one of the database, becomes a
500. -/

section

variable {σ : Type} (env : Env) (dao : Dao σ)

/-- A status and a fixed text. -/
def answer (status : Int) (text : String) : Program (World σ) Unit :=
  modify fun w => w.answered status (ascii text)

/-- `SetContent`, of JSON text. -/
def setJson (text : Bytes) : Program (World σ) Unit :=
  modify fun w =>
    { w with response := w.response.setContent text (ascii "application/json") }

/-- The `try` block of both handlers. -/
def guardAuth (fn : Program (World σ) Unit) : Program (World σ) Unit :=
  tryCatch fn fun _ => answer 500 "\x7b\"error\":\"internal\"\x7d"

/-- The answer that carries a token. -/
def tokenDoc (id : Int64) (token : Bytes) : Json :=
  .obj [(ascii "id", .int id.toInt), (ascii "token", .str token)]

/-- The name and the password in a request.  A member that is absent reads as the empty text. -/
def credentials (req : HttpRequest) : Except Raised (Bytes × Bytes) := do
  let body ← env.codec.read req.body
  let username ← (body.valueStr (ascii "username") []).mapError .json
  let password ← (body.valueStr (ascii "password") []).mapError .json
  return (username, password)

/-- The address in a request. -/
def emailOf (req : HttpRequest) : Except Raised Bytes := do
  let body ← env.codec.read req.body
  (body.valueStr (ascii "email") []).mapError .json

/-- A token for an hour, in the answer. -/
def sendToken (claims : AuthInfo) : Program (World σ) Unit := do
  let token ← Program.ofExcept
    (generateJwt env.codec env.openSsl env.jwtSecret claims 3600 env.now)
  let text ← Program.ofExcept (env.codec.print (tokenDoc claims.userId token))
  setJson text

/-- `RegisterHandler`.  The name is looked up first, and the insert may still find it taken. -/
def registerHandler : RouteHandler σ := fun req _ => guardAuth do
  let given ← Program.ofExcept (credentials env req)
  let email ← Program.ofExcept (emailOf env req)
  if given.1 = [] ∨ given.2 = [] then
    answer 400 "\x7b\"error\":\"username and password required\"\x7d"
  else
    match ← dao.call (.userGetByUsername given.1) with
    | some _ => answer 409 "\x7b\"error\":\"user exists\"\x7d"
    | none =>
      let hash ← Program.ofExcept (generatePasswordHash env.openSsl given.2)
      let id ← dao.call
        (.userCreateUser given.1 hash email (ascii "student") (ascii "active"))
      sendToken env ⟨id, given.1, ascii "student"⟩

/-- `LoginHandler`.  The user is read by name, and the stored hash is tried with the password. -/
def loginHandler : RouteHandler σ := fun req _ => guardAuth do
  let given ← Program.ofExcept (credentials env req)
  if given.1 = [] ∨ given.2 = [] then
    answer 400 "\x7b\"error\":\"username and password required\"\x7d"
  else
    match ← dao.call (.userGetByUsername given.1) with
    | none => answer 401 "\x7b\"error\":\"invalid credentials\"\x7d"
    | some u =>
      let verified ← Program.ofExcept (verifyPassword env.openSsl given.2 u.password)
      if !verified then answer 401 "\x7b\"error\":\"invalid credentials\"\x7d"
      else sendToken env ⟨u.id, u.username, u.role⟩

end

/-! ## 2. Which logins go through

The handler is followed backwards from its answer: a status below 400 is written in one place only.
-/

section

variable {σ : Type} {env : Env} {dao : Dao σ}

theorem guardAuth_of_error {fn : Program (World σ) Unit} {w w' : World σ} {e : Raised}
    (h : fn.run w = (.error e, w')) : ((guardAuth fn).run w).2.response.statu = 500 := by
  rw [guardAuth, Program.run_tryCatch_error h]
  rfl

theorem guardAuth_of_answer {fn : Program (World σ) Unit} {w w' : World σ} {status : Int}
    {text : String} (h : fn.run w = (answer status text).run w') :
    ((guardAuth fn).run w).2.response.statu = status := by
  rw [guardAuth, Program.run_tryCatch_ok h]
  rfl

/-- **The only login that is not answered with an error.**  The name is found, and the password
verifies against the stored hash. -/
theorem login_of_status_ok {req : HttpRequest} {captures : List Bytes} {w : World σ}
    (h : ((loginHandler env dao req captures).run w).2.response.statu = 200) :
    ∃ username password u, credentials env req = .ok (username, password) ∧
      ((dao.perform w.calls (.userGetByUsername username)).run w.db).1 = .ok (some u) ∧
      verifyPassword env.openSsl password u.password = .ok true := by
  unfold loginHandler at h
  cases hgiven : credentials env req with
  | error e =>
    rw [hgiven, Program.ofExcept_error_bind, guardAuth_of_error (Program.run_ofExcept _ w)] at h
    omega
  | ok given =>
    rw [hgiven, Program.ofExcept_ok_bind] at h
    by_cases hempty : given.1 = [] ∨ given.2 = []
    · rw [if_pos hempty, guardAuth_of_answer rfl] at h
      omega
    · rw [if_neg hempty] at h
      have hcall := run_call dao (.userGetByUsername given.1) w
      cases hfound : ((dao.perform w.calls (.userGetByUsername given.1)).run w.db).1 with
      | error e =>
        rw [hfound] at hcall
        rw [guardAuth_of_error (Program.run_bind_error hcall _)] at h
        omega
      | ok found =>
        rw [hfound] at hcall
        cases found with
        | none =>
          rw [guardAuth_of_answer (Program.run_bind_ok hcall _)] at h
          omega
        | some u =>
          refine ⟨given.1, given.2, u, rfl, hfound, ?_⟩
          cases hverified : verifyPassword env.openSsl given.2 u.password with
          | error e =>
            rw [guardAuth_of_error (e := e) ((Program.run_bind_ok hcall _).trans (by
              dsimp only
              rw [hverified]
              exact Program.run_bind_error (Program.run_ofExcept _ _) _))] at h
            omega
          | ok verified =>
            cases verified with
            | true => rfl
            | false =>
              rw [guardAuth_of_answer ((Program.run_bind_ok hcall _).trans (by
                dsimp only
                rw [hverified]
                rfl))] at h
              omega

/-- **A login that goes through** is answered with a token for the user. -/
theorem loginHandler_of_verified {req : HttpRequest} {w : World σ} {username password : Bytes}
    {u : User} {token text : Bytes} (hgiven : credentials env req = .ok (username, password))
    (hnonempty : ¬ (username = [] ∨ password = []))
    (hfound : ((dao.perform w.calls (.userGetByUsername username)).run w.db).1 = .ok (some u))
    (hverified : verifyPassword env.openSsl password u.password = .ok true)
    (htoken : generateJwt env.codec env.openSsl env.jwtSecret ⟨u.id, u.username, u.role⟩ 3600
      env.now = .ok token)
    (htext : env.codec.dump (tokenDoc u.id token) = some text) (captures : List Bytes) :
    ((loginHandler env dao req captures).run w).2.response =
      w.response.setContent text (ascii "application/json") := by
  have hcall := run_call dao (.userGetByUsername username) w
  rw [hfound] at hcall
  have hsend : (sendToken env ⟨u.id, u.username, u.role⟩ : Program (World σ) Unit) =
      setJson text := by
    rw [sendToken, htoken, Program.ofExcept_ok_bind, Json.Codec.print_eq_ok.mpr htext,
      Program.ofExcept_ok_bind]
  rw [loginHandler, hgiven, Program.ofExcept_ok_bind, if_neg hnonempty, guardAuth,
    Program.run_tryCatch_ok ((Program.run_bind_ok hcall _).trans (by
      dsimp only
      rw [hverified, Program.ofExcept_ok_bind, hsend]
      rfl))]

end

/-! ## 3. What the handlers leave alone

A login reads one row, and a registration makes one insert; every other part of the world they leave
as it is, but for the response. -/

section

open Program

variable {σ : Type} (env : Env) {dao : Dao σ} {P : σ → Prop}

theorem keeps_answer (status : Int) (text : String) :
    Keeps (fun w : World σ => P w.db) (answer status text) := keeps_modify fun _ hw => hw

theorem keeps_guardAuth {fn : Program (World σ) Unit} (h : Keeps (fun w => P w.db) fn) :
    Keeps (fun w => P w.db) (guardAuth fn) := Keeps.tryCatch h fun _ => keeps_answer _ _

theorem keeps_sendToken (claims : AuthInfo) :
    Keeps (fun w : World σ => P w.db) (sendToken env claims) := by
  refine Keeps.bind (keeps_ofExcept _) fun token => Keeps.bind (keeps_ofExcept _) fun text => ?_
  exact keeps_modify fun _ hw => hw

theorem keeps_loginHandler (hget : ∀ username, Kept dao P (.userGetByUsername username))
    (req : HttpRequest) (captures : List Bytes) :
    Keeps (fun w : World σ => P w.db) (loginHandler env dao req captures) := by
  refine keeps_guardAuth (Keeps.bind (keeps_ofExcept _) fun given => ?_)
  split
  · exact keeps_answer _ _
  · refine Keeps.bind (keeps_call (hget _)) fun found => ?_
    split
    · exact keeps_answer _ _
    · refine Keeps.bind (keeps_ofExcept _) fun verified => ?_
      split
      · exact keeps_answer _ _
      · exact keeps_sendToken env _

theorem keeps_registerHandler (hget : ∀ username, Kept dao P (.userGetByUsername username))
    (hcreate : ∀ username hash email role status,
      Kept dao P (.userCreateUser username hash email role status))
    (req : HttpRequest) (captures : List Bytes) :
    Keeps (fun w : World σ => P w.db) (registerHandler env dao req captures) := by
  refine keeps_guardAuth (Keeps.bind (keeps_ofExcept _) fun given => ?_)
  refine Keeps.bind (keeps_ofExcept _) fun email => ?_
  split
  · exact keeps_answer _ _
  · refine Keeps.bind (keeps_call (hget _)) fun found => ?_
    split
    · exact keeps_answer _ _
    · refine Keeps.bind (keeps_ofExcept _) fun hash => ?_
      exact Keeps.bind (keeps_call (hcreate _ _ _ _ _)) fun id => keeps_sendToken env _

end

end OnlineJudge.Handler
