/-
# Banning a user

`PUT /api/admin/users/{id}/status` stores `banned` in the user's row.  Neither the login nor the
check of an admin token reads that column, so a banned user can log in, and a token of a banned
administrator opens the admin routes.

A run is a list of registrations, logins and admin requests in any order.  Each has its own time,
its own failures of the database and its own random bytes; tokens are whatever a request brings.
Beside the database a state has what the status route has last stored for each user
(`BanState.stored`).

* `agrees_accountStep`: every step keeps the rows in agreement with that.
* `ban_holds_of_polite`: if nobody logs in with the right password of a banned user, and no request
  brings a valid token of a banned administrator, then no banned user gets a token and none is let
  through.

What a ban is meant to do is stated step by step (`BanHolds`), and what the code needs for it as a
condition on the requests (`Polite`), which no user is bound by.
-/
import OnlineJudge.Db.Writes
import OnlineJudge.Handler.AdminHandler
import OnlineJudge.Handler.AuthHandler
import OnlineJudge.Lib.Transition

namespace OnlineJudge.Handler

open ByteString Db Net Auth Transition

/-! ## 1. The database

The table of users is written out, and the rest of the database is any type that the other
operations work on.  An operation may fail at any time, before it does anything. -/

/-- The table of users, and everything else. -/
structure Accounts (τ : Type) where
  users : List UserRow
  rest : τ

/-- What the database does with the `k`-th operation of a request: it fails, or it goes on, with
this stamp for a new row and this message if the statement is refused.  `same` is equality in
the collation of the names. -/
structure AccountServer (τ : Type) where
  same : Bytes → Bytes → Bool
  fails : Nat → Option Raised
  stamp : Nat → Stamp
  message : Nat → Bytes
  others : Dao τ

/-- The DAO layer over the table of users.  The operations on other tables are those of `others`. -/
def AccountServer.dao {τ : Type} (server : AccountServer τ) : Dao (Accounts τ) where
  perform k op db :=
    match server.fails k with
    | some e => (.error e, db)
    | none =>
      match op with
      | .userGetByUsername username =>
        (UserDao.getByUsername server.same db.users username, db)
      | .userCreateUser username passwordHash email role status =>
        match UserDao.createUser server.same (server.stamp k) (server.message k) db.users username
            passwordHash email role status with
        | .error e => (.error e, db)
        | .ok users => (.ok (server.stamp k).id, { db with users := users })
      | .userUpdateStatus id status =>
        match UserDao.updateStatus (server.stamp k).time (server.message k) db.users id status with
        | .error e => (.error e, db)
        | .ok (users, changed) => (.ok changed, { db with users := users })
      | op =>
        let (result, rest) := (server.others.perform k op).run db.rest
        (result, { db with rest := rest })

/-! ## 2. The status route

The route is followed from its request to the row.  It answers 200 exactly if a row was changed, so
its answer shows what is stored from then on. -/

/-- The user and the status that a request to the status route names. -/
def requestedStatus (codec : Json.Codec) (req : HttpRequest) (captures : List Bytes) :
    Option (Int64 × UserStatus) := do
  let id ← capturedId captures
  let body ← (codec.parse req.body).toOption
  let text ← (body.valueStr (ascii "status") []).toOption
  let status ← UserStatus.ofText text
  return (id, status)

theorem not_200_of_endsInError {σ : Type} {env : Env} {fn : Program (World σ) Unit} {w : World σ}
    {db : σ} (h : EndsInError env fn w db) :
    ((guardAdmin env fn).run w).2.response.statu ≠ 200 ∧ ((guardAdmin env fn).run w).2.db = db := by
  obtain ⟨hstatu, hdb⟩ := h
  exact ⟨by omega, hdb⟩

/-- Storing a status: one update, and 200 exactly if that has changed a row. -/
theorem storeStatus_spec {σ : Type} (env : Env) (hdump : env.codec.DumpsUtf8) (dao : Dao σ)
    (id : Int64) (status : Bytes) (w : World σ) :
    let w' := ((guardAdmin env (storeStatus env dao id status)).run w).2
    w'.db = ((dao.perform w.calls (.userUpdateStatus id status)).run w.db).2 ∧
      (w'.response.statu = 200 ↔
        ((dao.perform w.calls (.userUpdateStatus id status)).run w.db).1 = .ok true) := by
  intro w'
  have hcall := run_call dao (.userUpdateStatus id status) w
  cases hresult : ((dao.perform w.calls (.userUpdateStatus id status)).run w.db).1 with
  | error e =>
    rw [hresult] at hcall
    have hbody : (storeStatus env dao id status).run w = (.error e, _) :=
      Program.run_bind_error hcall _
    obtain ⟨hstatu, hdb⟩ := guardAdmin_of_error env hbody
    have hne : w'.response.statu ≠ 200 := fun h200 => absurd (hstatu.symm.trans h200) (by decide)
    exact ⟨hdb, iff_of_false hne (fun h => nomatch h)⟩
  | ok updated =>
    rw [hresult] at hcall
    cases updated with
    | false =>
      have hbody : (storeStatus env dao id status).run w =
          (sendJson env 404 (errorDoc "user not found")).run _ := Program.run_bind_ok hcall _
      obtain ⟨hstatu, hdb⟩ :=
        not_200_of_endsInError (endsInError_of_sendJson env 404 _ _ hbody (by decide))
      exact ⟨hdb, iff_of_false hstatu (fun h => nomatch h)⟩
    | true =>
      obtain ⟨text, htext⟩ := hdump.exists_dump (v := okDoc) (by decide)
      have hbody : (storeStatus env dao id status).run w = (sendJson env 200 okDoc).run _ :=
        Program.run_bind_ok hcall _
      rw [run_sendJson env htext] at hbody
      have hw : w' = World.answered _ 200 text :=
        congrArg Prod.snd (Program.run_tryCatch_ok hbody _)
      rw [hw]
      exact ⟨rfl, iff_of_true rfl rfl⟩

/-- An administrator's request that names a user and a status. -/
theorem putUserStatus_of_requested {σ : Type} {env : Env} {req : HttpRequest}
    (hadmin : BearsAdmin env req) {captures : List Bytes} {id : Int64} {status : UserStatus}
    (h : requestedStatus env.codec req captures = some (id, status)) (dao : Dao σ) :
    putUserStatus env dao req captures = guardAdmin env (storeStatus env dao id status.text) := by
  obtain ⟨token, info, hheader, hverify, hrole⟩ := hadmin
  have hinfo := authenticateRequest_eq_some_iff.mpr ⟨token, hheader, hverify⟩
  simp only [requestedStatus, Option.bind_eq_bind, Option.bind_eq_some_iff,
    Except.toOption_eq_some] at h
  obtain ⟨id', hid, body, hparse, text, hvalue, status', htext, heq⟩ := h
  obtain ⟨rfl, rfl⟩ := Prod.mk.inj (Option.some.inj heq)
  obtain rfl := UserStatus.ofText_eq_some.mp htext
  have hvalid : ¬ (status'.text ≠ ascii "active" ∧ status'.text ≠ ascii "banned") := by
    cases status' with
    | active => exact fun hne => hne.1 rfl
    | banned => exact fun hne => hne.2 rfl
  rw [putUserStatus, requireAdmin_bind hinfo hrole, positiveId_bind env hid]
  dsimp only
  rw [parseBody_bind hparse]
  show guardAdmin env (field (body.valueStr (ascii "status") []) >>= _) = _
  rw [field, hvalue]
  show guardAdmin env (if _ then _ else _) = _
  rw [if_neg hvalid]

/-- An administrator's request that does not name them. -/
theorem endsInError_of_not_requested {σ : Type} {env : Env} {req : HttpRequest}
    (hadmin : BearsAdmin env req) {captures : List Bytes}
    (h : requestedStatus env.codec req captures = none) (dao : Dao σ) (w : World σ) :
    ((putUserStatus env dao req captures).run w).2.response.statu ≠ 200 ∧
      ((putUserStatus env dao req captures).run w).2.db = w.db := by
  obtain ⟨token, info, hheader, hverify, hrole⟩ := hadmin
  have hinfo := authenticateRequest_eq_some_iff.mpr ⟨token, hheader, hverify⟩
  unfold putUserStatus
  cases hid : capturedId captures with
  | none =>
    refine not_200_of_endsInError
      (endsInError_of_sendJson env 400 (errorDoc "invalid user id") w ?_ (by decide))
    rw [requireAdmin_bind hinfo hrole]
    exact run_positiveId_none env hid _ rfl _
  | some id =>
    cases hparse : env.codec.parse req.body with
    | error what =>
      refine not_200_of_endsInError (endsInError_of_sendJson env 400
        (.obj [(ascii "error", .str (ascii "invalid json")), (ascii "message", .str what)]) w ?_
        (by decide))
      rw [requireAdmin_bind hinfo hrole, positiveId_bind env hid, parseBody, hparse]
      exact run_sendJson_none env rfl _ _ _
    | ok body =>
      cases hvalue : body.valueStr (ascii "status") [] with
      | error e =>
        refine not_200_of_endsInError (endsInError_of_error env (.json e) w ?_)
        rw [requireAdmin_bind hinfo hrole, positiveId_bind env hid]
        dsimp only
        rw [parseBody_bind hparse]
        show (field (body.valueStr (ascii "status") []) >>= _).run w = _
        rw [field, hvalue]
        rfl
      | ok text =>
        have hinvalid : text ≠ ascii "active" ∧ text ≠ ascii "banned" := by
          by_contra hvalid
          obtain ⟨status, rfl⟩ : ∃ status : UserStatus, text = status.text := by
            by_contra hnone
            exact hvalid ⟨fun h => hnone ⟨.active, h⟩, fun h => hnone ⟨.banned, h⟩⟩
          simp [requestedStatus, hid, hparse, hvalue, Except.toOption,
            UserStatus.ofText_eq_some.mpr rfl] at h
        refine not_200_of_endsInError (endsInError_of_sendJson env 400
          (errorDoc "status must be active or banned") w ?_ (by decide))
        rw [requireAdmin_bind hinfo hrole, positiveId_bind env hid]
        dsimp only
        rw [parseBody_bind hparse]
        show (field (body.valueStr (ascii "status") []) >>= _).run w = _
        rw [field, hvalue]
        show (if _ then _ else _ : Program (World σ) Unit).run w = _
        rw [if_pos hinvalid]

/-- **What the status route does.**  It answers with an error and does nothing, or it updates the
status of the user that the request names, and answers 200 exactly if that has changed a row. -/
theorem putUserStatus_cases {σ : Type} (env : Env) (hdump : env.codec.DumpsUtf8) (dao : Dao σ)
    (req : HttpRequest) (captures : List Bytes) (w : World σ) :
    let w' := ((putUserStatus env dao req captures).run w).2
    (w'.response.statu ≠ 200 ∧ w'.db = w.db) ∨
      ∃ id status, requestedStatus env.codec req captures = some (id, status) ∧
        w'.db = ((dao.perform w.calls (.userUpdateStatus id status.text)).run w.db).2 ∧
        (w'.response.statu = 200 ↔
          ((dao.perform w.calls (.userUpdateStatus id status.text)).run w.db).1 = .ok true) := by
  intro w'
  by_cases hadmin : BearsAdmin env req
  · cases hrequested : requestedStatus env.codec req captures with
    | none => exact Or.inl (endsInError_of_not_requested hadmin hrequested dao w)
    | some requested =>
      have hhandler := putUserStatus_of_requested hadmin hrequested dao
      have hrun : w' =
          ((guardAdmin env (storeStatus env dao requested.1 requested.2.text)).run w).2 :=
        congrArg (fun handler => (handler.run w).2) hhandler
      rw [hrun]
      exact Or.inr ⟨requested.1, requested.2, rfl,
        storeStatus_spec env hdump dao requested.1 requested.2.text w⟩
  · obtain ⟨status, text, hstatus, hrun⟩ := run_requireAdmin_of_not hdump hadmin
    have hw : w' = w.answered status text := congrArg Prod.snd (refused rfl (hrun w))
    refine Or.inl ⟨?_, by rw [hw]; rfl⟩
    rw [hw]
    show status ≠ 200
    omega

/-! ## 3. Runs

One action is one request, from its start to its answer; requests do not overlap here.  What may
change from one request to the next is the time, the random bytes and the failures of the database.
-/

/-- The state of a run.  `stored` is the status that the status route has last stored for a user,
if it has. -/
structure BanState (τ : Type) where
  db : Accounts τ
  stored : Int64 → Option UserStatus

/-- The surroundings of one request: the clock, OpenSSL, the database server and the archive
library, each of which may be another one for the next request. -/
structure Moment (τ : Type) where
  now : Instant
  openSsl : OpenSsl
  server : AccountServer τ
  zip : Zip

/-- A request: a registration, a login, or the `i`-th admin route. -/
inductive AccountAction (τ : Type)
  | register (m : Moment τ) (req : HttpRequest) (captures : List Bytes)
  | login (m : Moment τ) (req : HttpRequest) (captures : List Bytes)
  | admin (m : Moment τ) (i : Nat) (req : HttpRequest) (captures : List Bytes)

section

variable {τ : Type} (site : Env)

/-- What the handlers find around them at that moment. -/
def Moment.env (m : Moment τ) : Env := { site with now := m.now, openSsl := m.openSsl }

def BanState.world (s : BanState τ) : World (Accounts τ) := ⟨.ofStatu 200, 0, s.db⟩

def BanState.after (s : BanState τ) (handler : RouteHandler (Accounts τ)) (req : HttpRequest)
    (captures : List Bytes) : World (Accounts τ) := ((handler req captures).run s.world).2

/-- What is stored once the status route has answered. -/
def BanState.store (s : BanState τ) (statu : Int) (req : HttpRequest) (captures : List Bytes) :
    Int64 → Option UserStatus :=
  match requestedStatus site.codec req captures with
  | none => s.stored
  | some (id, status) => if statu = 200 then Function.update s.stored id (some status) else s.stored

/-- One request: the handler runs to its end, and the status that the route has stored is
remembered. -/
def accountStep (s : BanState τ) : AccountAction τ → Option (BanState τ)
  | .register m req captures =>
    some { s with db := (s.after (registerHandler (m.env site) m.server.dao) req captures).db }
  | .login m req captures =>
    some { s with db := (s.after (loginHandler (m.env site) m.server.dao) req captures).db }
  | .admin m i req captures =>
    match (adminRoutes (m.env site) m.server.dao m.zip)[i]? with
    | none => none
    | some route =>
      let w := s.after route.handler req captures
      some ⟨w.db, if i = statusRoute then s.store site w.response.statu req captures else s.stored⟩

/-! ## 4. The claim about a ban

Both conditions speak of the step alone, in the state before it.  The first is the promise, the
second is what has to be asked of the users for it to hold. -/

/-- The response carries a token, whoever it is for.  It is weaker than `HandsOut`, and all the more
telling where it is denied. -/
def ReturnsToken (codec : Json.Codec) (rsp : HttpResponse) : Prop :=
  ∃ id token text, codec.dump (tokenDoc id token) = some text ∧
    rsp = (HttpResponse.ofStatu 200).setContent text (ascii "application/json")

/-- The login is of this user: the row under the name it gives, in the table as the request finds
it, is theirs. -/
def LoginOf (m : Moment τ) (req : HttpRequest) (s : BanState τ) (row : UserRow) : Prop :=
  ∃ username password, credentials (m.env site) req = .ok (username, password) ∧
    s.db.users.find? (fun row => m.server.same row.username.bytes username) = some row

/-- **The ban holds in this step.**  A login of a user for whom `banned` is stored returns no token,
and an admin request with a token of such a user is not let through. -/
def BanHolds (s : BanState τ) : AccountAction τ → Prop
  | .register .. => True
  | .login m req captures =>
    ∀ row, LoginOf site m req s row → s.stored row.id = some .banned →
      ¬ ReturnsToken site.codec
        (s.after (loginHandler (m.env site) m.server.dao) req captures).response
  | .admin m _ req _ =>
    ∀ token info, req.headers.find? (ascii "Authorization") = some (ascii "Bearer " ++ token) →
      verifyJwt site.codec m.openSsl site.jwtSecret token m.now = some info →
      s.stored info.userId = some .banned →
      ∀ admin, ((requireAdmin (m.env site) req).run s.world).1 ≠ .ok (some admin)

/-- **Nobody abuses a ban in this step.**  No login gives the right password of a user whose row
says `banned`, and no admin request brings an administrator's token that is still valid and of such
a user. -/
def Polite (s : BanState τ) : AccountAction τ → Prop
  | .register .. => True
  | .login m req _ =>
    ∀ username password, credentials (m.env site) req = .ok (username, password) →
      ∀ row, s.db.users.find? (fun row => m.server.same row.username.bytes username) = some row →
        row.status = some .banned →
        verifyPassword m.openSsl password row.password.bytes ≠ .ok true
  | .admin m _ req _ =>
    ∀ token info, req.headers.find? (ascii "Authorization") = some (ascii "Bearer " ++ token) →
      verifyJwt site.codec m.openSsl site.jwtSecret token m.now = some info →
      info.role = ascii "admin" →
      ∀ row ∈ s.db.users, row.id = info.userId → row.status ≠ some .banned

end

/-! ## 5. The rows agree with what was stored

The promise is about what was stored, and the handlers read rows.  The two agree as long as the row
is in the table, and nothing deletes it. -/

/-- A user for whom a status is stored is in the table, with that status.  The record of the stored
statuses is a ghost: the program has the table only. -/
def Agrees (stored : Int64 → Option UserStatus) (users : List UserRow) : Prop :=
  ∀ id status, stored id = some status →
    (∃ row ∈ users, row.id = id) ∧ ∀ row ∈ users, row.id = id → row.status = some status

theorem Agrees.append {stored : Int64 → Option UserStatus} {users : List UserRow}
    (h : Agrees stored users) {row : UserRow} (hnew : ∀ old ∈ users, old.id ≠ row.id) :
    Agrees stored (users ++ [row]) := by
  intro id status hstored
  obtain ⟨⟨old, hold, hid⟩, hall⟩ := h id status hstored
  refine ⟨⟨old, List.mem_append_left _ hold, hid⟩, fun row' hrow' hid' => ?_⟩
  rcases List.mem_append.mp hrow' with hmem | hmem
  · exact hall row' hmem hid'
  · obtain rfl := List.mem_singleton.mp hmem
    exact absurd (hid.trans hid'.symm) (hnew old hold)

/-- A status that is stored for a user who is in the table. -/
theorem Agrees.setStatus {stored : Int64 → Option UserStatus} {users : List UserRow}
    (h : Agrees stored users) (time : DateTime) {id : Int64} (status : UserStatus)
    (hid : ∃ row ∈ users, row.id = id) :
    Agrees (Function.update stored id (some status)) (UserDao.setStatus time users id status) := by
  have hids := UserDao.map_id_setStatus time users id status
  have hpresent : ∀ other, (∃ row ∈ users, row.id = other) →
      ∃ row ∈ UserDao.setStatus time users id status, row.id = other := by
    intro other
    simp only [← List.mem_map, hids]
    exact fun hmem => hmem
  intro other status' hstored
  by_cases hother : other = id
  · obtain rfl := hother
    rw [Function.update_self] at hstored
    obtain rfl := Option.some.inj hstored
    exact ⟨hpresent other hid, fun row hrow hrid => UserDao.status_of_mem_setStatus hrow hrid⟩
  · rw [Function.update_of_ne hother] at hstored
    obtain ⟨hmem, hall⟩ := h other status' hstored
    refine ⟨hpresent other hmem, fun row hrow hrid => hall row ?_ hrid⟩
    exact UserDao.mem_of_mem_setStatus hrow (hrid ▸ hother)

section

variable {τ : Type} (site : Env)

/-- Whatever is said of the table of users alone, the operations that do not write to it keep. -/
theorem users_of_not_writesUsers (server : AccountServer τ) (I : List UserRow → Prop) :
    KeptBut server.dao fun db => I db.users := by
  intro α op hop k db hdb
  simp only [AccountServer.dao, ExceptT.run]
  cases server.fails k with
  | some e => exact hdb
  | none =>
    cases op with
    | userCreateUser => cases hop
    | userUpdateStatus => cases hop
    | _ => exact hdb

/-- The insert of a user keeps the agreement. -/
theorem agrees_createUser (server : AccountServer τ) (stored : Int64 → Option UserStatus)
    (username hash email role status : Bytes) :
    Kept server.dao (fun db => Agrees stored db.users)
      (.userCreateUser username hash email role status) := by
  intro k db hdb
  simp only [AccountServer.dao, ExceptT.run]
  cases server.fails k with
  | some e => exact hdb
  | none =>
    dsimp only
    split
    · exact hdb
    · rename_i users hcreate
      obtain ⟨row, rfl, hnew⟩ := UserDao.createUser_eq_ok hcreate
      exact hdb.append hnew

variable {site}

theorem store_of_ne {s : BanState τ} {statu : Int} (h : statu ≠ 200) (req : HttpRequest)
    (captures : List Bytes) : s.store site statu req captures = s.stored := by
  unfold BanState.store
  split
  · rfl
  · exact if_neg h

/-- The status route stores what it answers, so the rows stay in agreement. -/
theorem agrees_putUserStatus (hdump : site.codec.DumpsUtf8) (m : Moment τ) {s : BanState τ}
    (hs : Agrees s.stored s.db.users) (req : HttpRequest) (captures : List Bytes) :
    let w := s.after (putUserStatus (m.env site) m.server.dao) req captures
    Agrees (s.store site w.response.statu req captures) w.db.users := by
  intro w
  have hsame : w.response.statu ≠ 200 → w.db.users = s.db.users →
      Agrees (s.store site w.response.statu req captures) w.db.users := by
    intro hstatu husers
    rw [store_of_ne hstatu, husers]
    exact hs
  rcases putUserStatus_cases (m.env site) hdump m.server.dao req captures s.world with
    ⟨hstatu, hdb⟩ | ⟨id, status, hrequested, hdb, hstatu⟩
  · exact hsame hstatu (congrArg Accounts.users hdb)
  · have hperform : (m.server.dao.perform 0 (.userUpdateStatus id status.text)).run s.db =
        match m.server.fails 0 with
        | some e => (.error e, s.db)
        | none => (.ok (s.db.users.any (UserDao.changes id status)),
            { s.db with
              users := UserDao.setStatus (m.server.stamp 0).time s.db.users id status }) := by
      simp only [AccountServer.dao, ExceptT.run, UserDao.updateStatus,
        UserStatus.ofText_eq_some.mpr rfl]
    have hdb' : w.db =
        ((m.server.dao.perform 0 (.userUpdateStatus id status.text)).run s.db).2 := hdb
    have hstatu' : w.response.statu = 200 ↔
        ((m.server.dao.perform 0 (.userUpdateStatus id status.text)).run s.db).1 = .ok true :=
      hstatu
    rw [hperform] at hdb' hstatu'
    cases hfails : m.server.fails 0 with
    | some e =>
      rw [hfails] at hdb' hstatu'
      exact hsame (fun h200 => nomatch hstatu'.mp h200) (congrArg Accounts.users hdb')
    | none =>
      rw [hfails] at hdb' hstatu'
      have husers := congrArg Accounts.users hdb'
      by_cases hany : s.db.users.any (UserDao.changes id status) = true
      · have h200 : w.response.statu = 200 := hstatu'.mpr (congrArg Except.ok hany)
        obtain ⟨row, hrow, hchanges⟩ := List.any_eq_true.mp hany
        simp only [UserDao.changes, Bool.and_eq_true, beq_iff_eq] at hchanges
        have hstore : s.store site w.response.statu req captures =
            Function.update s.stored id (some status) := by
          rw [BanState.store, show requestedStatus site.codec req captures = some (id, status) from
            hrequested]
          exact if_pos h200
        rw [hstore, husers]
        exact hs.setStatus _ status ⟨row, hrow, hchanges.1⟩
      · have hfalse := Bool.eq_false_iff.mpr hany
        refine hsame (fun h200 => hany (Except.ok.inj (hstatu'.mp h200))) (husers.trans ?_)
        exact UserDao.setStatus_of_unchanged hfalse

theorem accountStep_of_requested (hdump : site.codec.DumpsUtf8) {m : Moment τ} {s : BanState τ}
    {req : HttpRequest} {captures : List Bytes} {id : Int64} {status : UserStatus}
    {db : Accounts τ} (hadmin : BearsAdmin (m.env site) req)
    (hrequested : requestedStatus site.codec req captures = some (id, status))
    (hperform : (m.server.dao.perform 0 (.userUpdateStatus id status.text)).run s.db =
      (.ok true, db)) :
    accountStep site s (.admin m statusRoute req captures) =
      some ⟨db, Function.update s.stored id (some status)⟩ := by
  have hspec := storeStatus_spec (m.env site) hdump m.server.dao id status.text s.world
  rw [← putUserStatus_of_requested hadmin hrequested] at hspec
  obtain ⟨hdb, hstatu⟩ := hspec
  have h200 := hstatu.mpr (congrArg Prod.fst hperform)
  refine congrArg some (congrArg₂ BanState.mk (hdb.trans (congrArg Prod.snd hperform)) ?_)
  rw [if_pos rfl, BanState.store, hrequested]
  exact if_pos h200

/-- **Every step keeps the agreement** between the statuses that were stored and those in the table.
A registration adds a row, a login reads, and only the request for it changes a status. -/
theorem agrees_accountStep (hdump : site.codec.DumpsUtf8) {s s' : BanState τ} {a : AccountAction τ}
    (hs : Agrees s.stored s.db.users) (h : accountStep site s a = some s') :
    Agrees s'.stored s'.db.users := by
  have hother : ∀ server : AccountServer τ, KeptBut server.dao fun db => Agrees s.stored db.users :=
    fun server => users_of_not_writesUsers server (Agrees s.stored)
  cases a with
  | register m req captures =>
    obtain rfl := Option.some.inj h
    exact keeps_registerHandler _ (fun _ => hother m.server _ rfl)
      (fun _ _ _ _ _ => agrees_createUser m.server s.stored _ _ _ _ _) req captures s.world hs
  | login m req captures =>
    obtain rfl := Option.some.inj h
    exact keeps_loginHandler _ (fun _ => hother m.server _ rfl) req captures s.world hs
  | admin m i req captures =>
    unfold accountStep at h
    dsimp only at h
    split at h
    · cases h
    · rename_i route hroute
      obtain rfl := Option.some.inj h
      by_cases hi : i = statusRoute
      · obtain rfl := hi
        obtain rfl := Option.some.inj hroute
        rw [if_pos rfl]
        exact agrees_putUserStatus hdump m hs req captures
      · rw [if_neg hi]
        exact keeps_adminRoutes _ (hother m.server) hroute hi req captures s.world hs

/-! ## 6. The ban over runs

A step is examined in a state that agrees; that every state of a run does is the invariant rule. -/

/-- A user that a read returns has the hash of the row. -/
theorem password_of_fetchUser {row : UserRow} {u : User} (h : UserDao.fetchUser row = .ok u) :
    u.password = row.password.bytes := by
  simp only [UserDao.fetchUser, Except.bind_eq_ok, fetchString_eq_ok, Option.getD_some] at h
  obtain ⟨_, -, password, ⟨rfl, -⟩, _, -, _, -, _, -, _, -, _, -, heq⟩ := h
  rw [← Except.ok.inj heq]

/-- So has the user that is found under a name. -/
theorem password_of_getByUsername {server : AccountServer τ} {db : Accounts τ} {k : Nat}
    {username : Bytes} {row : UserRow} {u : User}
    (hfind : db.users.find? (fun row => server.same row.username.bytes username) = some row)
    (h : ((server.dao.perform k (.userGetByUsername username)).run db).1 = .ok (some u)) :
    u.password = row.password.bytes := by
  simp only [AccountServer.dao, ExceptT.run] at h
  cases hfails : server.fails k with
  | some e =>
    rw [hfails] at h
    cases h
  | none =>
    rw [hfails] at h
    dsimp only at h
    rw [UserDao.getByUsername, hfind] at h
    cases hfetch : UserDao.fetchUser row with
    | error e =>
      rw [readOne, hfetch] at h
      cases h
    | ok user =>
      rw [readOne, hfetch] at h
      obtain rfl : user = u := Option.some.inj (Except.ok.inj h)
      exact password_of_fetchUser hfetch

/-- In a state that agrees with what was stored, a polite step is one in which the ban holds. -/
theorem banHolds_of_polite (hdump : site.codec.DumpsUtf8) {s : BanState τ} {a : AccountAction τ}
    (hs : Agrees s.stored s.db.users) (hpolite : Polite site s a) : BanHolds site s a := by
  cases a with
  | register m req captures => trivial
  | login m req captures =>
    rintro row ⟨username, password, hgiven, hfind⟩ hbanned ⟨id, token, text, -, hrsp⟩
    have hstatu : (s.after (loginHandler (m.env site) m.server.dao) req captures).response.statu =
        200 := by
      rw [hrsp]
      rfl
    obtain ⟨username', password', u, hgiven', hfound, hverified⟩ := login_of_status_ok hstatu
    obtain ⟨rfl, rfl⟩ := Prod.mk.inj (Except.ok.inj (hgiven'.symm.trans hgiven))
    have hpassword : u.password = row.password.bytes := password_of_getByUsername hfind hfound
    rw [hpassword] at hverified
    have hrow : row ∈ s.db.users := List.mem_of_find?_eq_some hfind
    exact hpolite _ _ hgiven row hfind ((hs _ _ hbanned).2 row hrow rfl) hverified
  | admin m i req captures =>
    intro token info hheader hverify hbanned admin hadmin
    by_cases hbears : BearsAdmin (m.env site) req
    · obtain ⟨token', info', hheader', hverify', hrole⟩ := hbears
      obtain rfl : token' = token :=
        List.append_cancel_left (Option.some.inj (hheader'.symm.trans hheader))
      obtain rfl : info' = info := Option.some.inj (hverify'.symm.trans hverify)
      obtain ⟨⟨row, hrow, hid⟩, hall⟩ := hs _ _ hbanned
      exact hpolite _ _ hheader hverify hrole row hrow hid (hall row hrow hid)
    · have hdump' : (m.env site).codec.DumpsUtf8 := hdump
      obtain ⟨status, text, -, hrun⟩ := run_requireAdmin_of_not hdump' hbears
      rw [hrun] at hadmin
      cases hadmin

/-- A login that goes through returns a token. -/
theorem returnsToken_of_verified {m : Moment τ} {s : BanState τ} {req : HttpRequest}
    {username password : Bytes} {u : User} {token text : Bytes}
    (hgiven : credentials (m.env site) req = .ok (username, password))
    (hnonempty : ¬ (username = [] ∨ password = []))
    (hfound : ((m.server.dao.perform 0 (.userGetByUsername username)).run s.db).1 = .ok (some u))
    (hverified : verifyPassword m.openSsl password u.password = .ok true)
    (htoken : generateJwt site.codec m.openSsl site.jwtSecret ⟨u.id, u.username, u.role⟩ 3600
      m.now = .ok token)
    (htext : site.codec.dump (tokenDoc u.id token) = some text) (captures : List Bytes) :
    ReturnsToken site.codec
      (s.after (loginHandler (m.env site) m.server.dao) req captures).response :=
  ⟨u.id, token, text, htext,
    loginHandler_of_verified hgiven hnonempty hfound hverified htoken htext captures⟩

/-- **A ban holds along polite runs.**  From any state that agrees with what was stored, along every
run of registrations, logins and admin requests in which nobody logs in with the right password of
a banned user or brings a valid token of a banned administrator, no banned user gets a token and no
admin request with a token of a banned user is let through. -/
theorem ban_holds_of_polite (hdump : site.codec.DumpsUtf8) (s : BanState τ)
    (hs : Agrees s.stored s.db.users) (as : List (AccountAction τ))
    (hpolite : Along (accountStep site) (Polite site) s as) :
    Along (accountStep site) (BanHolds site) s as :=
  along_of_invariant (fun _ _ _ hagrees _ h => agrees_accountStep hdump hagrees h)
    (fun _ _ hagrees h => banHolds_of_polite hdump hagrees h) hs hpolite

end

/-! ## 7. A banned administrator

One run in which the promise is broken twice, with all of its values: the hash, the token, the
bodies. -/

/-- Bob, an administrator, whose password is `secret-pass`. -/
def bob : UserRow where
  id := 7
  username := ⟨ascii "bob", by decide, by decide⟩
  password := ⟨ascii "100000:AAECAwQFBgcICQoLDA0ODw==:Q+3TmUQgAqg0A6Juri0XisR85pHpVx8xduRAYC0i+R0=",
    by decide, by decide⟩
  email := ⟨ascii "bob@example.com", by decide, by decide⟩
  role := some .admin
  status := some .active
  createdAt := none
  updatedAt := none

/-- The body of a request to ban. -/
def banText : Bytes := ascii "\x7b\"status\":\"banned\"\x7d"

/-- The body of a login as Bob. -/
def loginText (password : String) : Bytes :=
  ascii ("\x7b\"password\":\"" ++ password ++ "\",\"username\":\"bob\"\x7d")

/-- What such a body says. -/
def loginDoc (password : String) : Json :=
  .obj [(ascii "password", .str (ascii password)), (ascii "username", .str (ascii "bob"))]

/-- A site where these bodies can be read. -/
def banSite : Env where
  codec := Json.printing (.compact fun _ => []) fun text =>
    if text = banText then .ok (.obj [(ascii "status", .str (ascii "banned"))])
    else if text = loginText "secret-pass" then .ok (loginDoc "secret-pass")
    else if text = loginText "guess" then .ok (loginDoc "guess")
    else sampleCodec.parse text
  openSsl := sampleOpenSsl
  jwtSecret := ascii "secret"
  now := sampleInstant
  libraryText _ := ascii "exception"

/-- PBKDF2 of Bob's password; of any other it is something else. -/
def banOpenSsl : OpenSsl :=
  { sampleOpenSsl with
    pbkdf2 := fun password _ _ _ =>
      if password = ascii "secret-pass" then
        some [67, 237, 211, 153, 68, 32, 2, 168, 52, 3, 162, 110, 174, 45, 23, 138, 196, 124, 230,
          145, 233, 87, 31, 49, 118, 228, 64, 96, 45, 34, 249, 29]
      else some (List.replicate 32 0) }

/-- A moment at which the database answers. -/
def banMoment : Moment Unit where
  now := sampleInstant
  openSsl := banOpenSsl
  server :=
    { same := fun a b => a == b
      fails := fun _ => none
      stamp := fun _ => ⟨8, ascii "2024-01-01 00:00:00", by decide⟩
      message := fun _ => ascii "Duplicate entry"
      others := ⟨fun _ _ db => (.error (.runtime (ascii "prepare: ")), db)⟩ }
  zip := ⟨fun _ => .ok 0, fun _ => .ok []⟩

/-- The table has Bob in it, and no status is stored yet. -/
def banState : BanState Unit where
  db := ⟨[bob], ()⟩
  stored _ := none

/-- Bob's token bans Bob. -/
def banAction : AccountAction Unit :=
  .admin banMoment statusRoute (sampleRequest banText)
    [ascii "/api/admin/users/7/status", ascii "7"]

/-- A login as Bob. -/
def loginRequest (password : String) : HttpRequest :=
  { HttpRequest.reSet with body := loginText password }

def languagesAction : AccountAction Unit := .admin banMoment 6 (sampleRequest []) []

def bannedBob : UserRow :=
  { bob with status := some .banned, updatedAt := some ⟨ascii "2024-01-01 00:00:00", by decide⟩ }

def bannedState : BanState Unit where
  db := ⟨[bannedBob], ()⟩
  stored := Function.update (fun _ => none) 7 (some .banned)

theorem verifyJwt_sampleToken : verifyJwt banSite.codec banOpenSsl banSite.jwtSecret sampleToken
    sampleInstant = some sampleClaims := by
  decide +kernel

theorem accountStep_banAction : accountStep banSite banState banAction = some bannedState := by
  have hadmin : BearsAdmin (banMoment.env banSite) (sampleRequest banText) :=
    ⟨sampleToken, sampleClaims, rfl, verifyJwt_sampleToken, rfl⟩
  have hrequested : requestedStatus banSite.codec (sampleRequest banText)
      [ascii "/api/admin/users/7/status", ascii "7"] = some (7, .banned) := by
    decide +kernel
  have hperform : (banMoment.server.dao.perform 0 (.userUpdateStatus 7 (ascii "banned"))).run
      banState.db = (.ok true, bannedState.db) := rfl
  exact accountStep_of_requested (Json.printing_dumpsUtf8 _ _) hadmin hrequested hperform

theorem bannedState_stored : bannedState.stored 7 = some .banned := rfl

theorem credentials_loginRequest :
    (credentials (banMoment.env banSite) (loginRequest "secret-pass") =
        .ok (ascii "bob", ascii "secret-pass")) ∧
      credentials (banMoment.env banSite) (loginRequest "guess") =
        .ok (ascii "bob", ascii "guess") := by
  constructor <;> rfl

/-- Bob bans himself and then guesses at his password. -/
theorem ban_holds_of_polite_guess :
    Along (accountStep banSite) (BanHolds banSite) banState
      [banAction, .login banMoment (loginRequest "guess") []] := by
  refine ban_holds_of_polite (Json.printing_dumpsUtf8 _ _) banState
    (fun id status h => nomatch h) _ ?_
  refine (along_cons _ accountStep_banAction).mpr ⟨?_, ?_, fun _ _ => trivial⟩
  · intro _ _ _ _ _ row hrow _
    obtain rfl := List.mem_singleton.mp hrow
    decide
  · intro username password hgiven row hfind _
    obtain ⟨rfl, rfl⟩ := Prod.mk.inj (Except.ok.inj
      (hgiven.symm.trans credentials_loginRequest.2))
    have hwrong : ∀ row ∈ bannedState.db.users,
        verifyPassword banMoment.openSsl (ascii "guess") row.password.bytes ≠ .ok true := by
      decide +kernel
    exact hwrong row (List.mem_of_find?_eq_some hfind)

/-- **A ban that does not hold.**  Bob is banned; then a login with his password returns a token,
and his token opens an admin route. -/
theorem banned_gets_in :
    Agrees banState.stored banState.db.users ∧
      ¬ Along (accountStep banSite) (BanHolds banSite) banState
        [banAction, .login banMoment (loginRequest "secret-pass") []] ∧
      ¬ Along (accountStep banSite) (BanHolds banSite) banState [banAction, languagesAction] := by
  refine ⟨fun id status h => (nomatch h), ?_, ?_⟩
  · rw [along_cons _ accountStep_banAction]
    rintro ⟨-, hlogin, -⟩
    have hverified : verifyPassword (banMoment.env banSite).openSsl (ascii "secret-pass")
        bannedBob.record.password = .ok true := by
      decide +kernel
    have htoken : generateJwt banSite.codec banOpenSsl banSite.jwtSecret sampleClaims 3600
        sampleInstant = .ok sampleToken :=
      generateJwt_eq_ok.mpr ⟨sampleHeaderText, samplePayloadText,
        urlText (sampleMac []), by decide +kernel, by decide +kernel, by decide +kernel, rfl⟩
    have hfound : ((banMoment.server.dao.perform 0 (.userGetByUsername (ascii "bob"))).run
        bannedState.db).1 = .ok (some bannedBob.record) :=
      congrArg (Except.map some) ((UserDao.fetchUser_eq_ok bannedBob).mpr
        ⟨by decide, by decide, by decide⟩)
    have hutf8 : (tokenDoc 7 sampleToken).utf8 = true := by decide +kernel
    obtain ⟨text, htext⟩ := (Json.printing_dumpsUtf8 _ _).exists_dump hutf8
    have hreturns := returnsToken_of_verified credentials_loginRequest.1 (by decide) hfound
      hverified htoken htext []
    exact hlogin bannedBob ⟨_, _, credentials_loginRequest.1, rfl⟩ bannedState_stored hreturns
  · rw [along_cons _ accountStep_banAction]
    rintro ⟨-, hadmin, -⟩
    refine hadmin sampleToken sampleClaims rfl verifyJwt_sampleToken bannedState_stored
      sampleClaims ?_
    have hinfo : authenticateRequest (banMoment.env banSite).codec (banMoment.env banSite).openSsl
        (banMoment.env banSite).jwtSecret (sampleRequest []) (banMoment.env banSite).now =
          some sampleClaims :=
      authenticateRequest_eq_some_iff.mpr ⟨sampleToken, rfl, verifyJwt_sampleToken⟩
    rw [requireAdmin_eq hinfo rfl]
    rfl

end OnlineJudge.Handler
