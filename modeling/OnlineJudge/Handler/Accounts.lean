/-
# The table of users over the life of the site

Registrations, logins and admin requests in any order (`accountStep`), with whatever failures of the
database in between.  Of all that they do, two statements reach the table of users: a registration
inserts a student, and the status route sets a status.  So what these two keep, every run keeps
(`users_of_run`).

* `no_new_admin`: a token that a registration or a login hands out opens an admin route only for
  somebody who has been an administrator in the table from the beginning.
* `registered_logs_in_iff`: whoever has registered can log in at any later time, with the password
  of the registration and with no other that PBKDF2 tells from it.

Both results need a reader of the whole run: a token may be used long after it was handed out, and a
password long after it was set.  What connects the two ends is the row, of which everything but the
status stays (`SameAccount`).
-/
import OnlineJudge.Handler.Ban
import OnlineJudge.Lib.JsonReader
import OnlineJudge.Lib.Wp

namespace OnlineJudge.Handler

open ByteString Db Net Auth Transition

/-! ## 1. What reaches the table

An invariant of the table has to survive the insert of a newcomer and an update of a status, and
nothing else.  The table has many properties of this kind, and each is checked against these two
statements once. -/

/-- A row that a registration inserts: a student, under a name and an id that nobody has. -/
structure Newcomer (same : Bytes → Bytes → Bool) (users : List UserRow) (row : UserRow) : Prop where
  role : row.role = some .student
  name : ∀ old ∈ users, same old.username.bytes row.username.bytes = false
  id : ∀ old ∈ users, old.id ≠ row.id

/-- Both statements keep `I`: the insert of a newcomer and the update of a status.  An invariant of
the table has no more than these two to be checked against. -/
structure KeptByWrites (same : Bytes → Bytes → Bool) (I : List UserRow → Prop) : Prop where
  create : ∀ users row, I users → Newcomer same users row → I (users ++ [row])
  setStatus : ∀ time users id status, I users → I (UserDao.setStatus time users id status)

theorem KeptByWrites.and {same : Bytes → Bytes → Bool} {I J : List UserRow → Prop}
    (hI : KeptByWrites same I) (hJ : KeptByWrites same J) :
    KeptByWrites same fun users => I users ∧ J users where
  create users row h hnew := ⟨hI.create users row h.1 hnew, hJ.create users row h.2 hnew⟩
  setStatus time users id status h :=
    ⟨hI.setStatus time users id status h.1, hJ.setStatus time users id status h.2⟩

/-- The ids stay distinct, and none is lost. -/
theorem ids_keptByWrites (same : Bytes → Bytes → Bool) (ids : List Int64) :
    KeptByWrites same fun users =>
      (users.map UserRow.id).Nodup ∧ ids ⊆ users.map UserRow.id where
  create users row h hnew := by
    rw [List.map_append]
    refine ⟨List.nodup_append.mpr ⟨h.1, List.nodup_singleton _, ?_⟩,
      List.subset_append_of_subset_left _ h.2⟩
    intro a ha b hb hab
    obtain ⟨old, hold, rfl⟩ := List.mem_map.mp ha
    exact hnew.id old hold (hab.trans (List.mem_singleton.mp hb))
  setStatus time users id status h := by
    rw [UserDao.map_id_setStatus]
    exact h

theorem createUser_row {same : Bytes → Bytes → Bool} {stamp : Stamp} {message : Bytes}
    {users users' : List UserRow} {username passwordHash email role status : Bytes}
    (h : UserDao.createUser same stamp message users username passwordHash email role status =
      .ok users') :
    ∃ row, users' = users ++ [row] ∧ row.id = stamp.id ∧ row.username.bytes = username ∧
      row.password.bytes = passwordHash ∧ row.email.bytes = email ∧ row.role = Role.ofText role ∧
      (∀ old ∈ users, same old.username.bytes username = false) ∧
      ∀ old ∈ users, old.id ≠ row.id := by
  unfold UserDao.createUser at h
  split at h
  · cases h
  · rename_i hfree
    have hnone : ∀ old ∈ users, same old.username.bytes username = false ∧ old.id ≠ stamp.id := by
      intro old hold
      have hold' := List.any_eq_false.mp (Bool.eq_false_iff.mpr hfree) old hold
      rw [Bool.or_eq_true, not_or, beq_iff_eq] at hold'
      exact ⟨Bool.eq_false_iff.mpr hold'.1, hold'.2⟩
    split at h
    · rename_i hname hpassword hemail hrole _
      obtain rfl := Except.ok.inj h
      exact ⟨_, rfl, rfl, Varchar.ofBytes_eq_some.mp hname, Varchar.ofBytes_eq_some.mp hpassword,
        Varchar.ofBytes_eq_some.mp hemail, hrole.symm, fun old hold => (hnone old hold).1,
        fun old hold => (hnone old hold).2⟩
    · cases h

section

variable {τ : Type} {server : AccountServer τ} {I : List UserRow → Prop}

theorem users_updateStatus (hI : KeptByWrites server.same I) (id : Int64) (status : Bytes) :
    Kept server.dao (fun db => I db.users) (.userUpdateStatus id status) := by
  intro k db hdb
  simp only [AccountServer.dao, ExceptT.run]
  cases server.fails k with
  | some e => exact hdb
  | none =>
    dsimp only
    unfold UserDao.updateStatus
    cases UserStatus.ofText status with
    | none => exact hdb
    | some st => exact hI.setStatus _ _ _ _ hdb

end

/-! ## 2. What the two handlers come to

A handler is walked through with a postcondition for its return and one for its exceptions, and each
exit is a case of how it ends. -/

section

variable {τ : Type} {env : Env} {server : AccountServer τ} {w : World (Accounts τ)}

/-- The answer that hands out a token for these claims, to whoever has asked: beside the claims and
the time, nothing of the request is in it. -/
def HandsOut (env : Env) (claims : AuthInfo) (rsp : HttpResponse) : Prop :=
  ∃ token text,
    generateJwt env.codec env.openSsl env.jwtSecret claims 3600 env.now = .ok token ∧
    env.codec.dump (tokenDoc claims.userId token) = some text ∧
    rsp = (HttpResponse.ofStatu 200).setContent text (ascii "application/json")

theorem HandsOut.statu {claims : AuthInfo} {rsp : HttpResponse} (h : HandsOut env claims rsp) :
    rsp.statu = 200 := by
  obtain ⟨token, text, -, -, rfl⟩ := h
  rfl

theorem wp_call {σ α : Type} {dao : Dao σ} {op : DaoOp α} {w : World σ}
    {Q : α → World σ → Prop} {E : Raised → World σ → Prop} :
    Program.wp (dao.call op) Q E w ↔
      (∀ a db, (dao.perform w.calls op).run w.db = (.ok a, db) →
        Q a ⟨w.response, w.calls + 1, db⟩) ∧
      ∀ e db, (dao.perform w.calls op).run w.db = (.error e, db) →
        E e ⟨w.response, w.calls + 1, db⟩ := by
  have hcall := run_call dao op w
  cases hrun : (dao.perform w.calls op).run w.db with
  | mk result db =>
    rw [hrun] at hcall
    cases result with
    | error e =>
      rw [Program.wp_of_run_error hcall]
      constructor
      · intro h
        refine ⟨fun a db' heq => (nomatch heq), fun e' db' heq => ?_⟩
        cases heq
        exact h
      · exact fun h => h.2 e db rfl
    | ok a =>
      rw [Program.wp_of_run_ok hcall]
      constructor
      · intro h
        refine ⟨fun a' db' heq => ?_, fun e db' heq => (nomatch heq)⟩
        cases heq
        exact h
      · exact fun h => h.1 a db rfl

/-- The `try` block: an exception is answered with 500. -/
theorem wp_guardAuth {σ : Type} {fn : Program (World σ) Unit} {w : World σ} {R : World σ → Prop} :
    Program.wp (guardAuth fn) (fun _ => R) (fun _ => R) w ↔
      Program.wp fn (fun _ => R)
        (fun _ w => R (w.answered 500 (ascii "\x7b\"error\":\"internal\"\x7d"))) w := by
  rw [guardAuth, Program.wp_tryCatch]
  rfl

/-- A token is handed out, or making it raises. -/
theorem wp_sendToken {σ : Type} (claims : AuthInfo) {w : World σ} {R : World σ → Prop}
    {E : Raised → World σ → Prop} (hw : w.response = .ofStatu 200) (hE : ∀ e, E e w)
    (hR : ∀ rsp, HandsOut env claims rsp → R { w with response := rsp }) :
    Program.wp (sendToken env claims) (fun _ => R) E w := by
  simp only [sendToken, setJson, Program.wp_bind, Program.wp_ofExcept, Program.wp_modify]
  refine ⟨fun token htoken => ⟨fun text htext => ?_, fun e _ => hE e⟩, fun e _ => hE e⟩
  rw [hw]
  exact hR _ ⟨token, text, htoken, Json.Codec.print_eq_ok.mp htext, rfl⟩

/-- How a registration ends: with an error and the table as it was, or with a newcomer in it who
has the hash of the password, and with a token unless making that fails. -/
def RegisterEnds (env : Env) (same : Bytes → Bytes → Bool) (req : HttpRequest)
    (users : List UserRow) (w : World (Accounts τ)) : Prop :=
  (w.db.users = users ∧ 400 ≤ w.response.statu) ∨
    ∃ row username password email hash, credentials env req = .ok (username, password) ∧
      emailOf env req = .ok email ∧ generatePasswordHash env.openSsl password = .ok hash ∧
      row.username.bytes = username ∧ row.password.bytes = hash ∧ row.email.bytes = email ∧
      Newcomer same users row ∧ w.db.users = users ++ [row] ∧
      (w.response.statu = 500 ∨ HandsOut env ⟨row.id, username, ascii "student"⟩ w.response)

theorem perform_getByUsername {k : Nat} {username : Bytes} {db db' : Accounts τ}
    {result : Except Raised (Option User)}
    (h : (server.dao.perform k (.userGetByUsername username)).run db = (result, db')) :
    db' = db ∧ result = match server.fails k with
      | some e => .error e
      | none => UserDao.getByUsername server.same db.users username := by
  simp only [AccountServer.dao, ExceptT.run] at h
  cases hfails : server.fails k with
  | some e =>
    rw [hfails] at h
    obtain ⟨rfl, rfl⟩ := Prod.mk.inj h
    exact ⟨rfl, rfl⟩
  | none =>
    rw [hfails] at h
    obtain ⟨rfl, rfl⟩ := Prod.mk.inj h
    exact ⟨rfl, rfl⟩

/-- A user that it finds is a row under that name. -/
theorem row_of_getByUsername {k : Nat} {username : Bytes} {db db' : Accounts τ} {u : User}
    (h : (server.dao.perform k (.userGetByUsername username)).run db = (.ok (some u), db')) :
    ∃ row, db.users.find? (fun row => server.same row.username.bytes username) = some row ∧
      UserDao.fetchUser row = .ok u := by
  have hresult := (perform_getByUsername h).2
  cases hfails : server.fails k with
  | some e =>
    rw [hfails] at hresult
    cases hresult
  | none =>
    rw [hfails] at hresult
    dsimp only at hresult
    rw [UserDao.getByUsername] at hresult
    cases hfind : db.users.find? (fun row => server.same row.username.bytes username) with
    | none =>
      rw [hfind] at hresult
      cases hresult
    | some row =>
      rw [hfind] at hresult
      obtain ⟨u', hfetch, hu⟩ := Except.map_eq_ok.mp hresult.symm
      obtain rfl := Option.some.inj hu
      exact ⟨row, rfl, hfetch⟩

theorem perform_createUser {k : Nat} {username hash email : Bytes} {db db' : Accounts τ}
    {id : Int64}
    (h : (server.dao.perform k (.userCreateUser username hash email (ascii "student")
      (ascii "active"))).run db = (.ok id, db')) :
    ∃ row, row.id = id ∧ row.username.bytes = username ∧ row.password.bytes = hash ∧
      row.email.bytes = email ∧ Newcomer server.same db.users row ∧
      db'.users = db.users ++ [row] := by
  simp only [AccountServer.dao, ExceptT.run] at h
  cases hfails : server.fails k with
  | some e =>
    rw [hfails] at h
    cases h
  | none =>
    rw [hfails] at h
    dsimp only at h
    split at h
    · cases h
    · rename_i users hcreate
      obtain ⟨hid, rfl⟩ := Prod.mk.inj h
      obtain ⟨row, rfl, hrow, hname, hpassword, hemail, hrole, hnames, hids⟩ :=
        createUser_row hcreate
      have hstudent : Role.ofText (ascii "student") = some .student := by decide
      refine ⟨row, hrow.trans (Except.ok.inj hid), hname, hpassword, hemail, ?_, rfl⟩
      exact ⟨hrole.trans hstudent, hname ▸ hnames, hids⟩

theorem perform_createUser_error {k : Nat} {username hash email role status : Bytes}
    {db db' : Accounts τ} {e : Raised}
    (h : (server.dao.perform k (.userCreateUser username hash email role status)).run db =
      (.error e, db')) : db' = db := by
  simp only [AccountServer.dao, ExceptT.run] at h
  cases hfails : server.fails k with
  | some e =>
    rw [hfails] at h
    exact (Prod.mk.inj h).2.symm
  | none =>
    rw [hfails] at h
    dsimp only at h
    split at h
    · exact (Prod.mk.inj h).2.symm
    · cases h

/-- **How a registration ends**, over any database: with an error and the table as it was, or with a
newcomer in it; then the answer has a token for the newcomer, unless making that has failed. -/
theorem registerHandler_ends (env : Env) (server : AccountServer τ) (w : World (Accounts τ))
    (req : HttpRequest) (captures : List Bytes) (hw : w.response = .ofStatu 200) :
    RegisterEnds env server.same req w.db.users
      ((registerHandler env server.dao req captures).run w).2 := by
  refine Program.final_of_wp (P := RegisterEnds env server.same req w.db.users) ?_
  have hanswered : ∀ {w' : World (Accounts τ)} {status : Int} {text : Bytes},
      w'.db.users = w.db.users → 400 ≤ status →
        RegisterEnds env server.same req w.db.users (w'.answered status text) :=
    fun husers hstatus => .inl ⟨husers, hstatus⟩
  rw [registerHandler, wp_guardAuth]
  simp only [Program.wp_bind, Program.wp_ofExcept]
  refine ⟨fun given hgiven => ⟨fun email hemail => ?_, fun _ _ => hanswered rfl (by decide)⟩,
    fun _ _ => hanswered rfl (by decide)⟩
  split
  · exact hanswered rfl (by decide)
  · simp only [Program.wp_bind, wp_call]
    constructor
    · intro found db hfound
      obtain ⟨rfl, -⟩ := perform_getByUsername hfound
      cases found with
      | some u => exact hanswered rfl (by decide)
      | none =>
        simp only [Program.wp_bind, Program.wp_ofExcept, wp_call]
        refine ⟨fun hash hhash => ⟨fun id db' hcreate => ?_, fun e db' hcreate => ?_⟩,
          fun _ _ => hanswered rfl (by decide)⟩
        · obtain ⟨row, rfl, hname, hpassword, hrowEmail, hnew, husers⟩ :=
            perform_createUser hcreate
          have hends : ∀ w' : World (Accounts τ), w'.db = db' → (w'.response.statu = 500 ∨
              HandsOut env ⟨row.id, given.1, ascii "student"⟩ w'.response) →
              RegisterEnds env server.same req w.db.users w' := by
            rintro w' rfl hresponse
            exact .inr ⟨row, given.1, given.2, email, hash, hgiven, hemail, hhash, hname, hpassword,
              hrowEmail, hnew, husers, hresponse⟩
          exact wp_sendToken _ hw (fun _ => hends _ rfl (.inl rfl))
            fun rsp hrsp => hends ⟨rsp, _, db'⟩ rfl (.inr hrsp)
        · obtain rfl := perform_createUser_error hcreate
          exact hanswered rfl (by decide)
    · intro e db hfound
      obtain ⟨rfl, -⟩ := perform_getByUsername hfound
      exact hanswered rfl (by decide)

/-- The password that this login gives verifies against the hash in the row.  The row need not be
that of the name: which row is compared is the handler's affair. -/
def Verifies (env : Env) (req : HttpRequest) (row : UserRow) : Prop :=
  ∃ username password, credentials env req = .ok (username, password) ∧
    verifyPassword env.openSsl password row.password.bytes = .ok true

/-- How a login ends: with an error, or with a token for somebody in the table whose password it
gives. -/
def LoginEnds (env : Env) (req : HttpRequest) (db : Accounts τ) (w : World (Accounts τ)) : Prop :=
  w.db = db ∧ (400 ≤ w.response.statu ∨
    ∃ row ∈ db.users, Verifies env req row ∧
      HandsOut env ⟨row.id, row.username.bytes, nullable Role.text row.role⟩ w.response)

/-- A row that can be read fits the buffers. -/
theorem fits_of_fetchUser {row : UserRow} {u : User} (h : UserDao.fetchUser row = .ok u) :
    row.Fits := by
  simp only [UserDao.fetchUser, Except.bind_eq_ok, fetchString_eq_ok, Option.getD_some] at h
  obtain ⟨_, ⟨-, husername⟩, _, ⟨-, hpassword⟩, _, ⟨-, hemail⟩, -⟩ := h
  exact ⟨husername, hpassword, hemail⟩

/-- What the row of a user becomes in a read. -/
theorem fetchUser_claims {row : UserRow} {u : User} (h : UserDao.fetchUser row = .ok u) :
    (⟨u.id, u.username, u.role⟩ : AuthInfo) =
      ⟨row.id, row.username.bytes, nullable Role.text row.role⟩ ∧
        u.password = row.password.bytes := by
  obtain rfl := Except.ok.inj (h.symm.trans
    ((UserDao.fetchUser_eq_ok row).mpr (fits_of_fetchUser h)))
  exact ⟨rfl, rfl⟩

/-- **How a login ends**, over any database: it is refused, or the password has verified against the
row of the name and the answer has a token for that row. -/
theorem loginHandler_ends (env : Env) (server : AccountServer τ) (w : World (Accounts τ))
    (req : HttpRequest) (captures : List Bytes) (hw : w.response = .ofStatu 200) :
    LoginEnds env req w.db ((loginHandler env server.dao req captures).run w).2 := by
  refine Program.final_of_wp (P := LoginEnds env req w.db) ?_
  have hanswered : ∀ {w' : World (Accounts τ)} {status : Int} {text : Bytes}, w'.db = w.db →
      400 ≤ status → LoginEnds env req w.db (w'.answered status text) :=
    fun hdb hstatus => ⟨hdb, .inl hstatus⟩
  rw [loginHandler, wp_guardAuth]
  simp only [Program.wp_bind, Program.wp_ofExcept]
  refine ⟨fun given hgiven => ?_, fun _ _ => hanswered rfl (by decide)⟩
  split
  · exact hanswered rfl (by decide)
  · simp only [Program.wp_bind, wp_call]
    constructor
    · intro found db hfound
      cases found with
      | none =>
        obtain ⟨rfl, -⟩ := perform_getByUsername hfound
        exact hanswered rfl (by decide)
      | some u =>
        obtain ⟨row, hfind, hfetch⟩ := row_of_getByUsername hfound
        have hrow : row ∈ w.db.users := List.mem_of_find?_eq_some hfind
        obtain ⟨rfl, -⟩ := perform_getByUsername hfound
        simp only [Program.wp_bind, Program.wp_ofExcept]
        refine ⟨fun verified hverified => ?_, fun _ _ => hanswered rfl (by decide)⟩
        rw [(fetchUser_claims hfetch).2] at hverified
        cases verified with
        | false => exact hanswered rfl (by decide)
        | true =>
          refine wp_sendToken _ hw (fun _ => hanswered rfl (by decide)) fun rsp hrsp => ?_
          rw [(fetchUser_claims hfetch).1] at hrsp
          exact ⟨rfl, .inr ⟨row, hrow, ⟨given.1, given.2, hgiven, hverified⟩, hrsp⟩⟩
    · intro e db hfound
      obtain ⟨rfl, -⟩ := perform_getByUsername hfound
      exact hanswered rfl (by decide)

end

/-! ## 3. What every run keeps

By the rule for runs, from what a request keeps. -/

section

open Program

variable {σ : Type} {env : Env} {dao : Dao σ} {P : σ → Prop}

theorem keeps_putUserStatus (hupdate : ∀ id status, Kept dao P (.userUpdateStatus id status))
    (req : HttpRequest) (captures : List Bytes) :
    Keeps (fun w : World σ => P w.db) (putUserStatus env dao req captures) := by
  refine keeps_guardAdmin env (keeps_check (keeps_requireAdmin env req) rfl fun _ => ?_)
  refine keeps_check (keeps_positiveId env _ _) rfl fun uid => ?_
  refine keeps_check (keeps_parseBody env req) rfl fun body => ?_
  refine Keeps.bind (keeps_ofExcept _) fun status => ?_
  split
  · exact keeps_sendJson env _ _
  · refine Keeps.bind (keeps_call (hupdate _ _)) fun updated => ?_
    split <;> exact keeps_sendJson env _ _

end

/-- The moment of a request. -/
def AccountAction.moment {τ : Type} : AccountAction τ → Moment τ
  | .register m _ _ => m
  | .login m _ _ => m
  | .admin m _ _ _ => m

section

variable {τ : Type} {site : Env} {I : List UserRow → Prop}

/-- **What the two statements keep, every request keeps**, whether it is let through or not, and
wherever it fails. -/
theorem users_accountStep {s s' : BanState τ} {a : AccountAction τ}
    (hI : KeptByWrites a.moment.server.same I) (hs : I s.db.users)
    (h : accountStep site s a = some s') : I s'.db.users := by
  cases a with
  | register m req captures =>
    obtain rfl := Option.some.inj h
    rcases registerHandler_ends (m.env site) m.server s.world req
      captures rfl with ⟨husers, -⟩ | ⟨row, _, _, _, _, -, -, -, -, -, -, hnew, husers, -⟩
    · exact husers.symm ▸ hs
    · exact husers.symm ▸ hI.create _ row hs hnew
  | login m req captures =>
    obtain rfl := Option.some.inj h
    have hends := loginHandler_ends (m.env site) m.server s.world req
      captures rfl
    exact (congrArg Accounts.users hends.1).symm ▸ hs
  | admin m i req captures =>
    unfold accountStep at h
    dsimp only at h
    split at h
    · cases h
    · rename_i route hroute
      obtain rfl := Option.some.inj h
      by_cases hi : i = statusRoute
      · obtain rfl := hi
        obtain rfl := Option.some.inj hroute
        exact keeps_putUserStatus (users_updateStatus hI) req captures s.world hs
      · exact keeps_adminRoutes _ (users_of_not_writesUsers m.server I) hroute hi req captures
          s.world hs

theorem users_of_run {s t : BanState τ} {as : List (AccountAction τ)}
    (hI : ∀ a ∈ as, KeptByWrites a.moment.server.same I) (hs : I s.db.users)
    (h : exec (accountStep site) s as = some t) : I t.db.users := by
  induction as generalizing s with
  | nil => exact Option.some.inj h ▸ hs
  | cons a as ih =>
    obtain ⟨s', hs', hrun⟩ := (exec_cons_eq_some _).mp h
    exact ih (fun b hb => hI b (List.mem_cons_of_mem _ hb))
      (users_accountStep (hI a List.mem_cons_self) hs hs') hrun

end

/-! ## 4. Nobody becomes an administrator

An administrator's token is followed back to the answer that carried it, from there to the row that
was read, and from the row to the table at the beginning. -/

/-- The row of the same account: what no request changes.  The status and the time are left out,
since an administrator may set the one, and the database does set the other. -/
structure SameAccount (row row' : UserRow) : Prop where
  id : row'.id = row.id
  username : row'.username = row.username
  password : row'.password = row.password
  email : row'.email = row.email
  role : row'.role = row.role

theorem SameAccount.refl (row : UserRow) : SameAccount row row := ⟨rfl, rfl, rfl, rfl, rfl⟩

theorem SameAccount.trans {row row' row'' : UserRow} (h : SameAccount row row')
    (h' : SameAccount row' row'') : SameAccount row row'' where
  id := h'.id.trans h.id
  username := h'.username.trans h.username
  password := h'.password.trans h.password
  email := h'.email.trans h.email
  role := h'.role.trans h.role

/-- A status that is set leaves each account what it is. -/
theorem sameAccount_set (time : DateTime) (id : Int64) (status : UserStatus) (row : UserRow) :
    SameAccount row (if UserDao.changes id status row then
      { row with status := some status, updatedAt := some time } else row) := by
  split
  · exact ⟨rfl, rfl, rfl, rfl, rfl⟩
  · exact .refl row

/-- The administrators in the table have been there in `old`, as the same accounts.  Nobody becomes
one by a request, neither by being inserted nor by being changed. -/
def AdminsFrom (old users : List UserRow) : Prop :=
  ∀ row ∈ users, row.role = some .admin → ∃ row₀ ∈ old, SameAccount row₀ row

theorem adminsFrom_keptByWrites (same : Bytes → Bytes → Bool) (old : List UserRow) :
    KeptByWrites same (AdminsFrom old) where
  create users row h hnew row' hrow' hrole := by
    rcases List.mem_append.mp hrow' with hmem | hmem
    · exact h row' hmem hrole
    · obtain rfl := List.mem_singleton.mp hmem
      rw [hnew.role] at hrole
      cases hrole
  setStatus time users id status h row' hrow' hrole := by
    obtain ⟨row, hrow, rfl⟩ := List.mem_map.mp hrow'
    have hsame := sameAccount_set time id status row
    obtain ⟨row₀, hrow₀, hsame₀⟩ := h row hrow (hsame.role.symm.trans hrole)
    exact ⟨row₀, hrow₀, hsame₀.trans hsame⟩

section

variable {τ : Type} {site : Env}

/-- The response to a registration or a login. -/
def BanState.response (site : Env) (s : BanState τ) : AccountAction τ → Option HttpResponse
  | .register m req captures =>
    some (s.after (registerHandler (m.env site) m.server.dao) req captures).response
  | .login m req captures =>
    some (s.after (loginHandler (m.env site) m.server.dao) req captures).response
  | .admin .. => none

/-- The response carries this token. -/
def CarriesToken (codec : Json.Codec) (token : Bytes) (rsp : HttpResponse) : Prop :=
  ∃ id text, codec.dump (tokenDoc id token) = some text ∧
    rsp = (HttpResponse.ofStatu 200).setContent text (ascii "application/json")

/-- A registration or a login of this run was answered with this token.  The step is given with the
state that it was taken in. -/
def IssuedAlong (site : Env) (s : BanState τ) (as : List (AccountAction τ)) (token : Bytes) :
    Prop :=
  ∃ bs a cs u rsp, as = bs ++ a :: cs ∧ exec (accountStep site) s bs = some u ∧
    u.response site a = some rsp ∧ CarriesToken site.codec token rsp

/-- Whom `RequireAdmin` lets through: the bearer of a token that verifies and has the role of an
administrator in it. -/
theorem bearer_of_requireAdmin {σ : Type} {env : Env} {req : HttpRequest} {w : World σ}
    {admin : AuthInfo} (h : ((requireAdmin env req).run w).1 = .ok (some admin)) :
    authenticateRequest env.codec env.openSsl env.jwtSecret req env.now = some admin ∧
      admin.role = ascii "admin" := by
  have hrefuse : ∀ status error, ((do sendJson env status (errorDoc error); return none :
      Program (World σ) (Option AuthInfo)).run w).1 ≠ .ok (some admin) := by
    intro status error hrefused
    cases hdump : env.codec.dump (errorDoc error) with
    | none =>
      rw [Program.run_bind_error (run_sendJson_of_none env hdump status w)] at hrefused
      cases hrefused
    | some text =>
      rw [Program.run_bind_ok (run_sendJson env hdump status w)] at hrefused
      cases hrefused
  unfold requireAdmin at h
  split at h
  · exact absurd h (hrefuse _ _)
  · rename_i info hinfo
    split at h
    · exact absurd h (hrefuse _ _)
    · rename_i hrole
      obtain rfl := Option.some.inj (Except.ok.inj h)
      exact ⟨hinfo, not_not.mp hrole⟩

/-- The answer to a login can be printed. -/
theorem utf8_tokenDoc (id : Int64) {token : Bytes} (h : Utf8.wellFormed token = true) :
    (tokenDoc id token).utf8 = true := by
  have hid : Utf8.wellFormed (ascii "id") = true := by decide
  have htoken : Utf8.wellFormed (ascii "token") = true := by decide
  simp [tokenDoc, Json.utf8, Json.utf8Members, hid, htoken, h]

/-- A token that an answer hands out is the one it carries. -/
theorem token_of_handsOut {env : Env} {claims : AuthInfo} {rsp : HttpResponse} {token : Bytes}
    (hdocs : ∀ id token, env.codec.ReadsBack (tokenDoc id token)) (h : HandsOut env claims rsp)
    (hcarries : CarriesToken env.codec token rsp) :
    generateJwt env.codec env.openSsl env.jwtSecret claims 3600 env.now = .ok token := by
  obtain ⟨token', text', htoken', htext', rfl⟩ := h
  obtain ⟨id, text, htext, hrsp⟩ := hcarries
  obtain rfl : text' = text := congrArg HttpResponse.body hrsp
  have hdoc := Except.ok.inj ((hdocs _ _ _ htext').2.symm.trans (hdocs _ _ _ htext).2)
  simp only [tokenDoc, Json.obj.injEq, List.cons.injEq, Prod.mk.injEq, Json.str.injEq,
    true_and, and_true] at hdoc
  exact hdoc.2 ▸ htoken'

theorem CarriesToken.statu {codec : Json.Codec} {token : Bytes} {rsp : HttpResponse}
    (h : CarriesToken codec token rsp) : rsp.statu = 200 := by
  obtain ⟨id, text, -, rfl⟩ := h
  rfl

/-- Whom a token is handed out to: a student who is new, or somebody in the table who has logged
in. -/
theorem handsOut_of_response {u : BanState τ} {a : AccountAction τ} {rsp : HttpResponse}
    {token : Bytes} (h : u.response site a = some rsp)
    (hcarries : CarriesToken site.codec token rsp) :
    ∃ claims, HandsOut (a.moment.env site) claims rsp ∧
      (claims.role = ascii "student" ∨ ∃ m req captures, a = .login m req captures ∧
        ∃ row ∈ u.db.users, Verifies (m.env site) req row ∧
          claims = ⟨row.id, row.username.bytes, nullable Role.text row.role⟩) := by
  have h200 := hcarries.statu
  cases a with
  | register m req captures =>
    obtain rfl := Option.some.inj h
    rcases registerHandler_ends (m.env site) m.server u.world req
      captures rfl with ⟨-, hstatu⟩ | ⟨row, _, _, _, _, -, -, -, -, -, -, -, -, hresponse⟩
    · exact absurd (h200 ▸ hstatu) (by decide)
    · rcases hresponse with h500 | hout
      · exact absurd (h200.symm.trans h500) (by decide)
      · exact ⟨_, hout, .inl rfl⟩
  | login m req captures =>
    obtain rfl := Option.some.inj h
    rcases loginHandler_ends (m.env site) m.server u.world req
      captures rfl with ⟨-, hstatu | ⟨row, hrow, hverifies, hout⟩⟩
    · exact absurd (h200 ▸ hstatu) (by decide)
    · exact ⟨_, hout, .inr ⟨m, req, captures, rfl, row, hrow, hverifies, rfl⟩⟩
  | admin m i req captures => cases h

/-- The role column spells `admin` for administrators only. -/
theorem role_of_nullable {role : Option Role} (h : nullable Role.text role = ascii "admin") :
    role = some .admin := by
  cases role with
  | none => exact absurd h (by decide)
  | some role =>
    cases role with
    | student => exact absurd h (by decide)
    | admin => rfl

/-- **Nobody becomes an administrator.**  Take any run of registrations, logins and admin requests.
The administrators in the table after it were there before it, under the same name and with the same
hash.  And if a token that this run has handed out opens an admin route, to any request and at any
time, it is the token of somebody who was an administrator in the table before the run. -/
theorem no_new_admin (hdocs : ∀ id token, site.codec.ReadsBack (tokenDoc id token))
    (hpayloads : ∀ claims now, site.codec.ReadsBack (jwtPayload claims now 3600))
    (s t : BanState τ) (as : List (AccountAction τ))
    (hwrites : ∀ a ∈ as, a.moment.openSsl.WritesBase64)
    (h : exec (accountStep site) s as = some t) :
    (∀ row ∈ t.db.users, row.role = some .admin → ∃ old ∈ s.db.users, SameAccount old row) ∧
      ∀ token, IssuedAlong site s as token → ∀ (m : Moment τ) (req : HttpRequest)
        (w : World (Accounts τ)) (admin : AuthInfo), m.openSsl.ReadsBase64 →
        req.headers.find? (ascii "Authorization") = some (ascii "Bearer " ++ token) →
        ((requireAdmin (m.env site) req).run w).1 = .ok (some admin) →
        ∃ row ∈ s.db.users, row.id = admin.userId ∧ row.username.bytes = admin.username ∧
          row.role = some .admin := by
  have hfrom : ∀ {bs : List (AccountAction τ)} {u : BanState τ},
      exec (accountStep site) s bs = some u → AdminsFrom s.db.users u.db.users := fun hrun =>
    users_of_run (fun _ _ => adminsFrom_keptByWrites _ _) (fun row hrow _ => ⟨row, hrow, .refl row⟩)
      hrun
  refine ⟨hfrom h, ?_⟩
  rintro token ⟨bs, a, cs, u, rsp, rfl, hrun, hrsp, hcarries⟩ m req w admin hlib hheader hadmin
  obtain ⟨hinfo, hrole⟩ := bearer_of_requireAdmin hadmin
  obtain ⟨token', hheader', hverify⟩ := authenticateRequest_eq_some_iff.mp hinfo
  obtain rfl : token = token' :=
    List.append_cancel_left (Option.some.inj (hheader.symm.trans hheader'))
  obtain ⟨claims, hout, hclaims⟩ := handsOut_of_response hrsp hcarries
  have hgenerate : generateJwt (a.moment.env site).codec (a.moment.env site).openSsl
      (a.moment.env site).jwtSecret claims 3600 (a.moment.env site).now = .ok token :=
    token_of_handsOut hdocs hout hcarries
  have hissuer : a.moment.openSsl.WritesBase64 := hwrites a (by simp)
  obtain rfl : admin = claims :=
    claims_of_verifyJwt hissuer hlib (hpayloads _ _) hgenerate hverify
  rcases hclaims with hstudent | ⟨-, -, -, -, row, hrow, -, rfl⟩
  · exact absurd (hstudent.symm.trans hrole) (by decide)
  · obtain ⟨row₀, hrow₀, hsame⟩ := hfrom hrun row hrow (role_of_nullable hrole)
    refine ⟨row₀, hrow₀, hsame.id.symm, congrArg Varchar.bytes hsame.username.symm, ?_⟩
    exact hsame.role.symm.trans (role_of_nullable hrole)

end

/-- A site whose JSON library is the standard one. -/
def accountSite : Env where
  codec := .standard (.compact fun _ => [])
  openSsl := banOpenSsl
  jwtSecret := ascii "secret"
  now := sampleInstant
  libraryText _ := ascii "exception"

theorem readsBack_tokenDoc (id : Int64) (token : Bytes) :
    accountSite.codec.ReadsBack (tokenDoc id token) :=
  Json.standard_readsBack (Json.separates_compact _) rfl

theorem readsBack_jwtPayload (claims : AuthInfo) (now : Instant) :
    accountSite.codec.ReadsBack (jwtPayload claims now 3600) :=
  Json.standard_readsBack (Json.separates_compact _) rfl

/-- The body of a login as Bob is read. -/
theorem read_loginRequest : accountSite.codec.read (loginRequest "secret-pass").body =
    .ok (loginDoc "secret-pass") := by
  have hdump : accountSite.codec.dump (loginDoc "secret-pass") =
      some (loginText "secret-pass") := by decide +kernel
  exact Json.Codec.read_eq_ok.mpr
    (Json.standard_readsBack (v := loginDoc "secret-pass") (Json.separates_compact _) rfl _ hdump).2

theorem credentials_accountSite (m : Moment Unit) : credentials (m.env accountSite)
    (loginRequest "secret-pass") = .ok (ascii "bob", ascii "secret-pass") := by
  have hbody : (m.env accountSite).codec.read (loginRequest "secret-pass").body =
      .ok (loginDoc "secret-pass") := read_loginRequest
  rw [credentials, hbody]
  rfl

/-- Bob logs in. -/
def bobLogin (m : Moment Unit) : AccountAction Unit := .login m (loginRequest "secret-pass") []

/-- Bob logs in, and opens an admin route with his token: he has been an administrator. -/
theorem no_new_admin_bob :
    ∃ row ∈ banState.db.users, row.id = (7 : Int64) ∧ row.username.bytes = ascii "bob" ∧
      row.role = some .admin := by
  have hencode : banOpenSsl.WritesBase64 := sampleOpenSsl_writesBase64
  have hlib : banOpenSsl.ReadsBase64 := sampleOpenSsl_readsBase64
  have hcodec : accountSite.codec.DumpsUtf8 := Json.standard_dumpsUtf8 _
  obtain ⟨token, htoken⟩ : ∃ token, generateJwt accountSite.codec banOpenSsl (ascii "secret")
      sampleClaims 3600 sampleInstant = .ok token :=
    exists_generateJwt hcodec (fun _ => rfl) (by decide) (by decide) 3600 sampleInstant
  have hverify : verifyJwt accountSite.codec banOpenSsl (ascii "secret") token sampleInstant =
      some sampleClaims := by
    rw [verifyJwt_generateJwt hencode hlib (readsBack_jwtPayload _ _) (by decide) htoken,
      if_pos (by decide)]
  have hverified : verifyPassword banMoment.openSsl (ascii "secret-pass") bob.record.password =
      .ok true := by decide +kernel
  have hfound : ((banMoment.server.dao.perform 0 (.userGetByUsername (ascii "bob"))).run
      banState.db).1 = .ok (some bob.record) :=
    congrArg (Except.map some) ((UserDao.fetchUser_eq_ok bob).mpr
      ⟨by decide, by decide, by decide⟩)
  obtain ⟨text, htext⟩ := hcodec.exists_dump
    (utf8_tokenDoc 7 (wellFormed_token hencode htoken))
  have hresponse : ((loginHandler (banMoment.env accountSite) banMoment.server.dao
      (loginRequest "secret-pass") []).run banState.world).2.response =
      banState.world.response.setContent text (ascii "application/json") :=
    loginHandler_of_verified (credentials_accountSite banMoment) (by decide) hfound hverified
      htoken htext []
  have hissued : IssuedAlong accountSite banState [bobLogin banMoment] token :=
    ⟨[], bobLogin banMoment, [], banState, _, rfl, rfl, rfl, 7, text, htext, hresponse⟩
  have hinfo : authenticateRequest (banMoment.env accountSite).codec
      (banMoment.env accountSite).openSsl (banMoment.env accountSite).jwtSecret
      (bearerRequest token []) (banMoment.env accountSite).now = some sampleClaims :=
    authenticateRequest_eq_some_iff.mpr ⟨token, rfl, hverify⟩
  have hwrites : ∀ a ∈ [bobLogin banMoment], a.moment.openSsl.WritesBase64 := fun a ha =>
    List.mem_singleton.mp ha ▸ hencode
  exact (no_new_admin readsBack_tokenDoc readsBack_jwtPayload banState _ [bobLogin banMoment]
    hwrites rfl).2 token hissued banMoment (bearerRequest token []) banState.world sampleClaims
    hlib rfl (by rw [requireAdmin_eq hinfo rfl]; rfl)

/-! ## 5. Whoever has registered can log in

The row of a registration is followed forward to the login.  It is still the first one under its
name, in any spelling of it, since no newcomer may have a name that is taken. -/

/-- The account is in the table, and it is the first under its name.  A lookup takes the first row
that the collation finds equal, so both halves are needed for a login. -/
def Registered (same : Bytes → Bytes → Bool) (row : UserRow) (users : List UserRow) : Prop :=
  ∃ pre row' post, users = pre ++ row' :: post ∧ SameAccount row row' ∧
    ∀ old ∈ pre, same old.username.bytes row.username.bytes = false

theorem Newcomer.registered {same : Bytes → Bytes → Bool} {users : List UserRow} {row : UserRow}
    (h : Newcomer same users row) : Registered same row (users ++ [row]) :=
  ⟨users, row, [], rfl, .refl row, h.name⟩

/-- **An account stays what it is**: an insert comes behind it, and an update changes no name and no
password. -/
theorem registered_keptByWrites (same : Bytes → Bytes → Bool) (row : UserRow) :
    KeptByWrites same (Registered same row) where
  create users new h _ := by
    obtain ⟨pre, row', post, rfl, hsame, hpre⟩ := h
    exact ⟨pre, row', post ++ [new], by simp, hsame, hpre⟩
  setStatus time users id status h := by
    obtain ⟨pre, row', post, rfl, hsame, hpre⟩ := h
    refine ⟨UserDao.setStatus time pre id status, _, UserDao.setStatus time post id status,
      by rw [UserDao.setStatus, List.map_append, List.map_cons]; rfl,
      hsame.trans (sameAccount_set time id status row'), fun old hold => ?_⟩
    obtain ⟨old', hold', rfl⟩ := List.mem_map.mp hold
    rw [(sameAccount_set time id status old').username]
    exact hpre old' hold'

/-- It is found under every spelling of its name. -/
theorem Registered.find {same : Bytes → Bytes → Bool}
    (hsame : Equivalence fun a b => same a b = true) {row : UserRow} {users : List UserRow}
    (h : Registered same row users) {username : Bytes}
    (hname : same row.username.bytes username = true) :
    ∃ row', SameAccount row row' ∧
      users.find? (fun row => same row.username.bytes username) = some row' := by
  obtain ⟨pre, row', post, rfl, haccount, hpre⟩ := h
  refine ⟨row', haccount, ?_⟩
  have hnone : pre.find? (fun row => same row.username.bytes username) = none := by
    refine List.find?_eq_none.mpr fun old hold hfound => ?_
    have hold' := hsame.trans hfound (hsame.symm hname)
    exact absurd (hpre old hold ▸ hold' : false = true) (by decide)
  rw [List.find?_append, hnone, List.find?_cons_of_pos (by rw [haccount.username]; exact hname)]
  rfl

section

variable {τ : Type} {env : Env} {server : AccountServer τ} {w : World (Accounts τ)}

/-- **A login as somebody in the table** hands out a token exactly if the row can be read and the
password verifies. -/
theorem handsOut_iff (hdump : env.codec.DumpsUtf8) (hwrites : env.openSsl.WritesBase64)
    (hhmac : ∀ data, (env.openSsl.hmac env.jwtSecret data).isSome) {req : HttpRequest}
    {username password : Bytes} (hgiven : credentials env req = .ok (username, password))
    (hnonempty : ¬ (username = [] ∨ password = [])) {row : UserRow}
    (hworks : server.fails w.calls = none)
    (hfind : w.db.users.find? (fun row => server.same row.username.bytes username) = some row)
    {verified : Bool}
    (hverify : verifyPassword env.openSsl password row.password.bytes = .ok verified)
    (hw : w.response = .ofStatu 200) (captures : List Bytes) :
    HandsOut env ⟨row.id, row.username.bytes, nullable Role.text row.role⟩
        ((loginHandler env server.dao req captures).run w).2.response ↔
      row.Fits ∧ verified = true := by
  have hread : ((server.dao.perform w.calls (.userGetByUsername username)).run w.db).1 =
      (UserDao.fetchUser row).map some := by
    rw [(perform_getByUsername (Prod.eta _).symm).2, hworks]
    dsimp only
    rw [UserDao.getByUsername, hfind]
    rfl
  constructor
  · intro hout
    obtain ⟨username', password', u, hgiven', hfound, hverified⟩ := login_of_status_ok hout.statu
    obtain ⟨rfl, rfl⟩ := Prod.mk.inj (Except.ok.inj (hgiven'.symm.trans hgiven))
    obtain ⟨u', hfetch, hu⟩ := Except.map_eq_ok.mp (hread.symm.trans hfound)
    obtain rfl := Option.some.inj hu
    have hpassword := (fetchUser_claims hfetch).2
    rw [hpassword] at hverified
    exact ⟨fits_of_fetchUser hfetch, Except.ok.inj (hverify.symm.trans hverified)⟩
  · rintro ⟨hfits, rfl⟩
    rw [(UserDao.fetchUser_eq_ok row).mpr hfits] at hread
    have hrole : Utf8.wellFormed (nullable Role.text row.role) = true := by
      cases row.role with
      | none => rfl
      | some role => cases role <;> decide
    let claims : AuthInfo := ⟨row.id, row.username.bytes, nullable Role.text row.role⟩
    obtain ⟨token, htoken⟩ : ∃ token, generateJwt env.codec env.openSsl env.jwtSecret claims 3600
        env.now = .ok token :=
      exists_generateJwt hdump hhmac row.username.utf8 hrole 3600 env.now
    obtain ⟨text, htext⟩ := hdump.exists_dump
      (utf8_tokenDoc row.id (wellFormed_token hwrites htoken))
    refine ⟨token, text, htoken, htext, ?_⟩
    rw [loginHandler_of_verified hgiven hnonempty hread hverify htoken htext captures, hw]

end

/-- **Whoever has registered can log in.**  Take a registration that puts somebody into the table,
and any run after it, over one collation of the names.  A login under the name, however it is
spelled, that the database answers hands out a token for the account, as a student, exactly if the
name and the address fit the buffers of the read and PBKDF2 gives for its password what it has given
for that of the registration. -/
theorem registered_logs_in_iff {τ : Type} {site : Env} (hdump : site.codec.DumpsUtf8)
    {same : Bytes → Bytes → Bool} (hsame : Equivalence fun a b => same a b = true) (m : Moment τ)
    (hm : m.server.same = same) (hsized : m.openSsl.Sized) (req : HttpRequest)
    (captures : List Bytes) (s s' : BanState τ)
    (hregister : accountStep site s (.register m req captures) = some s')
    (hadded : s'.db.users ≠ s.db.users) (as : List (AccountAction τ))
    (has : ∀ a ∈ as, a.moment.server.same = same) (t : BanState τ)
    (h : exec (accountStep site) s' as = some t) :
    ∃ row username password email salt dk, s'.db.users = s.db.users ++ [row] ∧
      credentials (m.env site) req = .ok (username, password) ∧
      emailOf (m.env site) req = .ok email ∧ m.openSsl.randBytes 16 = some salt ∧
      m.openSsl.pbkdf2 password salt 100000 32 = some dk ∧
      ∀ (m' : Moment τ) (req' : HttpRequest) (captures' : List Bytes) (name password' : Bytes),
        m'.server.same = same → m'.server.fails 0 = none → m'.openSsl.WritesBase64 →
        m'.openSsl.ReadsBase64 →
        (∀ data, (m'.openSsl.hmac site.jwtSecret data).isSome) →
        credentials (m'.env site) req' = .ok (name, password') → name ≠ [] → password' ≠ [] →
        same username name = true →
        (HandsOut (m'.env site) ⟨row.id, username, ascii "student"⟩
            (t.after (loginHandler (m'.env site) m'.server.dao) req' captures').response ↔
          username.length ≤ 128 ∧ email.length ≤ 256 ∧
            m'.openSsl.pbkdf2 password' salt 100000 32 = some dk) := by
  obtain rfl := Option.some.inj hregister
  rcases registerHandler_ends (m.env site) m.server s.world req captures
    rfl with ⟨husers, -⟩ | ⟨row, username, password, email, hash, hgiven, hemail, hhash, rfl,
      rfl, rfl, hnew, husers, -⟩
  · exact absurd husers hadded
  · rw [hm] at hnew
    obtain ⟨hlength, salt, dk, hsalt, hdk, hverifies⟩ := generatePasswordHash_spec hsized hhash
    refine ⟨row, _, password, _, salt, dk, husers, hgiven, hemail, hsalt, hdk, ?_⟩
    intro m' req' captures' name password' hm' hworks hwrites hlib hhmac hgiven' hname hpassword
      hspelled
    have hregistered : Registered same row t.db.users :=
      users_of_run (fun a ha => has a ha ▸ registered_keptByWrites _ row)
        (husers.symm ▸ hnew.registered) h
    obtain ⟨row', haccount, hfind⟩ := hregistered.find hsame hspelled
    rw [← hm'] at hfind
    have hclaims : (⟨row'.id, row'.username.bytes, nullable Role.text row'.role⟩ : AuthInfo) =
        ⟨row.id, row.username.bytes, ascii "student"⟩ := by
      rw [haccount.id, haccount.username, haccount.role, hnew.role]
      rfl
    have hverify : verifyPassword (m'.env site).openSsl password' row'.password.bytes =
        .ok (m'.openSsl.pbkdf2 password' salt 100000 32 == some dk) := by
      rw [haccount.password]
      exact hverifies _ hlib password'
    have hout : HandsOut (m'.env site) ⟨row'.id, row'.username.bytes, nullable Role.text row'.role⟩
        ((loginHandler (m'.env site) m'.server.dao req' captures').run t.world).2.response ↔
        row'.Fits ∧ (m'.openSsl.pbkdf2 password' salt 100000 32 == some dk) = true :=
      have hdump' : (m'.env site).codec.DumpsUtf8 := hdump
      handsOut_iff hdump' hwrites hhmac hgiven' (not_or.mpr ⟨hname, hpassword⟩) hworks hfind
        hverify rfl captures'
    rw [hclaims, beq_iff_eq] at hout
    refine hout.trans ?_
    constructor
    · rintro ⟨hfits, hsame'⟩
      exact ⟨haccount.username ▸ hfits.username, haccount.email ▸ hfits.email, hsame'⟩
    · rintro ⟨husername, hemail', hsame'⟩
      refine ⟨⟨haccount.username ▸ husername, ?_, haccount.email ▸ hemail'⟩, hsame'⟩
      rw [haccount.password, hlength]
      decide

/-- PBKDF2 of Bob's password, under the salt that the library draws. -/
def registerOpenSsl : OpenSsl :=
  { sampleOpenSsl with
    randBytes := fun n => some ((List.range n).map UInt8.ofNat)
    pbkdf2 := fun password salt iterations n =>
      if n = 32 then banOpenSsl.pbkdf2 password salt iterations n
      else some (List.replicate n 0) }

theorem registerOpenSsl_sized : registerOpenSsl.Sized where
  bioWrite := sampleOpenSsl_writesBase64
  randBytes n bytes h := by
    obtain rfl := Option.some.inj h
    simp
  pbkdf2 password salt iterations n dk h := by
    simp only [registerOpenSsl, banOpenSsl] at h
    split at h
    · split at h <;> obtain rfl := Option.some.inj h <;> simp_all
    · obtain rfl := Option.some.inj h
      simp

/-- The moment at which Bob registers. -/
def registerMoment : Moment Unit := { banMoment with openSsl := registerOpenSsl }

/-- A table with nobody in it. -/
def emptyState : BanState Unit where
  db := ⟨[], ()⟩
  stored _ := none

/-- Bob has registered, and somebody guesses at his password. -/
theorem registered_logs_in_iff_bob :
    ∃ (t : BanState Unit) (row : UserRow), exec (accountStep accountSite) emptyState
        [.register registerMoment (loginRequest "secret-pass") [],
          .login registerMoment (loginRequest "guess") []] = some t ∧
      HandsOut (registerMoment.env accountSite) ⟨row.id, ascii "bob", ascii "student"⟩
        (t.after (loginHandler (registerMoment.env accountSite) registerMoment.server.dao)
          (loginRequest "secret-pass") []).response := by
  have hgiven : credentials (registerMoment.env accountSite) (loginRequest "secret-pass") =
      .ok (ascii "bob", ascii "secret-pass") := credentials_accountSite registerMoment
  have hequivalence : Equivalence fun a b => registerMoment.server.same a b = true := by
    refine ⟨fun a => beq_self_eq_true a, fun h => ?_, fun h h' => ?_⟩
    · exact beq_iff_eq.mpr (eq_of_beq h).symm
    · exact beq_iff_eq.mpr ((eq_of_beq h).trans (eq_of_beq h'))
  obtain ⟨s', hregister⟩ : ∃ s', accountStep accountSite emptyState
      (.register registerMoment (loginRequest "secret-pass") []) = some s' := ⟨_, rfl⟩
  obtain ⟨t, hrun⟩ : ∃ t, exec (accountStep accountSite) s'
      [.login registerMoment (loginRequest "guess") []] = some t := ⟨_, rfl⟩
  have hadded : s'.db.users ≠ emptyState.db.users := by
    obtain rfl := Option.some.inj hregister
    have hlength : ((emptyState.after (registerHandler (registerMoment.env accountSite)
        registerMoment.server.dao) (loginRequest "secret-pass") []).db.users).length = 1 := by
      decide +kernel
    intro hempty
    rw [hempty] at hlength
    cases hlength
  obtain ⟨row, username, password, email, salt, dk, -, hgiven', hemail, hsalt, hdk, hlogin⟩ :=
    registered_logs_in_iff (Json.standard_dumpsUtf8 _) hequivalence registerMoment rfl
      registerOpenSsl_sized _ _ emptyState s' hregister hadded _ (by simp [AccountAction.moment])
      t hrun
  obtain ⟨rfl, rfl⟩ := Prod.mk.inj (Except.ok.inj (hgiven.symm.trans hgiven'))
  have hemail' :
      emailOf (registerMoment.env accountSite) (loginRequest "secret-pass") = .ok [] := by
    have hbody : (registerMoment.env accountSite).codec.read (loginRequest "secret-pass").body =
        .ok (loginDoc "secret-pass") := read_loginRequest
    rw [emailOf, hbody]
    rfl
  obtain rfl := Except.ok.inj (hemail'.symm.trans hemail)
  refine ⟨t, row, (exec_cons_eq_some _).mpr ⟨s', hregister, hrun⟩, ?_⟩
  exact (hlogin registerMoment (loginRequest "secret-pass") [] (ascii "bob") (ascii "secret-pass")
    rfl rfl sampleOpenSsl_writesBase64 sampleOpenSsl_readsBase64 (fun _ => rfl) hgiven (by decide)
    (by decide) (by decide)).mpr ⟨by decide, by decide, hdk⟩

end OnlineJudge.Handler
