/-
# `register_admin` beside the site

The tool that makes an administrator (`tools/register_admin.cpp`): it reads its arguments, looks a
name up, and updates or inserts one row in a transaction.  The site goes on answering requests in
between, so a run interleaves the steps of the tool with those of `accountStep`.

Nobody sees the change before `COMMIT`, and whoever would touch the row waits for it; the statement
that writes and the `COMMIT` are therefore one step (`.save`).  `ROLLBACK` is never sent: a tool
that fails closes its connection, and the database drops the change.

The tool can be started any number of times, but `toolStep` runs one process of it at a time: a
`start` is possible only when the process before has exited.  Two administrators who call it for the
same name at the same moment are not in the model.

* `admin_token_needs_tool`: on a database fresh from `init_db.sql`, a token that the site hands out
  opens an admin route only for a name that the tool was given, and it stands in the answer to a
  login whose password verifies against the hash of the tool's.
* `tool_admin_logs_in`: when the tool has exited with 0, whoever gives its name and password is let
  through to the admin routes until the token expires, whatever has happened in between.
-/
import OnlineJudge.Handler.Accounts

namespace OnlineJudge.Tools

open ByteString Db Net Auth Transition Handler

/-! ## 1. The arguments

Each of the three options takes the argument behind it as its value, and anything else is a mistake.
What is not given has a default, the password too. -/

/-- What `main` keeps of its arguments. -/
structure Arguments where
  configPath : Bytes
  username : Bytes
  password : Bytes

/-- `kDefaultConfigPath`, `kDefaultUsername` and `kDefaultPassword`. -/
def Arguments.defaults : Arguments :=
  ⟨ascii "./config/config.yaml", ascii "admin", ascii "admin123"⟩

/-- The loop over `argv`, without the name of the program; `none` is the usage message. -/
def readArguments : Arguments → List Bytes → Option Arguments
  | args, [] => some args
  | _, [_] => none
  | args, arg :: value :: rest =>
    if arg = ascii "--config" then readArguments { args with configPath := value } rest
    else if arg = ascii "--username" then readArguments { args with username := value } rest
    else if arg = ascii "--password" then readArguments { args with password := value } rest
    else none

/-! ## 2. The statements

The two statements that write, as the database carries them out.  The constraints of the table,
which are those of `Db.Users`, decide whether they fail. -/

/-- `FindUserIdByUsername`: -1 is for nobody. -/
def findUserIdByUsername (same : Bytes → Bytes → Bool) (users : List UserRow) (username : Bytes) :
    Int64 :=
  match users.find? fun row => same row.username.bytes username with
  | some row => row.id
  | none => -1

/-- The row as the `UPDATE` leaves it.  Its time changes if anything else does. -/
def adminRow (time : DateTime) (username : Varchar 64) (password : Varchar 256)
    (email : Varchar 128) (row : UserRow) : UserRow :=
  let new := { row with
    username := username, password := password, email := email, role := some .admin,
    status := some .active }
  if new = row then row else { new with updatedAt := some time }

/-- `UpdateAdminUser`: the table after it.  Where no row has the id nothing is checked. -/
def updateAdminUser (same : Bytes → Bytes → Bool) (time : DateTime) (message : Bytes)
    (users : List UserRow) (id : Int64) (username passwordHash : Bytes) :
    Except Raised (List UserRow) :=
  if users.any fun row => row.id == id then
    match Varchar.ofBytes 64 username, Varchar.ofBytes 256 passwordHash, Varchar.ofBytes 128 [] with
    | some username, some password, some email =>
      if users.any fun row => row.id != id && same row.username.bytes username.bytes then
        .error (refusal message)
      else
        .ok (users.map fun row =>
          if row.id == id then adminRow time username password email row else row)
    | _, _, _ => .error (refusal message)
  else .ok users

/-- `InsertAdminUser`: the `INSERT` of `UserDao::CreateUser`. -/
def insertAdminUser (same : Bytes → Bytes → Bool) (stamp : Stamp) (message : Bytes)
    (users : List UserRow) (username passwordHash : Bytes) : Except Raised (List UserRow) :=
  UserDao.createUser same stamp message users username passwordHash [] (ascii "admin")
    (ascii "active")

/-- The branch on `existing_id`. -/
def saveAdmin (same : Bytes → Bytes → Bool) (stamp : Stamp) (message : Bytes)
    (users : List UserRow) (existingId : Int64) (username passwordHash : Bytes) :
    Except Raised (List UserRow) :=
  if 0 ≤ existingId then
    updateAdminUser same stamp.time message users existingId username passwordHash
  else insertAdminUser same stamp message users username passwordHash

/-! ## 3. Runs

The tool is a process with few places to be in, and the steps between them are those at which the
database is asked. -/

/-- How far the tool has come. -/
inductive Phase
  | idle
  | begun (args : Arguments) (hash : Bytes)
  | found (args : Arguments) (hash : Bytes) (existingId : Int64)
  | exited (code : Int)

/-- The tool can be started. -/
def Phase.Stopped : Phase → Prop
  | idle | exited _ => True
  | begun .. | found .. => False

/-- What becomes of `COMMIT`.  One that fails may have been carried out all the same. -/
inductive Commit
  | acknowledged
  | refused
  | unacknowledged

/-- The site and the tool. -/
structure ToolState (τ : Type) where
  site : BanState τ
  tool : Phase

/-- A request to the site, or the next step of the tool.  `fails` is the exception of the step:
in `start`, of the configuration, the connection or `START TRANSACTION`. -/
inductive ToolAction (τ : Type)
  | site (a : AccountAction τ)
  | start (argv : List Bytes) (openSsl : OpenSsl) (fails : Option Raised)
  | find (fails : Option Raised)
  | save (stamp : Stamp) (message : Bytes) (fails : Option Raised) (commit : Commit)

/-- `main` up to `BeginTransaction`. -/
def begin (argv : List Bytes) (openSsl : OpenSsl) (fails : Option Raised) : Phase :=
  match readArguments .defaults argv with
  | none => .exited 2
  | some args =>
    match fails, generatePasswordHash openSsl args.password with
    | none, .ok hash => .begun args hash
    | _, _ => .exited 1

section

variable {τ : Type}

/-- The table of users. -/
def ToolState.users (s : ToolState τ) : List UserRow := s.site.db.users

/-- The same with another table and phase. -/
def ToolState.saved (s : ToolState τ) (users : List UserRow) (code : Int) : ToolState τ :=
  ⟨{ s.site with db := { s.site.db with users := users } }, .exited code⟩

@[simp] theorem ToolState.users_saved (s : ToolState τ) (users : List UserRow) (code : Int) :
    (s.saved users code).users = users := rfl

@[simp] theorem ToolState.tool_saved (s : ToolState τ) (users : List UserRow) (code : Int) :
    (s.saved users code).tool = .exited code := rfl

/-- One step of the site or of the tool, of which one process runs at a time. -/
def toolStep (site : Env) (same : Bytes → Bytes → Bool) (s : ToolState τ) :
    ToolAction τ → Option (ToolState τ)
  | .site a => (accountStep site s.site a).map fun t => ⟨t, s.tool⟩
  | .start argv openSsl fails =>
    match s.tool with
    | .idle | .exited _ => some ⟨s.site, begin argv openSsl fails⟩
    | .begun .. | .found .. => none
  | .find fails =>
    match s.tool with
    | .begun args hash =>
      match fails with
      | some _ => some ⟨s.site, .exited 1⟩
      | none => some ⟨s.site, .found args hash (findUserIdByUsername same s.users args.username)⟩
    | _ => none
  | .save stamp message fails commit =>
    match s.tool with
    | .found args hash existingId =>
      match fails, saveAdmin same stamp message s.users existingId args.username hash with
      | none, .ok users =>
        match commit with
        | .acknowledged => some (s.saved users 0)
        | .refused => some (s.saved s.users 1)
        | .unacknowledged => some (s.saved users 1)
      | _, _ => some (s.saved s.users 1)
    | _ => none

variable {site : Env} {same : Bytes → Bytes → Bool} {s t : ToolState τ} {a : ToolAction τ}

/-- A step of the tool that saves: nothing happens and it exits with 1, or the row is saved. -/
inductive Saves (same : Bytes → Bytes → Bool) (s : ToolState τ) (args : Arguments) (hash : Bytes)
    (existingId : Int64) : ToolState τ → Prop
  | nothing : Saves same s args hash existingId (s.saved s.users 1)
  | row {stamp : Stamp} {message : Bytes} {users : List UserRow} (code : Int) :
      saveAdmin same stamp message s.users existingId args.username hash = .ok users →
      Saves same s args hash existingId (s.saved users code)

/-- **What a step can do**: the site takes one, a tool is started, looks the name up, or saves.
Nothing else changes the state, and no step of the tool touches the site's users but the last. -/
theorem toolStep_cases (h : toolStep site same s a = some t) :
    (∃ b u, a = .site b ∧ accountStep site s.site b = some u ∧ t = ⟨u, s.tool⟩) ∨
    (∃ argv openSsl fails, a = .start argv openSsl fails ∧
      t = ⟨s.site, begin argv openSsl fails⟩) ∨
    (∃ fails args hash, a = .find fails ∧ s.tool = .begun args hash ∧
      (t = ⟨s.site, .exited 1⟩ ∨
        t = ⟨s.site, .found args hash (findUserIdByUsername same s.users args.username)⟩)) ∨
    ∃ stamp message fails commit args hash existingId, a = .save stamp message fails commit ∧
      s.tool = .found args hash existingId ∧ Saves same s args hash existingId t := by
  cases a with
  | site b =>
    obtain ⟨u, hu, rfl⟩ := Option.map_eq_some_iff.mp h
    exact .inl ⟨b, u, rfl, hu, rfl⟩
  | start argv openSsl fails =>
    simp only [toolStep] at h
    split at h
    · exact .inr (.inl ⟨argv, openSsl, fails, rfl, (Option.some.inj h).symm⟩)
    · exact .inr (.inl ⟨argv, openSsl, fails, rfl, (Option.some.inj h).symm⟩)
    · cases h
    · cases h
  | find fails =>
    simp only [toolStep] at h
    split at h
    · rename_i args hash htool
      refine .inr (.inr (.inl ⟨fails, args, hash, rfl, htool, ?_⟩))
      split at h
      · exact .inl (Option.some.inj h).symm
      · exact .inr (Option.some.inj h).symm
    · cases h
  | save stamp message fails commit =>
    simp only [toolStep] at h
    split at h
    · rename_i args hash existingId htool
      refine .inr (.inr (.inr ⟨stamp, message, fails, commit, args, hash, existingId, rfl, htool,
        ?_⟩))
      split at h
      · rename_i users hsave
        cases commit with
        | acknowledged => exact Option.some.inj h ▸ .row 0 hsave
        | refused => exact Option.some.inj h ▸ .nothing
        | unacknowledged => exact Option.some.inj h ▸ .row 1 hsave
      · exact Option.some.inj h ▸ .nothing
    · cases h

end

/-! ## 4. The row that is saved

Where a statement writes, it leaves one administrator under the name that was given.  The two of
them are for a name that is there and for one that is not. -/

/-- The row that the tool makes: this name, this hash, no address, and the role of an administrator.
-/
structure IsAdmin (username hash : Bytes) (row : UserRow) : Prop where
  username : row.username.bytes = username
  password : row.password.bytes = hash
  email : row.email.bytes = []
  role : row.role = some .admin

@[simp] theorem adminRow_id (time : DateTime) (username : Varchar 64) (password : Varchar 256)
    (email : Varchar 128) (row : UserRow) :
    (adminRow time username password email row).id = row.id := by
  simp only [adminRow]
  split <;> rfl

theorem isAdmin_adminRow (time : DateTime) (username : Varchar 64) (password : Varchar 256)
    {email : Varchar 128} (hemail : email.bytes = []) (row : UserRow) :
    IsAdmin username.bytes password.bytes (adminRow time username password email row) := by
  simp only [adminRow]
  split
  · rename_i hsame
    rw [← hsame]
    exact ⟨rfl, rfl, hemail, rfl⟩
  · exact ⟨rfl, rfl, hemail, rfl⟩

section

variable {same : Bytes → Bytes → Bool} {stamp : Stamp} {message : Bytes}
  {users users' : List UserRow} {id : Int64} {username hash : Bytes}

/-- **What `UPDATE` does**: nothing, as nobody has the id; or it makes the row with the id an
administrator, where nobody else has the name. -/
theorem updateAdminUser_spec
    (h : updateAdminUser same stamp.time message users id username hash = .ok users') :
    (users' = users ∧ ∀ row ∈ users, row.id ≠ id) ∨
      ∃ f : UserRow → UserRow, (∀ row, (f row).id = row.id ∧ IsAdmin username hash (f row)) ∧
        users' = users.map (fun row => if row.id == id then f row else row) ∧
        ∀ row ∈ users, row.id ≠ id → same row.username.bytes username = false := by
  unfold updateAdminUser at h
  split at h
  · split at h
    · rename_i name password email hname hpassword hemail
      split at h
      · cases h
      · rename_i hfree
        obtain rfl := Except.ok.inj h
        obtain rfl := Varchar.ofBytes_eq_some.mp hname
        obtain rfl := Varchar.ofBytes_eq_some.mp hpassword
        have hempty := Varchar.ofBytes_eq_some.mp hemail
        refine .inr ⟨adminRow stamp.time name password email, fun row =>
          ⟨adminRow_id _ _ _ _ row, isAdmin_adminRow _ _ _ hempty row⟩, rfl, fun row hrow hid => ?_⟩
        have hother := List.any_eq_false.mp (Bool.eq_false_iff.mpr hfree) row hrow
        simpa [hid] using hother
    · cases h
  · rename_i hnone
    refine .inl ⟨(Except.ok.inj h).symm, fun row hrow hid => hnone ?_⟩
    exact List.any_eq_true.mpr ⟨row, hrow, beq_iff_eq.mpr hid⟩

/-- **What `INSERT` does** when it succeeds: one row more, an administrator, with a name and an id
that nobody had. -/
theorem insertAdminUser_spec
    (h : insertAdminUser same stamp message users username hash = .ok users') :
    ∃ row, users' = users ++ [row] ∧ IsAdmin username hash row ∧
      (∀ old ∈ users, same old.username.bytes username = false) ∧
      ∀ old ∈ users, old.id ≠ row.id := by
  obtain ⟨row, rfl, -, hname, hpassword, hemail, hrole, hnames, hids⟩ := createUser_row h
  have hadmin : Role.ofText (ascii "admin") = some .admin := by decide
  exact ⟨row, rfl, ⟨hname, hpassword, hemail, hrole.trans hadmin⟩, hnames, hids⟩

/-- Saving makes one administrator, and leaves everybody else alone. -/
theorem mem_of_saveAdmin (h : saveAdmin same stamp message users id username hash = .ok users')
    {row : UserRow} (hrow : row ∈ users') : row ∈ users ∨ IsAdmin username hash row := by
  unfold saveAdmin at h
  split at h
  · rcases updateAdminUser_spec h with ⟨rfl, -⟩ | ⟨f, hf, rfl, -⟩
    · exact .inl hrow
    · obtain ⟨old, hold, rfl⟩ := List.mem_map.mp hrow
      split
      · exact .inr (hf old).2
      · exact .inl hold
  · obtain ⟨new, rfl, hnew, -⟩ := insertAdminUser_spec h
    rcases List.mem_append.mp hrow with hold | hmem
    · exact .inl hold
    · obtain rfl := List.mem_singleton.mp hmem
      exact .inr hnew

theorem ids_saveAdmin (h : saveAdmin same stamp message users id username hash = .ok users')
    (hids : (users.map UserRow.id).Nodup) :
    (users'.map UserRow.id).Nodup ∧ users.map UserRow.id ⊆ users'.map UserRow.id := by
  unfold saveAdmin at h
  split at h
  · rcases updateAdminUser_spec h with ⟨rfl, -⟩ | ⟨f, hf, rfl, -⟩
    · exact ⟨hids, List.Subset.refl _⟩
    · have hsame : (users.map fun row => if row.id == id then f row else row).map UserRow.id =
          users.map UserRow.id := by
        rw [List.map_map]
        refine List.map_congr_left fun row _ => ?_
        simp only [Function.comp_apply]
        split
        · exact (hf row).1
        · rfl
      rw [hsame]
      exact ⟨hids, List.Subset.refl _⟩
  · obtain ⟨new, rfl, -, -, hfresh⟩ := insertAdminUser_spec h
    rw [List.map_append]
    refine ⟨List.nodup_append.mpr ⟨hids, List.nodup_singleton _, ?_⟩, List.subset_append_left _ _⟩
    intro a ha b hb hab
    obtain ⟨old, hold, rfl⟩ := List.mem_map.mp ha
    exact hfresh old hold (hab.trans (List.mem_singleton.mp hb))

/-- **The row that is saved is the first under its name**, if the row of the id is there. -/
theorem registered_of_saveAdmin
    (h : saveAdmin same stamp message users id username hash = .ok users')
    (hids : (users.map UserRow.id).Nodup) (hid : 0 ≤ id → id ∈ users.map UserRow.id) :
    ∃ row, IsAdmin username hash row ∧ Registered same row users' := by
  unfold saveAdmin at h
  split at h
  · rename_i hfound
    obtain ⟨old, hold, hidOld⟩ := List.mem_map.mp (hid hfound)
    rcases updateAdminUser_spec h with ⟨-, hnone⟩ | ⟨f, hf, rfl, hfree⟩
    · exact absurd hidOld (hnone old hold)
    · obtain ⟨pre, post, rfl⟩ := List.append_of_mem hold
      have hpre : ∀ row ∈ pre, row.id ≠ id := by
        intro row hrow hrowId
        rw [List.map_append, List.map_cons] at hids
        exact (List.nodup_append.mp hids).2.2 row.id (List.mem_map_of_mem hrow) old.id
          List.mem_cons_self (hrowId.trans hidOld.symm)
      have hkeep : pre.map (fun row => if row.id == id then f row else row) = pre := by
        refine (List.map_congr_left fun row hrow => ?_).trans (List.map_id pre)
        rw [if_neg (fun heq => hpre row hrow (beq_iff_eq.mp heq))]
        rfl
      refine ⟨f old, (hf old).2, pre, f old,
        post.map (fun row => if row.id == id then f row else row), ?_, .refl _, fun row hrow => ?_⟩
      · rw [List.map_append, List.map_cons, hkeep, if_pos (beq_iff_eq.mpr hidOld)]
      · rw [(hf old).2.username]
        exact hfree row (List.mem_append_left _ hrow) (hpre row hrow)
  · obtain ⟨row, rfl, hrow, hnames, -⟩ := insertAdminUser_spec h
    exact ⟨row, hrow, users, row, [], rfl, .refl row,
      fun old hold => hrow.username ▸ hnames old hold⟩

end

/-! ## 5. Only the tool makes administrators

An invariant with a memory: every administrator in the table goes back to the table at the start or
to a start of the tool.  The site's own steps keep it, since they insert students only. -/

/-- The tool has been started with these arguments, and this is the hash of its password. -/
def Given {τ : Type} (as : List (ToolAction τ)) (args : Arguments) (hash : Bytes) : Prop :=
  ∃ argv openSsl, .start argv openSsl none ∈ as ∧ readArguments .defaults argv = some args ∧
    generatePasswordHash openSsl args.password = .ok hash

/-- What the tool holds has been given to it. -/
def Phase.Of (given : Arguments → Bytes → Prop) : Phase → Prop
  | .begun args hash | .found args hash _ => given args hash
  | .idle | .exited _ => True

theorem of_begin {given : Arguments → Bytes → Prop} {argv : List Bytes} {openSsl : OpenSsl}
    {fails : Option Raised}
    (h : ∀ args hash, fails = none → readArguments .defaults argv = some args →
      generatePasswordHash openSsl args.password = .ok hash → given args hash) :
    (begin argv openSsl fails).Of given := by
  unfold begin
  split
  · trivial
  · rename_i args hargs
    split
    · rename_i hash hhash
      exact h args hash rfl hargs hhash
    · trivial

/-- Where the administrators come from: the table at the start, or the tool.  Those of the tool have
the name and the hash that one start of it was given. -/
def AdminsGiven (given : Arguments → Bytes → Prop) (old users : List UserRow) : Prop :=
  ∀ row ∈ users, row.role = some .admin → (∃ row₀ ∈ old, SameAccount row₀ row) ∨
    ∃ args hash, given args hash ∧ IsAdmin args.username hash row

theorem isAdmin_of_sameAccount {row row' : UserRow} {username hash : Bytes}
    (h : SameAccount row row') (hadmin : IsAdmin username hash row) :
    IsAdmin username hash row' where
  username := (congrArg Varchar.bytes h.username).trans hadmin.username
  password := (congrArg Varchar.bytes h.password).trans hadmin.password
  email := (congrArg Varchar.bytes h.email).trans hadmin.email
  role := h.role.trans hadmin.role

theorem adminsGiven_keptByWrites (same : Bytes → Bytes → Bool)
    (given : Arguments → Bytes → Prop) (old : List UserRow) :
    KeptByWrites same (AdminsGiven given old) where
  create users row h hnew row' hrow' hrole := by
    rcases List.mem_append.mp hrow' with hmem | hmem
    · exact h row' hmem hrole
    · obtain rfl := List.mem_singleton.mp hmem
      rw [hnew.role] at hrole
      cases hrole
  setStatus time users id status h row' hrow' hrole := by
    obtain ⟨row, hrow, rfl⟩ := List.mem_map.mp hrow'
    have hsame := sameAccount_set time id status row
    rcases h row hrow (hsame.role.symm.trans hrole) with ⟨row₀, hrow₀, hsame₀⟩ |
      ⟨args, hash, hgiven, hadmin⟩
    · exact .inl ⟨row₀, hrow₀, hsame₀.trans hsame⟩
    · exact .inr ⟨args, hash, hgiven, isAdmin_of_sameAccount hsame hadmin⟩

section

variable {τ : Type} {site : Env} {same : Bytes → Bytes → Bool} {s t : ToolState τ}

/-- **What the steps keep**: every administrator comes from somewhere.  The steps of the site keep
it as they insert students, and a save of the tool as it has been given what it saves. -/
theorem adminsGiven_of_run {old : List UserRow} {as : List (ToolAction τ)}
    (hs : AdminsGiven (Given as) old s.users ∧ s.tool.Of (Given as))
    (h : exec (toolStep site same) s as = some t) :
    AdminsGiven (Given as) old t.users ∧ t.tool.Of (Given as) := by
  refine exec_invariant_of_mem
    (I := fun s : ToolState τ => AdminsGiven (Given as) old s.users ∧ s.tool.Of (Given as)) ?_ hs
    (fun a ha => ha) h
  rintro s a t ⟨husers, htool⟩ ha hstep
  rcases toolStep_cases hstep with ⟨b, u, rfl, hsite, rfl⟩ | ⟨argv, openSsl, fails, rfl, rfl⟩ |
    ⟨fails, args, hash, rfl, hbegun, rfl | rfl⟩ |
    ⟨stamp, message, fails, commit, args, hash, existingId, rfl, hfound, hsaves⟩
  · exact ⟨users_accountStep (adminsGiven_keptByWrites _ _ _) husers hsite, htool⟩
  · refine ⟨husers, of_begin ?_⟩
    rintro args hash rfl hargs hhash
    exact ⟨argv, openSsl, ha, hargs, hhash⟩
  · exact ⟨husers, trivial⟩
  · rw [hbegun] at htool
    exact ⟨husers, htool⟩
  · rw [hfound] at htool
    cases hsaves with
    | nothing => exact ⟨husers, trivial⟩
    | row code hsave =>
      refine ⟨fun row hrow hrole => ?_, trivial⟩
      rcases mem_of_saveAdmin hsave hrow with hold | hnew
      · exact husers row hold hrole
      · exact .inr ⟨args, hash, htool, hnew⟩

theorem fits_noEmail : Utf8.chars [] ≤ 128 := by decide

/-- The administrator of `init_db.sql`: the password is no hash. -/
def seedAdmin (stamp : Stamp) : UserRow where
  id := stamp.id
  username := ⟨ascii "admin", by decide, by decide⟩
  password := ⟨ascii "CHANGE_ME_HASH", by decide, by decide⟩
  email := ⟨[], rfl, fits_noEmail⟩
  role := some .admin
  status := some .active
  createdAt := some stamp.time
  updatedAt := some stamp.time

theorem not_verifies_seedAdmin {env : Env} {req : HttpRequest} {stamp : Stamp} {row : UserRow}
    (h : SameAccount (seedAdmin stamp) row) : ¬ Verifies env req row := by
  rintro ⟨username, password, -, hverified⟩
  have hsplit : splitTwice 58 (ascii "CHANGE_ME_HASH") = none := by decide +kernel
  have hpassword : row.password.bytes = ascii "CHANGE_ME_HASH" := congrArg Varchar.bytes h.password
  rw [hpassword, verifyPassword, hsplit] at hverified
  cases hverified

/-- A registration or a login of this run was answered with this token.  Tokens that somebody else
signs with the secret are not in question. -/
def HandedOut (site : Env) (same : Bytes → Bytes → Bool) (s : ToolState τ)
    (as : List (ToolAction τ)) (token : Bytes) : Prop :=
  ∃ bs b cs u rsp, as = bs ++ .site b :: cs ∧ exec (toolStep site same) s bs = some u ∧
    u.site.response site b = some rsp ∧ CarriesToken site.codec token rsp

end

/-! ## 6. The administrator logs in

The row has to stay as the tool has left it, whatever the site does, until somebody logs in.  What
can change it is the tool itself, started for the same name. -/

/-- The row that the tool has found is there. -/
def Phase.Points (users : List UserRow) : Phase → Prop
  | .found _ _ existingId => 0 ≤ existingId → existingId ∈ users.map UserRow.id
  | .idle | .begun .. | .exited _ => True

/-- The tool is not about to touch this row. -/
def Phase.Spares (same : Bytes → Bytes → Bool) (row : UserRow) : Phase → Prop
  | .begun args _ => same args.username row.username.bytes = false
  | .found args _ existingId =>
    same args.username row.username.bytes = false ∧ (0 ≤ existingId → existingId ≠ row.id)
  | .idle | .exited _ => True

/-- This start of the tool is for another name. -/
def OtherName {τ : Type} (same : Bytes → Bytes → Bool) (username : Bytes) : ToolAction τ → Prop
  | .start argv _ _ =>
    ∀ args, readArguments .defaults argv = some args → same args.username username = false
  | .site _ | .find _ | .save .. => True

/-- The requests go by this collation. -/
def Collates {τ : Type} (same : Bytes → Bytes → Bool) : ToolAction τ → Prop
  | .site a => a.moment.server.same = same
  | .start .. | .find _ | .save .. => True

theorem findUserIdByUsername_spec {same : Bytes → Bytes → Bool} {users : List UserRow}
    {username : Bytes} (h : 0 ≤ findUserIdByUsername same users username) :
    ∃ row ∈ users, row.id = findUserIdByUsername same users username ∧
      same row.username.bytes username = true := by
  unfold findUserIdByUsername at h ⊢
  cases hfind : users.find? fun row => same row.username.bytes username with
  | none =>
    rw [hfind] at h
    exact absurd h (by decide)
  | some row =>
    have hname := List.find?_some (p := fun row : UserRow => same row.username.bytes username) hfind
    exact ⟨row, List.mem_of_find?_eq_some hfind, rfl, hname⟩

/-- A registered row that another name is saved beside. -/
theorem registered_saveAdmin {same : Bytes → Bytes → Bool} {stamp : Stamp} {message : Bytes}
    {users users' : List UserRow} {id : Int64} {username hash : Bytes} {row : UserRow}
    (h : saveAdmin same stamp message users id username hash = .ok users')
    (hname : same username row.username.bytes = false) (hid : 0 ≤ id → id ≠ row.id)
    (hrow : Registered same row users) : Registered same row users' := by
  obtain ⟨pre, row', post, rfl, hsame, hpre⟩ := hrow
  unfold saveAdmin at h
  split at h
  · rename_i hfound
    rcases updateAdminUser_spec h with ⟨rfl, -⟩ | ⟨f, hf, rfl, -⟩
    · exact ⟨pre, row', post, rfl, hsame, hpre⟩
    · have hother : ¬ (row'.id == id) = true := by
        rw [beq_iff_eq, hsame.id]
        exact fun heq => hid hfound heq.symm
      refine ⟨_, row', _, by rw [List.map_append, List.map_cons, if_neg hother], hsame, ?_⟩
      intro old hold
      obtain ⟨old', hold', rfl⟩ := List.mem_map.mp hold
      split
      · rw [(hf old').2.username]
        exact hname
      · exact hpre old' hold'
  · obtain ⟨new, rfl, -⟩ := insertAdminUser_spec h
    exact ⟨pre, row', post ++ [new], by simp, hsame, hpre⟩

section

variable {τ : Type} {site : Env} {same : Bytes → Bytes → Bool} {s t : ToolState τ}

/-- **The ids stay distinct, and what the tool has found stays there.** -/
theorem ids_of_run {as : List (ToolAction τ)}
    (hs : (s.users.map UserRow.id).Nodup ∧ s.tool.Points s.users)
    (h : exec (toolStep site same) s as = some t) :
    (t.users.map UserRow.id).Nodup ∧ t.tool.Points t.users := by
  refine exec_invariant
    (I := fun s : ToolState τ => (s.users.map UserRow.id).Nodup ∧ s.tool.Points s.users) ?_ hs h
  rintro s a t ⟨hids, htool⟩ hstep
  rcases toolStep_cases hstep with ⟨b, u, rfl, hsite, rfl⟩ | ⟨argv, openSsl, fails, rfl, rfl⟩ |
    ⟨fails, args, hash, rfl, hbegun, rfl | rfl⟩ |
    ⟨stamp, message, fails, commit, args, hash, existingId, rfl, hfound, hsaves⟩
  · have hkept := users_accountStep (ids_keptByWrites _ (s.users.map UserRow.id))
      ⟨hids, List.Subset.refl _⟩ hsite
    refine ⟨hkept.1, ?_⟩
    show s.tool.Points u.db.users
    cases hphase : s.tool with
    | found args hash existingId =>
      rw [hphase] at htool
      exact fun hexisting => hkept.2 (htool hexisting)
    | idle => trivial
    | begun args hash => trivial
    | exited code => trivial
  · refine ⟨hids, ?_⟩
    show (begin argv openSsl fails).Points s.users
    unfold begin
    split
    · trivial
    · split <;> trivial
  · exact ⟨hids, trivial⟩
  · refine ⟨hids, fun hexisting => ?_⟩
    obtain ⟨row, hrow, hid, -⟩ := findUserIdByUsername_spec hexisting
    exact List.mem_map.mpr ⟨row, hrow, hid⟩
  · cases hsaves with
    | nothing => exact ⟨hids, trivial⟩
    | row code hsave => exact ⟨(ids_saveAdmin hsave hids).1, trivial⟩

/-- **An account that no start of the tool names stays what it is.** -/
theorem registered_of_run (hsame : Equivalence fun a b => same a b = true) {row : UserRow}
    {as : List (ToolAction τ)} (hids : (s.users.map UserRow.id).Nodup)
    (htool : s.tool.Spares same row) (hrow : Registered same row s.users)
    (has : ∀ a ∈ as, Collates same a ∧ OtherName same row.username.bytes a)
    (h : exec (toolStep site same) s as = some t) : Registered same row t.users := by
  refine (exec_invariant_of_mem (I := fun s : ToolState τ => (s.users.map UserRow.id).Nodup ∧
    s.tool.Spares same row ∧ Registered same row s.users) ?_ ⟨hids, htool, hrow⟩ has h).2.2
  rintro s a t ⟨hids, htool, hrow⟩ ⟨hcollates, hother⟩ hstep
  rcases toolStep_cases hstep with ⟨b, u, rfl, hsite, rfl⟩ | ⟨argv, openSsl, fails, rfl, rfl⟩ |
    ⟨fails, args, hash, rfl, hbegun, rfl | rfl⟩ |
    ⟨stamp, message, fails, commit, args, hash, existingId, rfl, hfound, hsaves⟩
  · have hcollation : b.moment.server.same = same := hcollates
    have hkept := users_accountStep ((ids_keptByWrites _ []).and
      (hcollation ▸ registered_keptByWrites same row)) ⟨⟨hids, List.nil_subset _⟩, hrow⟩ hsite
    exact ⟨hkept.1.1, htool, hkept.2⟩
  · refine ⟨hids, ?_, hrow⟩
    show (begin argv openSsl fails).Spares same row
    unfold begin
    split
    · trivial
    · rename_i args hargs
      split
      · exact hother args hargs
      · trivial
  · exact ⟨hids, trivial, hrow⟩
  · rw [hbegun] at htool
    refine ⟨hids, ⟨htool, fun hexisting heq => ?_⟩, hrow⟩
    obtain ⟨found, hfound, hid, hname⟩ := findUserIdByUsername_spec hexisting
    -- the row that was found would be the account, under its name
    obtain ⟨pre, row', post, husers, haccount, -⟩ := hrow
    have hrow' : row' ∈ s.users := husers ▸ by simp
    have heq' : found = row' :=
      List.inj_on_of_nodup_map hids hfound hrow' (hid.trans (heq.trans haccount.id.symm))
    rw [heq', haccount.username] at hname
    have hname' : same args.username row.username.bytes = true := hsame.symm hname
    rw [htool] at hname'
    cases hname'
  · rw [hfound] at htool
    cases hsaves with
    | nothing => exact ⟨hids, trivial, hrow⟩
    | row code hsave =>
      exact ⟨(ids_saveAdmin hsave hids).1, trivial,
        registered_saveAdmin hsave htool.1 htool.2 hrow⟩

/-- A tool that exits with 0 has saved the row. -/
theorem saves_of_exited {stamp : Stamp} {message : Bytes} {fails : Option Raised} {commit : Commit}
    (h : toolStep site same s (.save stamp message fails commit) = some t)
    (hexit : t.tool = .exited 0) :
    ∃ args hash existingId, s.tool = .found args hash existingId ∧
      saveAdmin same stamp message s.users existingId args.username hash = .ok t.users := by
  simp only [toolStep] at h
  split at h
  · rename_i args hash existingId htool
    refine ⟨args, hash, existingId, htool, ?_⟩
    split at h
    · rename_i users hsave
      cases commit with
      | acknowledged =>
        obtain rfl := Option.some.inj h
        exact hsave
      | refused =>
        obtain rfl := Option.some.inj h
        cases hexit
      | unacknowledged =>
        obtain rfl := Option.some.inj h
        cases hexit
    · obtain rfl := Option.some.inj h
      cases hexit
  · cases h

/-- Whom a token lets through to the admin routes, and how long. -/
theorem requireAdmin_of_handsOut (hpayloads : ∀ claims now,
      site.codec.ReadsBack (jwtPayload claims now 3600)) {m m' : Moment τ} {claims : AuthInfo}
    {token : Bytes} (hrole : claims.role = ascii "admin") (hwrites : m'.openSsl.WritesBase64)
    (hlib : m'.openSsl.ReadsBase64)
    (hssl : m'.openSsl = m.openSsl) (hnow : 0 ≤ m.now.seconds) {req : HttpRequest}
    (htoken : generateJwt (m.env site).codec (m.env site).openSsl (m.env site).jwtSecret claims 3600
      (m.env site).now = .ok token)
    (hheader : req.headers.find? (ascii "Authorization") = some (ascii "Bearer " ++ token))
    (w : World (Accounts τ)) :
    ((requireAdmin (m'.env site) req).run w).1 = .ok (some claims) ↔
      m'.now.seconds ≤ m.now.seconds + 3600 := by
  have hverify : verifyJwt (m'.env site).codec (m'.env site).openSsl (m'.env site).jwtSecret token
      (m'.env site).now = if m'.now.seconds ≤ m.now.seconds + 3600 then some claims else none :=
    verifyJwt_generateJwt hwrites hlib (hpayloads _ _)
      (by show m.now.seconds + 3600 ≠ 0; omega)
      (show generateJwt site.codec m'.openSsl site.jwtSecret claims 3600 m.now = .ok token from
        hssl ▸ htoken)
  constructor
  · intro h
    obtain ⟨token', hheader', hverify'⟩ :=
      authenticateRequest_eq_some_iff.mp (bearer_of_requireAdmin h).1
    obtain rfl : token = token' :=
      List.append_cancel_left (Option.some.inj (hheader.symm.trans hheader'))
    by_contra hlate
    rw [hverify, if_neg hlate] at hverify'
    cases hverify'
  · intro hfresh
    rw [if_pos hfresh] at hverify
    rw [requireAdmin_eq (authenticateRequest_eq_some_iff.mpr ⟨token, hheader, hverify⟩) hrole]
    rfl

/-- A login as an administrator whom the tool has made. -/
theorem handsOut_admin (hdump : site.codec.DumpsUtf8)
    (hsame : Equivalence fun a b => same a b = true) {row : UserRow} {username hash salt dk : Bytes}
    (hrow : IsAdmin username hash row) (hlength : hash.length = 76)
    (hverifies : ∀ lib' : OpenSsl, lib'.ReadsBase64 → ∀ password',
      verifyPassword lib' password' hash = .ok (lib'.pbkdf2 password' salt 100000 32 == some dk))
    (hregistered : Registered same row t.users) {m : Moment τ} (hm : m.server.same = same)
    (hworks : m.server.fails 0 = none) (hwrites : m.openSsl.WritesBase64)
    (hlib : m.openSsl.ReadsBase64)
    (hhmac : ∀ data, (m.openSsl.hmac site.jwtSecret data).isSome) {req : HttpRequest}
    {name password : Bytes} (hgiven : credentials (m.env site) req = .ok (name, password))
    (hnonempty : ¬ (name = [] ∨ password = [])) (hname : same username name = true)
    (captures : List Bytes) :
    HandsOut (m.env site) ⟨row.id, username, ascii "admin"⟩
        (t.site.after (loginHandler (m.env site) m.server.dao) req captures).response ↔
      username.length ≤ 128 ∧ m.openSsl.pbkdf2 password salt 100000 32 = some dk := by
  obtain ⟨row', haccount, hfind⟩ := hregistered.find hsame (hrow.username.symm ▸ hname)
  rw [← hm] at hfind
  have hrow' := isAdmin_of_sameAccount haccount hrow
  have hclaims : (⟨row'.id, row'.username.bytes, nullable Role.text row'.role⟩ : AuthInfo) =
      ⟨row.id, username, ascii "admin"⟩ := by
    rw [haccount.id, hrow'.username, hrow'.role]
    rfl
  have hverify : verifyPassword (m.env site).openSsl password row'.password.bytes =
      .ok (m.openSsl.pbkdf2 password salt 100000 32 == some dk) := by
    rw [hrow'.password]
    exact hverifies _ hlib password
  have hdump' : (m.env site).codec.DumpsUtf8 := hdump
  have hout : HandsOut (m.env site) ⟨row'.id, row'.username.bytes, nullable Role.text row'.role⟩
      ((loginHandler (m.env site) m.server.dao req captures).run t.site.world).2.response ↔
      row'.Fits ∧ (m.openSsl.pbkdf2 password salt 100000 32 == some dk) = true :=
    handsOut_iff hdump' hwrites hhmac hgiven hnonempty hworks hfind hverify rfl captures
  rw [hclaims, beq_iff_eq] at hout
  refine hout.trans (and_congr_left fun _ => ?_)
  constructor
  · exact fun hfits => hrow'.username ▸ hfits.username
  · intro husername
    refine ⟨hrow'.username.symm ▸ husername, ?_, ?_⟩
    · rw [hrow'.password, hlength]
      decide
    · rw [hrow'.email]
      decide

end

/-! ## 7. Bob is made an administrator

One run to which both results apply. -/

theorem length_freshTime : (ascii "2024-01-01 00:00:00").length = 19 := by decide

/-- When everything happens. -/
def freshTime : DateTime := ⟨ascii "2024-01-01 00:00:00", length_freshTime⟩

/-- A fresh database. -/
def freshState : ToolState Unit where
  site := ⟨⟨[seedAdmin ⟨1, freshTime⟩], ()⟩, fun _ => none⟩
  tool := .idle

/-- The tool is started for Bob. -/
def bobRun : List (ToolAction Unit) :=
  [.start [ascii "--username", ascii "bob", ascii "--password", ascii "secret-pass"] registerOpenSsl
    none, .find none]

/-- What it is given. -/
def bobArguments : Arguments := { Arguments.defaults with
  username := ascii "bob", password := ascii "secret-pass" }

/-- It saves, and its `COMMIT` comes through. -/
def bobSave : ToolAction Unit :=
  .save ⟨2, freshTime⟩ (ascii "Duplicate entry") none .acknowledged

/-- The tool has found nobody of that name. -/
theorem exec_bobRun : exec (toolStep accountSite fun a b => a == b) freshState bobRun =
    some ⟨freshState.site, .found bobArguments bob.password.bytes (-1)⟩ := by
  have hhash : generatePasswordHash registerOpenSsl bobArguments.password =
      .ok bob.password.bytes := by decide +kernel
  have hargs : readArguments .defaults [ascii "--username", ascii "bob", ascii "--password",
      ascii "secret-pass"] = some bobArguments := rfl
  have hbegin : begin [ascii "--username", ascii "bob", ascii "--password", ascii "secret-pass"]
      registerOpenSsl none = .begun bobArguments bob.password.bytes := by
    rw [begin, hargs]
    dsimp only
    rw [hhash]
  refine (exec_cons_eq_some _).mpr
    ⟨⟨freshState.site, .begun bobArguments bob.password.bytes⟩, ?_, rfl⟩
  show some _ = some _
  rw [hbegin]

theorem toolStep_bobSave : ∃ v, toolStep accountSite (fun a b => a == b)
    ⟨freshState.site, .found bobArguments bob.password.bytes (-1)⟩ bobSave = some v ∧
      v.tool = .exited 0 := by
  have hsaved : (saveAdmin (fun a b => a == b) ⟨2, freshTime⟩
      (ascii "Duplicate entry") freshState.users (-1) bobArguments.username
      bob.password.bytes).toOption.isSome = true := by decide +kernel
  simp only [toolStep, bobSave]
  split
  · exact ⟨_, rfl, rfl⟩
  · rename_i hnot
    cases hsave : saveAdmin (fun a b => a == b) ⟨2, freshTime⟩
        (ascii "Duplicate entry") freshState.users (-1) bobArguments.username
        bob.password.bytes with
    | error e =>
      rw [hsave] at hsaved
      cases hsaved
    | ok users => exact absurd hsave (hnot users rfl)

theorem equivalence_beq : Equivalence fun a b : Bytes => (a == b) = true where
  refl a := beq_self_eq_true a
  symm h := beq_iff_eq.mpr (eq_of_beq h).symm
  trans h h' := beq_iff_eq.mpr ((eq_of_beq h).trans (eq_of_beq h'))

/-- A login as Bob hands out a token afterwards. -/
theorem handsOut_bob {v : ToolState Unit} (hsave : toolStep accountSite (fun a b => a == b)
      ⟨freshState.site, .found bobArguments bob.password.bytes (-1)⟩ bobSave = some v)
    (hexit : v.tool = .exited 0) : ∃ id, HandsOut (registerMoment.env accountSite)
      ⟨id, ascii "bob", ascii "admin"⟩ (v.site.after
        (loginHandler (registerMoment.env accountSite) registerMoment.server.dao)
        (loginRequest "secret-pass") []).response := by
  obtain ⟨args, hash, existingId, hfound, hsaved⟩ := saves_of_exited hsave hexit
  obtain ⟨rfl, rfl, rfl⟩ := Phase.found.inj hfound
  have hhash : generatePasswordHash registerOpenSsl (ascii "secret-pass") =
      .ok bob.password.bytes := by decide +kernel
  obtain ⟨hlength, salt, dk, -, hdk, hverifies⟩ :=
    generatePasswordHash_spec registerOpenSsl_sized hhash
  obtain ⟨row, hrow, hregistered⟩ := registered_of_saveAdmin hsaved (List.nodup_singleton _)
    fun h => absurd h (by decide)
  exact ⟨row.id, (handsOut_admin (Json.standard_dumpsUtf8 _) equivalence_beq hrow hlength hverifies
    hregistered (m := registerMoment) rfl rfl sampleOpenSsl_writesBase64 sampleOpenSsl_readsBase64
    (fun _ => rfl)
    (credentials_accountSite registerMoment) (by decide) rfl []).mpr ⟨by decide, hdk⟩⟩

/-! ## 8. The tool and the site

The two results are the two directions of one statement: an administrator is somebody for whom the
tool was called, and somebody for whom it was called is an administrator. -/

section

variable {τ : Type} {site : Env} {same : Bytes → Bytes → Bool} {s : ToolState τ}

/-- **Without the tool there is no administrator.**  Take a database fresh from `init_db.sql` and
any run of the site and the tool.  If a token that this run has handed out opens an admin route, to
any request and at any time, then it stands in the answer to a login of this run; the tool was
started before that login with the name that the token is for; and the password of the login
verifies against the hash that the tool made of its own.

The rows of administrators are followed back: `adminsGiven_of_run` says that each of them is the one
of the script or has the name and the hash of a start, and against the hash of the script nothing
verifies. -/
theorem admin_token_needs_tool (hdocs : ∀ id token, site.codec.ReadsBack (tokenDoc id token))
    (hpayloads : ∀ claims now, site.codec.ReadsBack (jwtPayload claims now 3600))
    (stamp : Stamp) (hs : s.users = [seedAdmin stamp] ∧ s.tool = .idle) (as : List (ToolAction τ))
    (hwrites : ∀ a, .site a ∈ as → a.moment.openSsl.WritesBase64) (token : Bytes)
    (htoken : HandedOut site same s as token) (m : Moment τ)
    (hlib : m.openSsl.ReadsBase64) (req : HttpRequest)
    (hheader : req.headers.find? (ascii "Authorization") = some (ascii "Bearer " ++ token))
    (w : World (Accounts τ)) (admin : AuthInfo)
    (hadmin : ((requireAdmin (m.env site) req).run w).1 = .ok (some admin)) :
    ∃ bs m' req' captures cs u rsp args hash username password,
      as = bs ++ .site (.login m' req' captures) :: cs ∧
      exec (toolStep site same) s bs = some u ∧
      u.site.response site (.login m' req' captures) = some rsp ∧
      CarriesToken site.codec token rsp ∧ Given bs args hash ∧ admin.username = args.username ∧
      credentials (m'.env site) req' = .ok (username, password) ∧
      verifyPassword m'.openSsl password hash = .ok true := by
  obtain ⟨bs, b, cs, u, rsp, rfl, hrun, hrsp, hcarries⟩ := htoken
  obtain ⟨hinfo, hrole⟩ := bearer_of_requireAdmin hadmin
  obtain ⟨token', hheader', hverify⟩ := authenticateRequest_eq_some_iff.mp hinfo
  obtain rfl : token = token' :=
    List.append_cancel_left (Option.some.inj (hheader.symm.trans hheader'))
  obtain ⟨claims, hout, hclaims⟩ := handsOut_of_response hrsp hcarries
  have hgenerate : generateJwt (b.moment.env site).codec (b.moment.env site).openSsl
      (b.moment.env site).jwtSecret claims 3600 (b.moment.env site).now = .ok token :=
    token_of_handsOut hdocs hout hcarries
  have hissuer : b.moment.openSsl.WritesBase64 := hwrites b (by simp)
  obtain rfl : admin = claims :=
    claims_of_verifyJwt hissuer hlib (hpayloads _ _) hgenerate hverify
  have hfresh : AdminsGiven (Given bs) [seedAdmin stamp] s.users ∧ s.tool.Of (Given bs) := by
    rw [hs.1, hs.2]
    exact ⟨fun row hrow _ => .inl ⟨row, hrow, .refl row⟩, trivial⟩
  rcases hclaims with hstudent | ⟨m', req', captures, rfl, row, hrow, hverifies, rfl⟩
  · exact absurd (hstudent.symm.trans hrole) (by decide)
  · rcases (adminsGiven_of_run hfresh hrun).1 row hrow (role_of_nullable hrole) with
      ⟨row₀, hrow₀, hsame⟩ | ⟨args, hash, hgiven, hrow'⟩
    · obtain rfl := List.mem_singleton.mp hrow₀
      exact absurd hverifies (not_verifies_seedAdmin hsame)
    · obtain ⟨username, password, hcredentials, hverified⟩ := hverifies
      rw [hrow'.password] at hverified
      exact ⟨bs, m', req', captures, cs, u, rsp, args, hash, username, password, rfl, hrun, hrsp,
        hcarries, hgiven, hrow'.username, hcredentials, hverified⟩

end

/-- Bob logs in, and opens an admin route with his token: the tool was given his name. -/
theorem admin_token_needs_tool_bob : ∃ (bs : List (ToolAction Unit)) (m : Moment Unit)
    (req : HttpRequest) (captures : List Bytes) (u : ToolState Unit) (rsp : HttpResponse)
    (token : Bytes) (args : Arguments) (hash password : Bytes),
      exec (toolStep accountSite fun a b => a == b) freshState bs = some u ∧
      u.site.response accountSite (.login m req captures) = some rsp ∧
      CarriesToken accountSite.codec token rsp ∧ Given bs args hash ∧
      ascii "bob" = args.username ∧ verifyPassword m.openSsl password hash = .ok true := by
  obtain ⟨v, hsave, hexit⟩ := toolStep_bobSave
  obtain ⟨id, hout⟩ := handsOut_bob hsave hexit
  obtain ⟨token, text, htoken, htext, hrsp⟩ := hout
  have hrun : exec (toolStep accountSite fun a b => a == b) freshState (bobRun ++ [bobSave]) =
      some v := by
    rw [exec_append, exec_bobRun]
    exact (exec_cons_eq_some _).mpr ⟨v, hsave, rfl⟩
  have hhanded : HandedOut accountSite (fun a b => a == b) freshState
      ((bobRun ++ [bobSave]) ++ [.site (bobLogin registerMoment)]) token :=
    ⟨bobRun ++ [bobSave], bobLogin registerMoment, [], v, _, rfl, hrun, rfl, id, text, htext, hrsp⟩
  have hadmin : ((requireAdmin (registerMoment.env accountSite)
      (bearerRequest token [])).run banState.world).1 =
        .ok (some ⟨id, ascii "bob", ascii "admin"⟩) :=
    (requireAdmin_of_handsOut (m := registerMoment) readsBack_jwtPayload rfl
      sampleOpenSsl_writesBase64 sampleOpenSsl_readsBase64 rfl (by decide) htoken rfl _).mpr
      (by decide)
  have hwrites : ∀ a, .site a ∈ (bobRun ++ [bobSave]) ++ [.site (bobLogin registerMoment)] →
      a.moment.openSsl.WritesBase64 := by
    intro a ha
    simp only [bobRun, bobSave, List.cons_append, List.nil_append, List.mem_cons,
      ToolAction.site.injEq, reduceCtorEq, List.not_mem_nil, or_false, false_or] at ha
    exact ha ▸ sampleOpenSsl_writesBase64
  obtain ⟨bs, m, req, captures, _, u, rsp, args, hash, _, password, -, hrun', hrsp', hcarries,
      hgiven, hname, -, hverified⟩ :=
    admin_token_needs_tool readsBack_tokenDoc readsBack_jwtPayload _ ⟨rfl, rfl⟩ _ hwrites token
      hhanded
      registerMoment sampleOpenSsl_readsBase64 (bearerRequest token []) rfl _ _ hadmin
  exact ⟨bs, m, req, captures, u, rsp, token, args, hash, password, hrun', hrsp', hcarries, hgiven,
    hname, hverified⟩

section

variable {τ : Type} {site : Env} {same : Bytes → Bytes → Bool}

/-- **Whoever has the tool's password is let through.**  Take a run in which the tool saves and
exits with 0, from any table.  It was started with a name and a password; and whatever happens
afterwards, if the tool is not started for that name again: a login under the name, however it is
spelled, hands out a token for an administrator exactly if the name fits the buffer of the read and
PBKDF2 gives for its password what it has given for the tool's.  That token opens the admin routes
for an hour, to the second.

The login is one whose name and password are not empty, that the database answers (`m.server.fails 0
= none`), and at which HMAC works; whether any of this fails is not up to the account. -/
theorem tool_admin_logs_in (hdump : site.codec.DumpsUtf8)
    (hdocs : ∀ id token, site.codec.ReadsBack (tokenDoc id token))
    (hpayloads : ∀ claims now, site.codec.ReadsBack (jwtPayload claims now 3600))
    (hsame : Equivalence fun a b => same a b = true) (s u v : ToolState τ)
    (hs : (s.users.map UserRow.id).Nodup ∧ s.tool.Stopped) (as : List (ToolAction τ))
    (hsized : ∀ argv openSsl fails, .start argv openSsl fails ∈ as → openSsl.Sized)
    (hrun : exec (toolStep site same) s as = some u) (stamp : Stamp) (message : Bytes)
    (fails : Option Raised) (commit : Commit)
    (hsave : toolStep site same u (.save stamp message fails commit) = some v)
    (hexit : v.tool = .exited 0) :
    ∃ argv openSsl args id salt dk, .start argv openSsl none ∈ as ∧
      readArguments .defaults argv = some args ∧ openSsl.randBytes 16 = some salt ∧
      openSsl.pbkdf2 args.password salt 100000 32 = some dk ∧
      ∀ (bs : List (ToolAction τ)) (t : ToolState τ),
        (∀ a ∈ bs, Collates same a ∧ OtherName same args.username a) →
        exec (toolStep site same) v bs = some t →
        ∀ (m : Moment τ) (req : HttpRequest) (captures : List Bytes) (name password : Bytes),
          m.server.same = same → m.server.fails 0 = none → m.openSsl.WritesBase64 →
          m.openSsl.ReadsBase64 →
          (∀ data, (m.openSsl.hmac site.jwtSecret data).isSome) → 0 ≤ m.now.seconds →
          credentials (m.env site) req = .ok (name, password) → name ≠ [] → password ≠ [] →
          same args.username name = true →
          let rsp := (t.site.after (loginHandler (m.env site) m.server.dao) req captures).response
          let claims : AuthInfo := ⟨id, args.username, ascii "admin"⟩
          (HandsOut (m.env site) claims rsp ↔ args.username.length ≤ 128 ∧
            m.openSsl.pbkdf2 password salt 100000 32 = some dk) ∧
          ∀ token, HandsOut (m.env site) claims rsp → CarriesToken site.codec token rsp →
            ∀ (m' : Moment τ) (req' : HttpRequest) (w : World (Accounts τ)),
              m'.openSsl = m.openSsl →
              req'.headers.find? (ascii "Authorization") = some (ascii "Bearer " ++ token) →
              (((requireAdmin (m'.env site) req').run w).1 = .ok (some claims) ↔
                m'.now.seconds ≤ m.now.seconds + 3600) := by
  obtain ⟨args, hash, existingId, hfound, hsaved⟩ := saves_of_exited hsave hexit
  have hstopped : ∀ {p : Phase → Prop}, p .idle → (∀ code, p (.exited code)) → p s.tool := by
    intro p hidle hexited
    have htool := hs.2
    cases hphase : s.tool with
    | idle => exact hidle
    | exited code => exact hexited code
    | begun args hash => exact absurd htool (by rw [hphase]; exact id)
    | found args hash existingId => exact absurd htool (by rw [hphase]; exact id)
  have hids := ids_of_run (s := s) ⟨hs.1, hstopped (p := fun tool => tool.Points s.users) trivial
    fun _ => trivial⟩ hrun
  have hgiven : AdminsGiven (Given as) s.users u.users ∧ u.tool.Of (Given as) :=
    adminsGiven_of_run ⟨fun row hrow _ => .inl ⟨row, hrow, .refl row⟩,
      hstopped (p := fun tool => tool.Of (Given as)) trivial fun _ => trivial⟩ hrun
  have hpoints := hids.2
  rw [hfound] at hgiven hpoints
  obtain ⟨argv, openSsl, hstart, hargs, hhash⟩ := hgiven.2
  obtain ⟨hlength, salt, dk, hsalt, hdk, hverifies⟩ :=
    generatePasswordHash_spec (hsized _ _ _ hstart) hhash
  obtain ⟨row, hrow, hregistered⟩ := registered_of_saveAdmin hsaved hids.1 hpoints
  refine ⟨argv, openSsl, args, row.id, salt, dk, hstart, hargs, hsalt, hdk, ?_⟩
  intro bs t hbs hrun' m req captures name password hm hworks hwrites hlib hhmac hnow hcredentials
    hname hpassword hspelled
  have hregistered' : Registered same row t.users :=
    registered_of_run hsame (ids_saveAdmin hsaved hids.1).1 (by rw [hexit]; trivial) hregistered
      (hrow.username.symm ▸ hbs) hrun'
  refine ⟨handsOut_admin hdump hsame hrow hlength hverifies hregistered' hm hworks hwrites hlib
    hhmac hcredentials (not_or.mpr ⟨hname, hpassword⟩) hspelled captures, ?_⟩
  intro token hout hcarries m' req' w hssl hheader
  have htoken : generateJwt (m.env site).codec (m.env site).openSsl (m.env site).jwtSecret
      ⟨row.id, args.username, ascii "admin"⟩ 3600 (m.env site).now = .ok token :=
    token_of_handsOut hdocs hout hcarries
  exact requireAdmin_of_handsOut hpayloads rfl (hssl.symm ▸ hwrites) (hssl.symm ▸ hlib) hssl hnow
    htoken hheader w

end

/-- Bob gets a token, and it opens the admin routes for an hour. -/
theorem tool_admin_logs_in_bob : ∃ v id, toolStep accountSite (fun a b => a == b)
    ⟨freshState.site, .found bobArguments bob.password.bytes (-1)⟩ bobSave = some v ∧
      HandsOut (registerMoment.env accountSite) ⟨id, ascii "bob", ascii "admin"⟩ (v.site.after
        (loginHandler (registerMoment.env accountSite) registerMoment.server.dao)
        (loginRequest "secret-pass") []).response := by
  obtain ⟨v, hsave, hexit⟩ := toolStep_bobSave
  obtain ⟨argv, openSsl, args, id, salt, dk, hstart, hargs, hsalt, hdk, hlater⟩ :=
    tool_admin_logs_in (Json.standard_dumpsUtf8 _) readsBack_tokenDoc readsBack_jwtPayload
      equivalence_beq freshState _ v ⟨List.nodup_singleton _, trivial⟩ bobRun
      (by
        intro argv openSsl fails hmem
        simp only [bobRun, List.mem_cons, ToolAction.start.injEq, List.not_mem_nil, or_false,
          reduceCtorEq] at hmem
        exact hmem.2.1 ▸ registerOpenSsl_sized)
      exec_bobRun _ _ _ _ hsave hexit
  simp only [bobRun, List.mem_cons, ToolAction.start.injEq, List.not_mem_nil, or_false,
    reduceCtorEq] at hstart
  obtain ⟨rfl, rfl, -⟩ := hstart
  obtain rfl : bobArguments = args := Option.some.inj hargs
  refine ⟨v, id, hsave, ?_⟩
  exact (hlater [] v (by simp) rfl registerMoment (loginRequest "secret-pass") [] (ascii "bob")
    (ascii "secret-pass") rfl rfl sampleOpenSsl_writesBase64 sampleOpenSsl_readsBase64
    (fun _ => rfl) (by decide)
    (credentials_accountSite registerMoment) (by decide) (by decide) rfl).1.mpr ⟨by decide, hdk⟩

end OnlineJudge.Tools
