/-
# Who may do what

The handlers of all routes of the site, put together as `RegisterAuthRoutes`,
`RegisterProblemRoutes`, `RegisterSubmissionRoutes`, `RegisterAdminRoutes` and the constructor of
`HttpServer` do it.  The rules about who may do what are spread over them: some handlers begin with
`RequireAdmin`, some have the role in a literal, and most ask nobody.

The policy that they add up to, operation by operation:

* `Allowed`: what the handlers call through the DAO layer that all of them share.  Anybody may look
  up a name, a problem, a submission, the enabled languages and the sample test cases, and may
  insert an active student.  The rest needs the token of an administrator, and not even an
  administrator inserts another account.
* `Keeping`: beside these, what a submission and the two lists do, for which nobody is asked either.
  The handler of `POST /api/submissions` reads the problem, the language whether it is enabled or
  not, and all test cases of the problem, not only the samples: it needs them for the payload of the
  judge.  It inserts a pending submission, and gives it up if the queue does not take it.

`site_policy` says that the handlers keep to it: whatever requests come in, in any order, a property
of the database that these operations keep is kept.  So without the token of an administrator no
problem, no test case and no language changes, and no account but a student's comes into being.

The policy is about what is called, not about what is shown.  What the answers can give away is the
subject of `PublicHandler.lean`.
-/
import OnlineJudge.Handler.Accounts
import OnlineJudge.Handler.PublicHandler
import OnlineJudge.Handler.SubmitCalls
import OnlineJudge.Server.RegisterWorker
import OnlineJudge.Server.Site

namespace OnlineJudge.Server

open ByteString Db Net Handler RunPattern

/-! ## 1. The handlers of the site

Every route has its handler, on one state and with one set of operations.  A request for a path
without a route does nothing here. -/

/-- The database, and the workers that the judge knows. -/
structure SiteState (σ : Type) where
  db : σ
  workers : Workers

/-- What the handlers call: the operations of the DAO layer, those of a submission, and the archive
library. -/
structure SiteOps (σ : Type) where
  reads : PublicOps (SiteState σ)
  submit : SubmitOps (SiteState σ)
  zip : Zip

/-- A handler that works on the workers. -/
def onWorkers {σ : Type} (handler : RouteHandler Workers) : RouteHandler (SiteState σ) :=
  fun req captures w =>
    let (result, w') := (handler req captures).run ⟨w.response, w.calls, w.db.workers⟩
    (result, ⟨w'.response, w'.calls, { w.db with workers := w'.db }⟩)

section

variable {σ : Type} (env : Env) (ops : SiteOps σ)

/-- The handler of `/healthz`. -/
def healthz : RouteHandler (SiteState σ) := fun _ _ =>
  modify fun w =>
    { w with response := w.response.setContent (ascii "ok") (ascii "text/plain; charset=utf-8") }

def logoutHandler : RouteHandler (SiteState σ) := fun _ _ =>
  setJson (ascii "\x7b\"ok\":true\x7d")

/-- Which handler a route has. -/
def siteHandler : Endpoint → RouteHandler (SiteState σ)
  | .healthz => healthz
  | .register => registerHandler env ops.reads.dao
  | .login => loginHandler env ops.reads.dao
  | .logout => logoutHandler
  | .problems => Public.getProblems env ops.reads
  | .problem => Public.getProblem env ops.reads
  | .languages => Public.getLanguages env ops.reads
  | .postSubmissions => postSubmissionsOver env ops.submit
  | .submission => getSubmission env ops.reads.dao
  | .submissions => Public.getSubmissions env ops.reads
  | .registerWorker => onWorkers (postRegister env)
  | .adminPostProblem => postProblems env ops.reads.dao
  | .adminGetProblem => getProblem env ops.reads.dao
  | .adminPutProblem => putProblem env ops.reads.dao
  | .adminDeleteProblem => deleteProblem env ops.reads.dao
  | .adminPostTestCases => postTestCases env ops.reads.dao
  | .adminUploadTestCases => postUpload env ops.reads.dao ops.zip
  | .adminLanguages => getLanguages env ops.reads.dao
  | .adminPostLanguage => postLanguages env ops.reads.dao
  | .adminPutLanguage => putLanguage env ops.reads.dao
  | .adminSubmissions => getSubmissions env ops.reads.dao
  | .adminPutUserStatus => putUserStatus env ops.reads.dao

/-- The route of a request, with its captures. -/
def endpointOf (req : HttpRequest) : Option (Endpoint × List Bytes) := do
  let m ← methodOf req.method
  lookup isDigit (patternsOf m siteRoutes) req.path

/-- What a request does: the handler of its route, if it has one. -/
def serve (req : HttpRequest) : Program (World (SiteState σ)) Unit :=
  match endpointOf req with
  | none => pure ()
  | some (e, captures) => siteHandler env ops e req (req.path :: captures)

end

/-- It is the one that `Route` finds. -/
theorem endpointOf_eq_some_iff {req : HttpRequest} {e : Endpoint} {captures : List Bytes} :
    endpointOf req = some (e, captures) ↔ e.Serves req.method req.path captures := by
  rw [endpointOf]
  constructor
  · intro h
    obtain ⟨m, hm, hlookup⟩ := Option.bind_eq_some_iff.mp h
    obtain ⟨pat, hpat, hmatches⟩ := (lookup_eq_some_iff (unambiguous_siteRoutes m)).mp hlookup
    exact ⟨m, pat, hm, hpat, hmatches⟩
  · rintro ⟨m, pat, hm, hpat, hmatches⟩
    refine Option.bind_eq_some_iff.mpr ⟨m, hm, ?_⟩
    exact (lookup_eq_some_iff (unambiguous_siteRoutes m)).mpr ⟨pat, hpat, hmatches⟩

/-! ## 2. The policy

A policy is a property of the database that some operations keep.  It is left open which one: what
the handlers are shown to do is to call no others. -/

/-- What may be called for a request through the DAO layer of the handlers: the lookup of a name, of
a problem, of a submission, of the enabled languages and of the sample test cases, and the insert of
a student; for an administrator everything but the insert of another account.  What a submission
reads goes through operations of its own, which `Keeping` lists. -/
def Allowed (admin : Prop) {α : Type} : DaoOp α → Prop
  | .userGetByUsername _ | .problemGetById _ | .languageListAll true | .submissionGetById _
  | .testCaseListByProblem _ true => True
  | .userCreateUser _ _ _ role status => role = ascii "student" ∧ status = ascii "active"
  | _ => admin

/-- An administrator may do everything but insert an account. -/
theorem allowed_of_admin {admin : Prop} (hadmin : admin) {α : Type} (op : DaoOp α)
    (hop : op.writesUsers = false) : Allowed admin op := by
  cases op with
  | userCreateUser => cases hop
  | userGetByUsername => trivial
  | problemGetById => trivial
  | submissionGetById => trivial
  | testCaseListByProblem id onlySample => cases onlySample <;> trivial
  | languageListAll onlyEnabled => cases onlyEnabled <;> trivial
  | _ => exact hadmin

/-- A server on which what the policy lets a request do keeps `P`.

`call` is the only field in which the token counts.  The others are done for anybody: the two lists,
and for a submission the reads of any problem, of any language and of all test cases of a problem
(with `onlySample` and without), the insert of a pending row, the job, and giving the row up. -/
structure Keeping {σ : Type} (ops : SiteOps σ) (admin : Prop) (P : σ → Prop) : Prop where
  call : ∀ {α : Type} (op : DaoOp α), Allowed admin op → Kept ops.reads.dao (fun s => P s.db) op
  listProblems : ∀ limit offset status,
    Program.Keeps (fun w => P w.db.db) (ops.reads.listProblems limit offset status)
  listByUser : ∀ userId limit offset,
    Program.Keeps (fun w => P w.db.db) (ops.reads.listByUser userId limit offset)
  problem : ∀ id, Program.Keeps (fun w => P w.db.db) (ops.submit.problem id)
  language : ∀ id, Program.Keeps (fun w => P w.db.db) (ops.submit.language id)
  testCases : ∀ id onlySample,
    Program.Keeps (fun w => P w.db.db) (ops.submit.testCases id onlySample)
  create : ∀ s, s.status = ascii "pending" →
    Program.Keeps (fun w => P w.db.db) (ops.submit.create s)
  submit : ∀ id payload, Program.Keeps (fun w => P w.db.db) (ops.submit.submit id payload)
  giveUp : ∀ id text, Program.Keeps (fun w => P w.db.db)
    (ops.submit.updateResult id (ascii "system_error") text 0 0)

open Program

section

variable {σ : Type} (env : Env) {ops : SiteOps σ} {admin : Prop} {P : σ → Prop}

theorem keeps_send (status : Int) (body : Json) :
    Keeps (fun w : World (SiteState σ) => P w.db.db) (sendJson env status body) :=
  keeps_sendJson (P := fun s : SiteState σ => P s.db) env status body

theorem keeps_answer (status : Int) (text : String) :
    Keeps (fun w : World (SiteState σ) => P w.db.db) (answer status text) := fun _ hw => hw

theorem keeps_setJson (text : Bytes) :
    Keeps (fun w : World (SiteState σ) => P w.db.db) (setJson text) := fun _ hw => hw

theorem keeps_guardAuth {fn : Program (World (SiteState σ)) Unit}
    (h : Keeps (fun w => P w.db.db) fn) : Keeps (fun w => P w.db.db) (guardAuth fn) :=
  Keeps.tryCatch h fun _ => keeps_answer _ _

theorem keeps_guardJson {fn : Program (World (SiteState σ)) Unit}
    (h : Keeps (fun w => P w.db.db) fn) :
    Keeps (fun w => P w.db.db) (guardJsonHandler env fn) :=
  Keeps.tryCatch h fun _ => keeps_send env _ _

theorem keeps_sendToken (claims : Auth.AuthInfo) :
    Keeps (fun w : World (SiteState σ) => P w.db.db) (sendToken env claims) :=
  Keeps.bind (keeps_ofExcept _) fun _ => Keeps.bind (keeps_ofExcept _) fun _ =>
    keeps_setJson _

theorem keeps_registerHandler (h : Keeping ops admin P) (req : HttpRequest)
    (captures : List Bytes) :
    Keeps (fun w => P w.db.db) (registerHandler env ops.reads.dao req captures) := by
  refine keeps_guardAuth (Keeps.bind (keeps_ofExcept _) fun given =>
    Keeps.bind (keeps_ofExcept _) fun email => ?_)
  split
  · exact keeps_answer _ _
  · refine Keeps.bind (keeps_call (h.call (.userGetByUsername given.1) trivial)) fun found => ?_
    cases found with
    | some u => exact keeps_answer _ _
    | none =>
      refine Keeps.bind (keeps_ofExcept _) fun hash => ?_
      exact Keeps.bind (keeps_call (h.call (.userCreateUser given.1 hash email (ascii "student")
        (ascii "active")) ⟨rfl, rfl⟩)) fun id => keeps_sendToken env _

theorem keeps_loginHandler (h : Keeping ops admin P) (req : HttpRequest)
    (captures : List Bytes) :
    Keeps (fun w => P w.db.db) (loginHandler env ops.reads.dao req captures) := by
  refine keeps_guardAuth (Keeps.bind (keeps_ofExcept _) fun given => ?_)
  split
  · exact keeps_answer _ _
  · refine Keeps.bind (keeps_call (h.call (.userGetByUsername given.1) trivial)) fun found => ?_
    cases found with
    | none => exact keeps_answer _ _
    | some u =>
      refine Keeps.bind (keeps_ofExcept _) fun verified => ?_
      split
      · exact keeps_answer _ _
      · exact keeps_sendToken env _

/-- A submission is stored, and perhaps given up. -/
theorem keeps_postSubmissionsOver (h : Keeping ops admin P) (req : HttpRequest)
    (captures : List Bytes) :
    Keeps (fun w => P w.db.db) (postSubmissionsOver env ops.submit req captures) := by
  have hsend : ∀ status body, Keeps (fun w : World (SiteState σ) => P w.db.db)
      (sendJson env status body) := keeps_send env
  have herror : ∀ status error message, Keeps (fun w : World (SiteState σ) => P w.db.db)
      (sendJsonError env status error message) := fun status error message => hsend status _
  have hstore : ∀ d problem language testCases scope, Keeps (fun w => P w.db.db)
      (storeDraftOver env ops.submit d problem language testCases scope) := by
    intro d problem language testCases scope
    refine Keeps.bind (keeps_ofExcept _) fun resultJson => Keeps.bind (h.create _ rfl) fun id =>
      Keeps.bind (h.submit _ _) fun taken => ?_
    split
    · exact Keeps.bind (keeps_ofExcept _) fun text =>
        Keeps.bind (h.giveUp _ _) fun _ => herror _ _ _
    · exact hsend _ _
  have hcases : ∀ d, Keeps (fun w => P w.db.db) (ops.submit.casesOf d) := by
    intro d
    refine Keeps.bind (h.testCases _ _) fun testCases => ?_
    split
    · exact Keeps.bind (h.testCases _ _) fun all => keeps_pure _
    · exact keeps_pure _
  have hwith : ∀ d problem language, Keeps (fun w => P w.db.db)
      (submitWithOver env ops.submit d problem language) := by
    intro d problem language
    unfold submitWithOver
    split
    · exact herror _ _ _
    · refine Keeps.bind (hcases d) fun cases => ?_
      dsimp only
      split
      · exact herror _ _ _
      · exact hstore _ _ _ _ _
  have hdraft : ∀ d, Keeps (fun w => P w.db.db) (submitDraftOver env ops.submit d) := by
    intro d
    refine Keeps.bind (h.problem _) fun found => ?_
    cases found with
    | none => exact herror _ _ _
    | some problem =>
      refine Keeps.bind (h.language _) fun found => ?_
      cases found with
      | none => exact herror _ _ _
      | some language => exact hwith _ _ _
  refine keeps_guardJson env (Keeps.bind ?_ fun body => ?_)
  · unfold parseJsonBody
    split
    · exact Keeps.bind (herror _ _ _) fun _ => keeps_pure none
    · exact keeps_pure _
  · cases body with
    | none => exact keeps_pure ()
    | some body =>
      refine Keeps.bind (keeps_ofExcept _) fun sourceCode => Keeps.bind (keeps_ofExcept _)
        fun mode => ?_
      split
      · split
        · exact herror _ _ _
        · split
          · exact herror _ _ _
          · exact hdraft _
      · exact herror _ _ _

/-- The routes that only read call nothing but what anybody may. -/
theorem keeps_publicRoutes (h : Keeping ops admin P) {handler : RouteHandler (SiteState σ)}
    (hhandler : handler ∈ Public.routes env ops.reads) (req : HttpRequest) (captures : List Bytes) :
    Keeps (fun w => P w.db.db) (handler req captures) := by
  have hsend : ∀ status body, Keeps (fun w : World (SiteState σ) => P w.db.db)
      (sendJson env status body) := keeps_send env
  simp only [Public.routes, List.mem_cons, List.not_mem_nil, or_false] at hhandler
  rcases hhandler with rfl | rfl | rfl | rfl | rfl
  · exact keeps_guardJson env (Keeps.bind (h.listProblems _ _ _) fun items => hsend _ _)
  · refine keeps_guardJson env ?_
    cases capturedId captures with
    | none => exact hsend _ _
    | some id =>
      refine Keeps.bind (keeps_call (h.call (.problemGetById id) trivial)) fun found => ?_
      cases found with
      | none => exact hsend _ _
      | some problem =>
        exact Keeps.bind (keeps_call (h.call (.testCaseListByProblem id true) trivial))
          fun samples => hsend _ _
  · exact keeps_guardJson env (Keeps.bind (keeps_call (h.call (.languageListAll true) trivial))
      fun languages => hsend _ _)
  · refine keeps_guardJson env ?_
    cases capturedId captures with
    | none => exact hsend _ _
    | some id =>
      refine Keeps.bind (keeps_call (h.call (.submissionGetById id) trivial)) fun found => ?_
      cases found with
      | none => exact hsend _ _
      | some s => exact hsend _ _
  · refine keeps_guardJson env ?_
    split
    · exact hsend _ _
    · split
      · exact hsend _ _
      · split
        · exact hsend _ _
        · exact Keeps.bind (h.listByUser _ _ _) fun items => hsend _ _

theorem keeps_adminRoute (hdump : env.codec.DumpsUtf8) {req : HttpRequest}
    (h : Keeping ops (BearsAdmin env req) P) {route : AdminRoute (SiteState σ)}
    (hroute : route ∈ adminRoutes env ops.reads.dao ops.zip) (captures : List Bytes) :
    Keeps (fun w => P w.db.db) (route.handler req captures) := by
  by_cases hadmin : BearsAdmin env req
  · obtain ⟨i, hi⟩ := List.mem_iff_getElem?.mp hroute
    by_cases hstatus : i = statusRoute
    · subst hstatus
      obtain rfl := Option.some.inj hi
      exact keeps_putUserStatus (fun id status => h.call (.userUpdateStatus id status) hadmin) req
        captures
    · exact keeps_adminRoutes env (fun op hop => h.call op (allowed_of_admin hadmin op hop)) hi
        hstatus req captures
  · intro w hw
    obtain ⟨status, text, -, hrun⟩ := run_requireAdmin_of_not hdump hadmin
    have hrefused := hrun w
    have hanswered : (route.handler req captures).run w = (.ok (), w.answered status text) := by
      simp only [adminRoutes, List.mem_cons, List.not_mem_nil, or_false] at hroute
      rcases hroute with rfl | rfl | rfl | rfl | rfl | rfl | rfl | rfl | rfl | rfl | rfl
      all_goals exact refused rfl hrefused
    rw [hanswered]
    exact hw

/-- **Every handler keeps to the policy**, route by route: what it calls is allowed for the request
that it has. -/
theorem keeps_siteHandler (hdump : env.codec.DumpsUtf8) {req : HttpRequest}
    (h : Keeping ops (BearsAdmin env req) P) (e : Endpoint) (captures : List Bytes) :
    Keeps (fun w => P w.db.db) (siteHandler env ops e req captures) := by
  have hadmin : ∀ (i : Nat) (handler : RouteHandler (SiteState σ)),
      ((adminRoutes env ops.reads.dao ops.zip)[i]?).map AdminRoute.handler = some handler →
        Keeps (fun w => P w.db.db) (handler req captures) := by
    intro i handler hi
    obtain ⟨route, hroute, rfl⟩ := Option.map_eq_some_iff.mp hi
    exact keeps_adminRoute env hdump h (List.mem_of_getElem? hroute) captures
  have hpublic : ∀ (i : Nat) (handler : RouteHandler (SiteState σ)),
      (Public.routes env ops.reads)[i]? = some handler →
        Keeps (fun w => P w.db.db) (handler req captures) :=
    fun i handler hi => keeps_publicRoutes env h (List.mem_of_getElem? hi) req captures
  cases e with
  | healthz => exact fun w hw => hw
  | register => exact keeps_registerHandler env h req captures
  | login => exact keeps_loginHandler env h req captures
  | logout => exact keeps_setJson _
  | problems => exact hpublic 0 _ rfl
  | problem => exact hpublic 1 _ rfl
  | languages => exact hpublic 2 _ rfl
  | postSubmissions => exact keeps_postSubmissionsOver env h req captures
  | submission => exact hpublic 3 _ rfl
  | submissions => exact hpublic 4 _ rfl
  | registerWorker => exact fun w hw => hw
  | adminPostProblem => exact hadmin 0 _ rfl
  | adminGetProblem => exact hadmin 1 _ rfl
  | adminPutProblem => exact hadmin 2 _ rfl
  | adminDeleteProblem => exact hadmin 3 _ rfl
  | adminPostTestCases => exact hadmin 4 _ rfl
  | adminUploadTestCases => exact hadmin 5 _ rfl
  | adminLanguages => exact hadmin 6 _ rfl
  | adminPostLanguage => exact hadmin 7 _ rfl
  | adminPutLanguage => exact hadmin 8 _ rfl
  | adminSubmissions => exact hadmin 9 _ rfl
  | adminPutUserStatus => exact hadmin 10 _ rfl

end

/-! ## 3. Runs

A step lemma and an induction.  The requests bring their own databases, so that nothing is assumed
of what happens between two of them. -/

/-- A request, with what it finds: its environment and the operations as they are for it, so that
the database may have been changed by others before and in between. -/
structure Visit (σ : Type) where
  env : Env
  ops : SiteOps σ
  req : HttpRequest

/-- What it leaves. -/
def Visit.after {σ : Type} (s : SiteState σ) (v : Visit σ) : SiteState σ :=
  ((serve v.env v.ops v.req).run ⟨.ofStatu 200, 0, s⟩).2.db

/-- **The policy is kept.**  Any requests come in, in any order, to any paths and with any tokens;
each finds a database of its own, where others may work between its operations.  A property of the
database that is kept by the operations that are allowed for each of them, and by what anybody's
submission and the lists do, holds in the end if it holds at the beginning.

It is by induction on the requests; `keeps_siteHandler` is the step. -/
theorem site_policy {σ : Type} (P : σ → Prop) (vs : List (Visit σ))
    (h : ∀ v ∈ vs, v.env.codec.DumpsUtf8 ∧ Keeping v.ops (BearsAdmin v.env v.req) P)
    (s : SiteState σ) (hs : P s.db) : P (vs.foldl Visit.after s).db := by
  induction vs generalizing s with
  | nil => exact hs
  | cons v vs ih =>
    obtain ⟨hdump, hkeeping⟩ := h v List.mem_cons_self
    refine ih (fun v' hv' => h v' (List.mem_cons_of_mem _ hv')) (v.after s) ?_
    rw [Visit.after, serve]
    split
    · exact hs
    · exact keeps_siteHandler v.env hdump hkeeping _ _ ⟨.ofStatu 200, 0, s⟩ hs

/-- A database that is the ids of the problems; of the operations only the deletion works. -/
def idsDao : Dao (SiteState (List Int64)) where
  perform _ op s :=
    match op with
    | .problemDelete id => (.ok (s.db.contains id), { s with db := s.db.filter (· != id) })
    | _ => (.error (.std .outOfRange), s)

/-- What the handlers call on it. -/
def idsOps : SiteOps (List Int64) where
  reads := ⟨idsDao, fun _ _ _ => throw (.std .outOfRange), fun _ _ _ => throw (.std .outOfRange)⟩
  submit :=
    { problem := fun _ => throw (.std .outOfRange)
      language := fun _ => throw (.std .outOfRange)
      testCases := fun _ _ => throw (.std .outOfRange)
      create := fun _ => throw (.std .outOfRange)
      submit := fun _ _ => throw (.std .outOfRange)
      updateResult := fun _ _ _ _ _ => throw (.std .outOfRange) }
  zip := ⟨fun _ => .ok 1, fun _ => .ok []⟩

theorem keeping_idsOps (ids : List Int64) : Keeping idsOps False (· = ids) where
  call op hop k s hs := by
    cases op with
    | problemDelete id => exact hop.elim
    | _ => exact hs
  listProblems _ _ _ _ hw := hw
  listByUser _ _ _ _ hw := hw
  problem _ _ hw := hw
  language _ _ hw := hw
  testCases _ _ _ hw := hw
  create _ _ _ hw := hw
  submit _ _ _ hw := hw
  giveUp _ _ _ hw := hw

/-- A request to delete the first problem, by nobody in particular. -/
def deleteRequest : HttpRequest :=
  { HttpRequest.reSet with
    method := ascii "DELETE"
    path := ascii "/api/admin/problems/1" }

/-- It is turned away, and the problem stays. -/
theorem site_policy_deleteRequest :
    ([⟨Handler.sampleEnv, idsOps, deleteRequest⟩].foldl Visit.after
      ⟨[1], ⟨⟨[], 0⟩, false, []⟩⟩).db = [1] := by
  have hnobody : BearsAdmin Handler.sampleEnv deleteRequest = False := by
    refine eq_false ?_
    rintro ⟨token, info, hheader, -⟩
    cases hheader
  refine site_policy (· = [1]) [⟨Handler.sampleEnv, idsOps, deleteRequest⟩] (fun v hv => ?_) _ rfl
  obtain rfl := List.mem_singleton.mp hv
  exact ⟨Json.printing_dumpsUtf8 _ _, hnobody ▸ keeping_idsOps [1]⟩

end OnlineJudge.Server
