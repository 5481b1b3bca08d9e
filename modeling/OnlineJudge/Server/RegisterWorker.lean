/-
# Numbers that name things

`POST /api/judge/workers/register` (`server.cpp`) reads the port of a worker with `get<int>()`,
which takes any number modulo 2^32, and checks the range behind that.  `POST /api/submissions` does
the same with a language, and its check is that the language is there.

* `portKept_iff`: when the port that is registered is the number of the request.
* `identifiers_kept_iff`: both routes.

The two agree in kind and differ in the check.  A range is a condition on what is left of the
number, and so is being there: neither sees the number of the request.
-/
import OnlineJudge.Handler.AdminHandler
import OnlineJudge.Handler.Submit
import OnlineJudge.Judge.Balancer
import OnlineJudge.Lib.JsonText

namespace OnlineJudge.Server

open ByteString Net Judge Handler

/-! ## 1. The handler

The handler works on the workers and not on the database.  What it calls is logged, so that it can
be said which port was registered. -/

/-- The workers that `JudgeManager` knows, `remote_mode_`, and a log of what `RegisterWorker` was
called with. -/
structure Workers where
  balancer : JudgeWorkerBalancer
  remoteMode : Bool
  registered : List JudgeWorkerConfig

def registerWorker (cfg : JudgeWorkerConfig) : Program (World Workers) Unit :=
  modify fun w => { w with db :=
    ⟨(w.db.balancer.upsertWorker cfg).1, true, w.db.registered ++ [cfg]⟩ }

/-- The configuration in a body with this number as its port. -/
def configOf (body : Json) (n : Int) : Except Json.Error JudgeWorkerConfig := do
  let host ← body.valueStr (ascii "host") (ascii "127.0.0.1")
  let port ← (Json.int n).getInt
  let healthPath ← body.valueStr (ascii "health_path") (ascii "/healthz")
  let judgePath ← body.valueStr (ascii "judge_path") (ascii "/judge")
  let timeoutMs ← body.valueInt (ascii "timeout_ms") 3000
  return ⟨host, port, healthPath, judgePath, timeoutMs⟩

/-- The body of the answer. -/
def registeredDoc (cfg : JudgeWorkerConfig) : Json :=
  .obj [(ascii "host", .str cfg.host), (ascii "port", .int cfg.port),
    (ascii "status", .str (ascii "ok"))]

/-- `POST /api/judge/workers/register`. -/
def postRegister (env : Env) : RouteHandler Workers := fun req _ => guardJsonHandler env do
  let some body ← parseJsonBody env req | return ()
  match body.find? (ascii "port") with
  | some (.int n) =>
    let cfg ← field (configOf body n)
    if cfg.port ≤ 0 ∨ 65535 < cfg.port then sendJsonError env 400 "invalid worker port" []
    else
      registerWorker cfg
      sendJson env 200 (registeredDoc cfg)
  | _ => sendJsonError env 400 "port is required" []

/-! ## 2. The port

`Registers` lists the ways in which a request can end, and the equivalence is read off it.  The
configuration has other fields, any of which may fail to be read as well. -/

/-- The answer to a request, and the workers. -/
def registered (env : Env) (balancer : JudgeWorkerBalancer) (remoteMode : Bool) (req : HttpRequest)
    (captures : List Bytes) : World Workers :=
  ((postRegister env req captures).run ⟨.ofStatu 200, 0, ⟨balancer, remoteMode, []⟩⟩).2

/-- The request is rejected, or the port that is registered is `n`: the number as it stood in the
request, of any size. -/
def PortKept (n : Int) (w : World Workers) : Prop :=
  Rejects w.response.statu ∨ ∀ cfg ∈ w.db.registered, cfg.port = n

/-- The number, cut to 32 bits, is a port.  This is what the handler checks, having lost the number
itself. -/
def LooksLikePort (n : Int) : Prop := 1 ≤ Json.toInt32 n ∧ Json.toInt32 n ≤ 65535

instance : DecidablePred LooksLikePort := fun _ => inferInstanceAs (Decidable (_ ∧ _))

theorem port_configOf {body : Json} {n : Int} {cfg : JudgeWorkerConfig}
    (h : configOf body n = .ok cfg) : cfg.port = Json.toInt32 n := by
  simp only [configOf, Except.bind_eq_ok] at h
  obtain ⟨_, -, port, hport, _, -, _, -, _, -, hcfg⟩ := h
  obtain rfl := Except.ok.inj hport
  rw [← Except.ok.inj hcfg]

section

variable {env : Env} {req : HttpRequest} {body : Json} {n : Int} {w : World Workers}

/-- What is answered and registered: the body cannot be read, or there is no such port, or the
number cut to 32 bits is registered. -/
inductive Registers (body : Json) (n : Int) (status : Int) (workers : Workers) : Prop
  | unread (e : Json.Error) (h : configOf body n = .error e) (hlog : workers.registered = [])
  | invalid (h : ¬ LooksLikePort n) (hrejects : Rejects status)
  | stored (cfg : JudgeWorkerConfig) (h : configOf body n = .ok cfg) (hport : LooksLikePort n)
      (hstatus : ¬ Rejects status) (hlog : workers.registered = [cfg])

/-- **The handler**, for a body that can be read and has an integer as its port: under the guard it
ends in one of the ways that `Registers` lists. -/
theorem ends_postRegister (hdump : env.codec.DumpsUtf8)
    (hparse : env.codec.parse req.body = .ok body)
    (hn : body.find? (ascii "port") = some (.int n)) (hw : w.db.registered = [])
    (captures : List Bytes) :
    ∃ fn, postRegister env req captures = guardJsonHandler env fn ∧
      Ends (Registers body n) fn w := by
  refine ⟨_, rfl, ?_⟩
  rw [Ends, Program.wp_bind, parseJsonBody, hparse]
  simp only [Program.wp_pure, hn, Program.wp_bind, field, Program.wp_ofExcept,
    Except.mapError_eq_ok]
  refine ⟨fun cfg hcfg => ?_, fun e hraised => ?_⟩
  · have hport := port_configOf hcfg
    by_cases hinvalid : cfg.port ≤ 0 ∨ 65535 < cfg.port
    · rw [if_pos hinvalid]
      refine ends_sendJsonError hdump 400 (by decide) (.invalid ?_ (by decide))
      rintro ⟨hlow, hhigh⟩
      omega
    · rw [if_neg hinvalid, registerWorker, Program.wp_bind, Program.wp_modify]
      have hstored : ∀ status : Int, ¬ Rejects status → Registers body n status
          ⟨(w.db.balancer.upsertWorker cfg).1, true, w.db.registered ++ [cfg]⟩ := by
        intro status hstatus
        refine .stored cfg hcfg ⟨?_, ?_⟩ hstatus (by rw [hw]; rfl)
        · omega
        · omega
      exact ends_sendJson 200 _ (hstored 200 (by decide)) (hstored 500 (by decide))
  · cases hcfg : configOf body n with
    | ok cfg =>
      rw [hcfg] at hraised
      cases hraised
    | error e' => exact .unread e' hcfg hw

/-- **The port of a request.**  A request with the port `n` is rejected, or registers the port `n`,
exactly if `n` is an `int`, or a field of the body cannot be read, or what is left of `n` in 32 bits
is not a port. -/
theorem portKept_iff (hdump : env.codec.DumpsUtf8) (hparse : env.codec.parse req.body = .ok body)
    (hn : body.find? (ascii "port") = some (.int n)) (balancer : JudgeWorkerBalancer)
    (remoteMode : Bool) (captures : List Bytes) :
    PortKept n (registered env balancer remoteMode req captures) ↔
      (-2 ^ 31 ≤ n ∧ n < 2 ^ 31) ∨ (∀ cfg, configOf body n ≠ .ok cfg) ∨ ¬ LooksLikePort n := by
  have hends : Registers body n (registered env balancer remoteMode req captures).response.statu
      (registered env balancer remoteMode req captures).db := by
    obtain ⟨fn, hfn, hends⟩ := ends_postRegister
      (w := ⟨.ofStatu 200, 0, ⟨balancer, remoteMode, []⟩⟩) hdump hparse hn rfl captures
    rw [registered, hfn]
    exact final_of_ends env hends
  rw [PortKept, ← toInt32_eq_self_iff]
  cases hends with
  | unread e h hlog =>
    rw [hlog]
    refine iff_of_true (.inr fun cfg hcfg => nomatch hcfg) (.inr (.inl fun cfg hcfg => ?_))
    rw [h] at hcfg
    cases hcfg
  | invalid h hrejects => exact iff_of_true (.inl hrejects) (.inr (.inr h))
  | stored cfg h hport hstatus hlog =>
    rw [hlog, ← port_configOf h]
    constructor
    · rintro (hrejects | hall)
      · exact absurd hrejects hstatus
      · exact .inl (hall cfg (.head _))
    · rintro (heq | hunread | hinvalid)
      · refine .inr fun cfg' hcfg' => ?_
        rw [List.mem_singleton.mp hcfg', heq]
      · exact absurd h (hunread cfg)
      · exact absurd hport hinvalid

/-! ## 3. Both routes

The two statements have one form, and the number is the same one for both. -/

/-- **When a number names what it says.**  For every integer `n` that a request gives as
`language_id` or as `port`, whatever is in the database: the request is rejected with a 4xx status,
or the language that is looked up and stored, the port that is registered, is `n`, exactly if `n` is
in the range of an `int`, or the request goes no further than the checks. -/
theorem identifiers_kept_iff (hdump : env.codec.DumpsUtf8)
    (hparse : env.codec.parse req.body = .ok body) (captures : List Bytes) :
    (∀ n, body.find? (ascii "language_id") = some (.int n) → ∀ answers : SubmitAnswers,
      (LanguageKept n (submitted env answers req captures) ↔
        (-2 ^ 31 ≤ n ∧ n < 2 ^ 31) ∨ ∀ d ∈ draftOf req body, TurnedAway answers d)) ∧
    ∀ n, body.find? (ascii "port") = some (.int n) → ∀ balancer remoteMode,
      (PortKept n (registered env balancer remoteMode req captures) ↔
        (-2 ^ 31 ≤ n ∧ n < 2 ^ 31) ∨ (∀ cfg, configOf body n ≠ .ok cfg) ∨ ¬ LooksLikePort n) :=
  ⟨fun _ hn _ => languageKept_iff hdump hparse hn captures,
    fun _ hn balancer remoteMode => portKept_iff hdump hparse hn balancer remoteMode captures⟩

end

/-! ## 4. The number 4294967297

It is 1 in 32 bits.  On the same site, 1 is what it says and this number is not. -/

/-- A body with this number as its language and as its port. -/
def numberBody (n : Int) : Json :=
  .obj [(ascii "language_id", .int n), (ascii "port", .int n), (ascii "problem_id", .int 1),
    (ascii "source_code", .str (ascii "int main(){}")), (ascii "user_id", .int 1)]

/-- A site where this body is read. -/
def numberEnv (n : Int) : Env :=
  { Handler.sampleEnv with
    codec := Json.printing (.compact fun _ => []) fun _ => .ok (numberBody n) }

/-- The language 1. -/
def sampleLanguage : Db.Language :=
  ⟨1, ascii "C++", ascii "cpp", ascii "g++ {source} -o {output}", ascii "{binary}", true, []⟩

/-- A database with one problem, which has one test case, and with the language 1 only. -/
def sampleAnswers : SubmitAnswers where
  problem id := .ok <|
    if id = 1 then
      some ⟨1, ascii "A+B", ascii "Add.", ascii "easy", 1000, 262144, ascii "published", 1, [], []⟩
    else none
  language id := .ok (if id = 1 then some sampleLanguage else none)
  testCases id onlySample :=
    .ok (if id = 1 ∧ !onlySample then [⟨1, 1, false, [], [], 1, []⟩] else [])
  create _ := .ok 9
  submit _ _ := true
  updateResult _ _ _ _ _ := .ok true

theorem identifiers_kept_iff_one :
    LanguageKept 1 (submitted (numberEnv 1) sampleAnswers .reSet []) ∧
      PortKept 1 (registered (numberEnv 1) .empty false .reSet []) := by
  have hparse : (numberEnv 1).codec.parse HttpRequest.reSet.body = .ok (numberBody 1) := rfl
  have hkept := identifiers_kept_iff (Json.printing_dumpsUtf8 _ _) hparse []
  exact ⟨(hkept.1 1 rfl sampleAnswers).mpr (.inl (by decide)),
    (hkept.2 1 rfl .empty false).mpr (.inl (by decide))⟩

/-- **A number that names something else.**  The language 4294967297 is not there; the request is
not rejected, and the submission is stored with the language 1.  The port 4294967297 is none; the
port 1 is registered. -/
theorem identifiers_not_kept :
    ¬ LanguageKept 4294967297 (submitted (numberEnv 4294967297) sampleAnswers .reSet []) ∧
      ¬ PortKept 4294967297 (registered (numberEnv 4294967297) .empty false .reSet []) := by
  have hdump : (numberEnv 4294967297).codec.DumpsUtf8 := Json.printing_dumpsUtf8 _ _
  have hparse : (numberEnv 4294967297).codec.parse HttpRequest.reSet.body =
      .ok (numberBody 4294967297) := rfl
  have hrange : ¬ (-2 ^ 31 ≤ (4294967297 : Int) ∧ (4294967297 : Int) < 2 ^ 31) := by decide
  constructor
  · rw [languageKept_iff hdump hparse rfl]
    rintro (h | h)
    · exact hrange h
    · have hdraft : draftOf .reSet (numberBody 4294967297) =
          some ⟨ascii "int main(){}", 1, 4294967297, 1, .submit⟩ := rfl
      rcases h _ hdraft with hnone | hnone | ⟨_, hlanguage, hdisabled⟩ | ⟨_, _, _, hcases⟩
      · exact hnone _ rfl
      · cases hnone
      · obtain rfl : sampleLanguage = _ := Option.some.inj (Except.ok.inj hlanguage)
        cases hdisabled
      · cases hcases
  · rw [portKept_iff hdump hparse rfl]
    rintro (h | h | h)
    · exact hrange h
    · exact h ⟨ascii "127.0.0.1", 1, ascii "/healthz", ascii "/judge", 3000⟩ rfl
    · exact h (by decide)

end OnlineJudge.Server
