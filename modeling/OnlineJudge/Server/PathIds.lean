/-
# The ids in the paths

Nine routes have an id in their path, as the group `(\d+)` of their pattern.  What a handler gets is
the digits; which number it takes them for is its own affair, and the handlers do not agree:

* eight of them read a `long` with `ParseInt64` and turn away what is not positive (`capturedId`);
* `PUT /api/admin/languages/(\d+)` reads an `int` with `std::stoi` and takes 0 as well.

So a path can be well formed and still name nothing: the digits may be too many for the type, or
denote 0.  `Endpoint.readId` is the number that the handler of a route reads, `Endpoint.Fits` says
which numbers it takes.

* `siteHandler_congr`: a handler looks at the captures only to read that number.
* `siteHandler_no_id`: where there is none it does not touch the database.
* `url_round_trip`: so the URL made for an id leads to the handler of the route, which reads the id
  back; and every other path of the pattern means the number its digits denote, whatever zeros are
  in front, or nothing.
-/
import OnlineJudge.Server.Policy

namespace OnlineJudge.Server

open ByteString Db Net Handler RunPattern

/-! ## 1. What a handler reads

The number is the only thing that a handler takes from the match, so everything else about the URL
is forgotten once the route is found. -/

/-- The routes with an id in their path. -/
def Endpoint.takesId : Endpoint → Bool
  | .problem | .submission | .adminGetProblem | .adminPutProblem | .adminDeleteProblem
  | .adminPostTestCases | .adminUploadTestCases | .adminPutLanguage | .adminPutUserStatus => true
  | _ => false

/-- The id that the handler of a route reads from its captures. -/
def Endpoint.readId (e : Endpoint) (captures : List Bytes) : Option Int :=
  if e = .adminPutLanguage then captures[1]?.bind fun text => (stoi text).toOption
  else (capturedId captures).map Int64.toInt

/-- The ids that a route takes: what fits its type, and only for a language also 0. -/
def Endpoint.Fits (e : Endpoint) (id : Int) : Prop :=
  if e = .adminPutLanguage then 0 ≤ id ∧ id < 2147483648
  else 0 < id ∧ id < 9223372036854775808

theorem takesId_of_groups {r : Method × String × Endpoint} (hr : r ∈ siteRoutes)
    {pat : Pattern UInt8} (hpat : regexOf (ascii r.2.1) = some pat) (hgroups : groups pat = 1) :
    r.2.2.takesId = true := by
  have hall : ∀ r ∈ siteRoutes, (regexOf (ascii r.2.1)).map groups = some 1 →
      r.2.2.takesId = true := by decide +kernel
  refine hall r hr ?_
  rw [hpat, Option.map_some, hgroups]

section

variable {σ : Type} (env : Env)

theorem languageId_eq (captures : List Bytes) :
    (languageId env captures : Program (World σ) (Option Int32)) =
      match captures[1]?.bind fun text => (stoi text).toOption with
      | some id => pure (some (.ofInt id))
      | none => do
        sendJson env 400 (errorDoc "invalid language id")
        return none := by
  rw [languageId]
  cases captures[1]? with
  | none => rfl
  | some text =>
    rw [Option.map_some, Option.bind_some]
    cases stoi text <;> rfl

variable (ops : SiteOps σ)

/-- **A handler looks at the captures only to read the id.** -/
theorem siteHandler_congr (e : Endpoint) (req : HttpRequest) {captures captures' : List Bytes}
    (h : e.readId captures = e.readId captures') :
    siteHandler env ops e req captures = siteHandler env ops e req captures' := by
  by_cases hlanguage : e = .adminPutLanguage
  · subst hlanguage
    rw [Endpoint.readId, Endpoint.readId, if_pos rfl, if_pos rfl] at h
    simp only [siteHandler, putLanguage, languageId_eq, h]
  · rw [Endpoint.readId, Endpoint.readId, if_neg hlanguage, if_neg hlanguage] at h
    have hid : capturedId captures = capturedId captures' :=
      Option.map_injective (fun _ _ => Int64.toInt_inj.mp) h
    cases e with
    | problem => simp only [siteHandler, Public.getProblem, hid]
    | submission => simp only [siteHandler, getSubmission, hid]
    | adminGetProblem => simp only [siteHandler, getProblem, positiveId, hid]
    | adminPutProblem => simp only [siteHandler, putProblem, positiveId, hid]
    | adminDeleteProblem => simp only [siteHandler, deleteProblem, positiveId, hid]
    | adminPostTestCases => simp only [siteHandler, postTestCases, positiveId, hid]
    | adminUploadTestCases => simp only [siteHandler, postUpload, positiveId, hid]
    | adminPutUserStatus => simp only [siteHandler, putUserStatus, positiveId, hid]
    | adminPutLanguage => exact absurd rfl hlanguage
    -- the patterns of the others have no group, and their handlers do not use the captures
    | _ => rfl

open Program

theorem keeps_positiveId_none {P : SiteState σ → Prop} {captures : List Bytes}
    (h : capturedId captures = none) (error : String)
    {rest : Option Int64 → Program (World (SiteState σ)) Unit} (hrest : rest none = pure ()) :
    Keeps (fun w => P w.db) (positiveId env captures error >>= rest) := by
  intro w hw
  rw [run_positiveId_none env h error hrest]
  exact keeps_sendJson env _ _ w hw

theorem keeps_languageId_none {P : SiteState σ → Prop} {captures : List Bytes}
    (h : (captures[1]?.bind fun text => (stoi text).toOption) = none)
    {rest : Option Int32 → Program (World (SiteState σ)) Unit} (hrest : rest none = pure ()) :
    Keeps (fun w => P w.db) (languageId env captures >>= rest) := by
  intro w hw
  rw [languageId_eq, h, run_sendJson_none env hrest]
  exact keeps_sendJson env _ _ w hw

/-- **Without an id a handler leaves the site as it was.**  It answers before it asks the database
for anything, so a number that is too large is not taken for the id of another row. -/
theorem siteHandler_no_id {e : Endpoint} (htakes : e.takesId = true) (req : HttpRequest)
    {captures : List Bytes} (h : e.readId captures = none) (w : World (SiteState σ)) :
    ((siteHandler env ops e req captures).run w).2.db = w.db := by
  have hgate : Keeps (fun w' => w'.db = w.db) (requireAdmin env req) :=
    keeps_requireAdmin (P := (· = w.db)) env req
  have hsend : ∀ status error message, Keeps (fun w' : World (SiteState σ) => w'.db = w.db)
      (sendJsonError env status error message) :=
    fun status error message => keeps_sendJson (P := (· = w.db)) env status _
  refine (?_ : Keeps (fun w' => w'.db = w.db) (siteHandler env ops e req captures)) w rfl
  by_cases hlanguage : e = .adminPutLanguage
  · subst hlanguage
    rw [Endpoint.readId, if_pos rfl] at h
    exact keeps_guardAdmin (P := (· = w.db)) env (keeps_check (P := (· = w.db)) hgate rfl fun _ =>
      keeps_languageId_none (P := (· = w.db)) env h rfl)
  · rw [Endpoint.readId, if_neg hlanguage, Option.map_eq_none_iff] at h
    have hread : ∀ (error : String) (rest : Option Int64 → Program (World (SiteState σ)) Unit),
        rest none = pure () → Keeps (fun w' => w'.db = w.db)
          (positiveId env captures error >>= rest) :=
      fun error _ hrest => keeps_positiveId_none (P := (· = w.db)) env h error hrest
    cases e with
    | problem =>
      simp only [siteHandler, Public.getProblem, h]
      exact Keeps.tryCatch (hsend _ _ _) fun _ => hsend _ _ _
    | submission =>
      simp only [siteHandler, getSubmission, h]
      exact Keeps.tryCatch (hsend _ _ _) fun _ => hsend _ _ _
    | adminGetProblem | adminPutProblem | adminDeleteProblem | adminPostTestCases
    | adminUploadTestCases | adminPutUserStatus =>
      exact keeps_guardAdmin (P := (· = w.db)) env (keeps_check (P := (· = w.db)) hgate rfl
        fun _ => hread _ _ rfl)
    | adminPutLanguage => exact absurd rfl hlanguage
    | _ => cases htakes

end

/-! ## 2. The number in the digits

The group of the pattern is a nonempty run of digits, and on such a run `strtol` goes to the end.
What is left to the type is the bound. -/

theorem strtolRest_digits {ds : Bytes} (hall : ∀ b ∈ ds, isDigit b = true) :
    strtolRest ds = [] := by
  have hrest : ds.dropWhile isDigit = [] := List.dropWhile_eq_nil_iff.mpr hall
  cases ds with
  | nil => rfl
  | cons b ds =>
    obtain ⟨hspace, hminus, hplus⟩ := not_isSpace_of_isDigit (hall b List.mem_cons_self)
    have hdrop : (b :: ds).dropWhile isSpace = b :: ds :=
      List.dropWhile_cons_of_neg (by simp [hspace])
    have hsign : ((b :: ds).head? == some 45 || (b :: ds).head? == some 43) = false := by
      simp [hminus, hplus]
    simp only [strtolRest, hdrop, hsign, Bool.false_eq_true, if_false, hrest]

theorem strtol_of_digits {ds : Bytes} (hne : ds ≠ []) (hall : ∀ b ∈ ds, isDigit b = true) :
    strtol ds = some (digitsValue ds : Int) := by
  have hread : strtol ([] ++ (ds ++ [])) = some (digitsValue ds : Int) :=
    strtol_digits (by simp) hne hall (by simp)
  rwa [List.nil_append, List.append_nil] at hread

/-- When `stol` accepts what `strtol` has read. -/
theorem stol_eq_ok_iff {s : Bytes} {v w : Int} (h : strtol s = some v) : stol s = .ok w ↔
    v = w ∧ -9223372036854775808 ≤ v ∧ v < 9223372036854775808 := by
  have hstol : stol s = if -2 ^ 63 ≤ v ∧ v < 2 ^ 63 then .ok v else .error .outOfRange := by
    rw [stol, h]
  rw [hstol]
  split
  · rename_i hlong
    constructor
    · intro hv
      exact ⟨Except.ok.inj hv, by omega⟩
    · rintro ⟨rfl, -⟩
      rfl
  · rename_i hlong
    constructor
    · intro hv
      cases hv
    · rintro ⟨rfl, hlow, hhigh⟩
      exact absurd (by omega) hlong

theorem parseInt64_digits {ds : Bytes} (hne : ds ≠ []) (hall : ∀ b ∈ ds, isDigit b = true) :
    parseInt64 ds =
      if digitsValue ds < 9223372036854775808 then some (.ofInt (digitsValue ds)) else none := by
  have hread := strtol_of_digits hne hall
  have hrest := strtolRest_digits hall
  rw [parseInt64]
  cases hok : stol ds with
  | error e =>
    rw [if_neg]
    intro hfits
    cases hok.symm.trans ((stol_eq_ok_iff hread).mpr ⟨rfl, by omega, by omega⟩)
  | ok value =>
    obtain ⟨rfl, -, hfits⟩ := (stol_eq_ok_iff hread).mp hok
    simp only [hrest, ne_eq, not_true_eq_false, if_false]
    rw [if_pos (by omega)]

theorem stoi_digits {ds : Bytes} (hne : ds ≠ []) (hall : ∀ b ∈ ds, isDigit b = true) :
    (stoi ds).toOption =
      if digitsValue ds < 2147483648 then some (digitsValue ds : Int) else none := by
  rw [stoi, strtol_of_digits hne hall]
  dsimp only
  by_cases hfits : digitsValue ds < 2147483648
  · rw [if_pos hfits, if_pos (by omega)]
    rfl
  · rw [if_neg hfits, if_neg (by omega)]
    rfl

theorem capturedId_eq (path ds : Bytes) : capturedId [path, ds] =
    (parseInt64 ds).bind fun id => if id ≤ 0 then none else some id := by
  unfold capturedId
  rw [List.getElem?_cons_succ, List.getElem?_cons_zero, Option.bind_some]
  cases parseInt64 ds with
  | none => rfl
  | some id => rfl

theorem capturedId_of_digits {ds : Bytes} (hne : ds ≠ []) (hall : ∀ b ∈ ds, isDigit b = true)
    (path : Bytes) : (capturedId [path, ds]).map Int64.toInt =
      if 0 < digitsValue ds ∧ digitsValue ds < 9223372036854775808 then
        some (digitsValue ds : Int) else none := by
  rw [capturedId_eq, parseInt64_digits hne hall]
  by_cases hfits : digitsValue ds < 9223372036854775808
  · have hvalue : (Int64.ofInt (digitsValue ds)).toInt = digitsValue ds := by
      have hsize : (Int64.size : Int) = 18446744073709551616 := rfl
      rw [Int64.toInt_ofInt]
      exact Int.bmod_eq_of_le (by rw [hsize]; omega) (by rw [hsize]; omega)
    have hpos : Int64.ofInt (digitsValue ds) ≤ 0 ↔ ¬ 0 < digitsValue ds := by
      rw [Int64.le_iff_toInt_le, hvalue, Int64.toInt_zero]
      omega
    rw [if_pos hfits, Option.bind_some]
    by_cases hzero : 0 < digitsValue ds
    · rw [if_neg (fun h => hpos.mp h hzero), if_pos ⟨hzero, hfits⟩, Option.map_some, hvalue]
    · rw [if_pos (hpos.mpr hzero), if_neg (fun h => hzero h.1), Option.map_none]
  · rw [if_neg hfits, if_neg (fun h => hfits h.2), Option.bind_none, Option.map_none]

/-- **The id that a handler reads** is what the digits denote, if the route takes it. -/
theorem readId_of_digits (e : Endpoint) {ds : Bytes} (hne : ds ≠ [])
    (hall : ∀ b ∈ ds, isDigit b = true) (path : Bytes) (id : Int) :
    e.readId [path, ds] = some id ↔ (digitsValue ds : Int) = id ∧ e.Fits id := by
  unfold Endpoint.readId Endpoint.Fits
  by_cases hlanguage : e = .adminPutLanguage
  · rw [if_pos hlanguage, if_pos hlanguage, List.getElem?_cons_succ, List.getElem?_cons_zero,
      Option.bind_some, stoi_digits hne hall, Option.ite_none_right_eq_some, Option.some.injEq]
    omega
  · rw [if_neg hlanguage, if_neg hlanguage, capturedId_of_digits hne hall,
      Option.ite_none_right_eq_some, Option.some.injEq]
    omega

/-! ## 3. The URL for an id

The way out and the way back: an id is written in decimal into the pattern, and what comes in is a
path that the pattern matches. -/

/-- **URLs for ids round-trip.**  Take a route whose pattern has one group.

Write an id that the route takes into the pattern.  A request with that path and the method of the
route, unless it is for a file, gets the handler of the route, which reads the id back.  Conversely,
from a path of the pattern the handler reads the number that its digits denote, with any leading
zeros, if the route takes that number, and else no id.  This number is all that the handler of the
site looks at in the captures, and without it the database is left alone. -/
theorem url_round_trip {ε : Type} (on : Endpoint → Net.Handler ε) (server : HttpServer ε)
    (hbare : ∀ method, server.table method = []) {σ : Type} (env : Env) (ops : SiteOps σ)
    (r : Method × String × Endpoint) (hr : r ∈ siteRoutes) (pat : Pattern UInt8)
    (hpat : regexOf (ascii r.2.1) = some pat) (hgroups : groups pat = 1) :
    (∀ (id : Int) (req : HttpRequest), r.2.2.Fits id → methodOf req.method = some r.1 →
        req.path = fill pat [decimal id.toNat] →
        isFileHandler server.files.isRegular server.basedir req = false →
        ∃ captures, ((siteRouter on).mount server).route req = on r.2.2 req captures ∧
          serve env ops req = siteHandler env ops r.2.2 req captures ∧
          r.2.2.readId captures = some id) ∧
      (∀ path captures, Matches isDigit pat path captures → ∃ ds, captures = [ds] ∧
        ∀ id, r.2.2.readId (path :: captures) = some id ↔
          (digitsValue ds : Int) = id ∧ r.2.2.Fits id) ∧
      (∀ req captures captures', r.2.2.readId captures = r.2.2.readId captures' →
        siteHandler env ops r.2.2 req captures = siteHandler env ops r.2.2 req captures') ∧
      ∀ req captures, r.2.2.readId captures = none → ∀ w : World (SiteState σ),
        ((siteHandler env ops r.2.2 req captures).run w).2.db = w.db := by
  refine ⟨?_, ?_, fun req captures captures' h => siteHandler_congr env ops r.2.2 req h,
    fun req captures h w =>
      siteHandler_no_id env ops (takesId_of_groups hr hpat hgroups) req h w⟩
  · intro id req hid hmethod hpath hfile
    have hnonneg : 0 ≤ id := by
      unfold Endpoint.Fits at hid
      split at hid <;> omega
    have hdigits : ∀ arg ∈ [decimal id.toNat], arg ≠ [] ∧ ∀ b ∈ arg, isDigit b = true := by
      intro arg harg
      obtain rfl := List.mem_singleton.mp harg
      exact ⟨decimal_ne_nil _, fun b hb => isDigit_of_mem_decimal hb⟩
    have hmatches : Matches isDigit pat req.path [decimal id.toNat] :=
      hpath ▸ matches_fill hgroups.symm hdigits
    have hmem : (pat, r.2.2) ∈ patternsOf r.1 siteRoutes := by
      refine List.mem_filterMap.mpr ⟨r, List.mem_filter.mpr ⟨hr, decide_eq_true rfl⟩, ?_⟩
      rw [hpat]
      rfl
    have hserves : r.2.2.Serves req.method req.path [decimal id.toNat] :=
      ⟨r.1, pat, hmethod, hmem, hmatches⟩
    refine ⟨[req.path, decimal id.toNat], ?_, ?_, ?_⟩
    · rw [siteRouter_eq]
      exact route_of_serves on (List.Perm.refl _) hbare hfile hserves
    · rw [serve, endpointOf_eq_some_iff.mpr hserves]
    · obtain ⟨hne, hall⟩ := hdigits _ (List.mem_singleton_self _)
      refine (readId_of_digits r.2.2 hne hall req.path id).mpr ⟨?_, hid⟩
      rw [digitsValue_decimal]
      omega
  · intro path captures h
    obtain ⟨hlength, hruns⟩ := captures_of_matches h
    obtain ⟨ds, rfl⟩ := List.length_eq_one_iff.mp (hlength.trans hgroups)
    obtain ⟨hne, hall⟩ := hruns ds List.mem_cons_self
    exact ⟨ds, rfl, fun id => readId_of_digits r.2.2 hne hall path id⟩

/-- A request for language 0, which no row has but the handler asks for. -/
def languageRequest : HttpRequest :=
  { HttpRequest.reSet with
    method := ascii "PUT"
    path := ascii "/api/admin/languages/0" }

theorem url_round_trip_language :
    ∃ captures, ((siteRouter echo).mount noFilesServer).route languageRequest =
        echo .adminPutLanguage languageRequest captures ∧
      serve Handler.sampleEnv idsOps languageRequest =
        siteHandler Handler.sampleEnv idsOps .adminPutLanguage languageRequest captures ∧
      Endpoint.readId .adminPutLanguage captures = some 0 := by
  have hbare : ∀ method, noFilesServer.table method = [] := fun method => by cases method <;> rfl
  obtain ⟨pat, hpat⟩ : ∃ pat, regexOf (ascii "/api/admin/languages/(\\d+)") = some pat :=
    Option.isSome_iff_exists.mp (by decide +kernel)
  have hgroups : (regexOf (ascii "/api/admin/languages/(\\d+)")).map groups = some 1 := by
    decide +kernel
  have hfill : (regexOf (ascii "/api/admin/languages/(\\d+)")).map (fill · [decimal 0]) =
      some languageRequest.path := by decide +kernel
  rw [hpat] at hgroups hfill
  exact (url_round_trip echo noFilesServer hbare Handler.sampleEnv idsOps
    (.put, "/api/admin/languages/(\\d+)", .adminPutLanguage) (by simp [siteRoutes]) pat hpat
    (Option.some.inj hgroups)).1 0 languageRequest (by simp [Endpoint.Fits]) rfl
    (Option.some.inj hfill).symm rfl

end OnlineJudge.Server
