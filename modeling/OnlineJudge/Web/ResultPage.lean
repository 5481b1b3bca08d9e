/-
# The page of a submission

`submission-result.js` asks for its submission, shows what it is told, and goes on asking every 1.8
seconds until the status it is told is final.  An interval fires whether or not the request before
it has been answered, so several requests can be under way, and their answers can overtake each
other: the page can show a verdict and then an older answer, that the submission waits.

The system is the page next to the judge's side (`JudgeSite`), on which the row can change between
any two steps.  A request is served from the row as it is then, and is handled when its answer
arrives.  What the page goes by is `finalStatus`: the status in the result, before that of the row.

* `Seen`: an answer is of the row as it was created, or of the row for good.
* `result_page_rests`: a page that is open and has nothing under way and no interval has met an
  error, or shows the submission as it will stay.

Nothing is said about how long this takes.  The judge may never come to the submission, and then the
page goes on asking; what is excluded is that it stops too early, or stops on something that is not
the result.
-/
import OnlineJudge.Handler.SubmissionHandler
import OnlineJudge.Judge.SubmissionLife

namespace OnlineJudge.Web

open ByteString Db Judge Handler Transition

/-! ## 1. What the page makes of an answer

The page looks at two places for the status and takes the first that is there.  An answer is JSON of
the server, so it is the row as the server prints it. -/

/-- Whether `||` takes a value for true. -/
def truthy : Json → Bool
  | .null => false
  | .bool b => b
  | .int n => n != 0
  | .float x => x != 0
  | .str s => !s.isEmpty
  | .arr _ => true
  | .obj _ => true

/-- `v || other`, where `none` is `undefined`. -/
def orElse (v : Option Json) (other : Json) : Json :=
  match v with
  | some v => if truthy v then v else other
  | none => other

/-- `submission.result?.status || submission.status || "pending"`. -/
def finalStatus (submission : Json) : Json :=
  orElse ((submission.find? (ascii "result")).bind fun result => result.find? (ascii "status"))
    (orElse (submission.find? (ascii "status")) (.str (ascii "pending")))

/-- What a page of a submission depends on: the server, what it reads beside the row, the id in the
address, and `String(v).toLowerCase()`. -/
structure PageEnv where
  env : Env
  column : JsonColumn
  columns : Int → SubmissionColumns
  id : Int64
  lowered : Json → Bytes

namespace PageEnv

variable (e : PageEnv)

def isFinished (status : Json) : Bool :=
  !((find (ascii "pending") (e.lowered status)).isSome ||
    (find (ascii "running") (e.lowered status)).isSome)

def done (submission : Json) : Bool := e.isFinished (finalStatus submission)

/-- The answer of the server that has read this row. -/
def response (row : SubmissionRow) : Json :=
  submissionToResponse e.env (row.record e.column.select e.id (e.columns e.id.toInt))

end PageEnv

/-! ## 2. The page

The calls of `refreshResult` that wait are part of the state, as the page is only as quiet as they
are.  `pollTimer` is cleared and set by whichever answer comes, so a late answer can start the
interval again. -/

/-- The answer to a request: the submission, or an error. -/
inductive Answer
  | submission (body : Json)
  | failed

/-- The variables of `initSubmissionResultPage`.  `ticking` says whether the interval runs whose id
is in `pollTimer`, `flights` are the calls of `refreshResult` that wait, with the answer where the
server has given one, and `shown` is the answer that was handled last. -/
structure ResultPage where
  shown : Option Answer
  pollTimer : Bool
  ticking : Bool
  flights : List (Option Answer)
  closed : Bool

namespace ResultPage

/-- The page has called `refreshResult`. -/
def opened : ResultPage := ⟨none, false, false, [none], false⟩

/-- `if (pollTimer) { window.clearInterval(pollTimer); pollTimer = 0; }` -/
def clear (p : ResultPage) : ResultPage :=
  if p.pollTimer then { p with pollTimer := false, ticking := false } else p

/-- `if (!pollTimer) pollTimer = window.setInterval(refreshResult, 1800);` -/
def arm (p : ResultPage) : ResultPage :=
  if p.pollTimer then p else { p with pollTimer := true, ticking := true }

/-- The timer is all that `clear` touches. -/
theorem clear_fields (p : ResultPage) :
    p.clear.closed = p.closed ∧ p.clear.flights = p.flights ∧ p.clear.shown = p.shown := by
  unfold clear
  split <;> exact ⟨rfl, rfl, rfl⟩

/-- The timer is all that `arm` touches. -/
theorem arm_fields (p : ResultPage) :
    p.arm.closed = p.closed ∧ p.arm.flights = p.flights ∧ p.arm.shown = p.shown := by
  unfold arm
  split <;> exact ⟨rfl, rfl, rfl⟩

section

variable {p : ResultPage}

theorem clear_timer (h : p.ticking = p.pollTimer) : p.clear.ticking = p.clear.pollTimer := by
  unfold clear
  split
  · rfl
  · exact h

theorem arm_timer (h : p.ticking = p.pollTimer) :
    p.arm.ticking = p.arm.pollTimer ∧ p.arm.ticking = true := by
  unfold arm
  split
  · rename_i hset
    exact ⟨h, h.trans hset⟩
  · exact ⟨rfl, rfl⟩

end

variable (done : Json → Bool)

/-- `refreshResult`, from the answer on. -/
def handle (p : ResultPage) (answer : Answer) : ResultPage :=
  match answer with
  | .submission body =>
    if done body then { p with shown := some answer }.clear else { p with shown := some answer }.arm
  | .failed => { p with shown := some answer }.clear

/-- The function that is called when the page is left.  It does not reset `pollTimer`. -/
def leave (p : ResultPage) : ResultPage :=
  { p with closed := true, ticking := if p.pollTimer then false else p.ticking }

/-- What handling an answer leaves alone, and what it shows. -/
theorem handle_fields (p : ResultPage) (answer : Answer) :
    (p.handle done answer).closed = p.closed ∧ (p.handle done answer).flights = p.flights ∧
      (p.handle done answer).shown = some answer := by
  cases answer with
  | submission body =>
    simp only [handle]
    split
    · exact clear_fields _
    · exact arm_fields _
  | failed => exact clear_fields _

/-- After an answer the interval runs, if the answer was not final. -/
theorem handle_timer {p : ResultPage} (htimer : p.ticking = p.pollTimer) (answer : Answer) :
    (p.handle done answer).ticking = (p.handle done answer).pollTimer ∧
      ((p.handle done answer).ticking = true ∨ answer = .failed ∨
        ∃ body, answer = .submission body ∧ done body = true) := by
  cases answer with
  | submission body =>
    simp only [handle]
    split
    · rename_i hdone
      exact ⟨clear_timer htimer, .inr (.inr ⟨body, rfl, hdone⟩)⟩
    · have harm := arm_timer (p := { p with shown := some (.submission body) }) htimer
      exact ⟨harm.1, .inl harm.2⟩
  | failed => exact ⟨clear_timer htimer, .inr (.inl rfl)⟩

end ResultPage

/-- The page, and the judge's side.  The page learns of the other by requests alone. -/
structure PageSite where
  site : JudgeSite
  page : ResultPage

inductive PageAction
  | site (a : SiteAction)
  /-- The interval fires. -/
  | tick
  /-- The server reads the row for a request. -/
  | serve (i : Nat)
  /-- A request fails, or the page cannot show its answer. -/
  | fail (i : Nat)
  /-- The answer arrives. -/
  | deliver (i : Nat)
  | leave

namespace PageSite

/-- What a request for the submission is answered with. -/
def answer (e : PageEnv) (s : JudgeSite) : Answer :=
  match SubmissionDao.getById e.column.select ⟨s.rows, e.columns⟩ e.id with
  | .ok (some submission) => .submission (submissionToResponse e.env submission)
  | _ => .failed

/-- One step of the judge's side. -/
def siteStep (e : PageEnv) (s : JudgeSite) (a : SiteAction) : Option JudgeSite :=
  s.step e.env.codec e.column.valid a

/-- One step. -/
def step (e : PageEnv) (s : PageSite) : PageAction → Option PageSite
  | .site a => (siteStep e s.site a).map fun site => { s with site := site }
  | .tick =>
    if s.page.ticking then
      some { s with page := { s.page with flights := s.page.flights ++ [none] } }
    else none
  | .serve i =>
    match s.page.flights[i]? with
    | some none =>
      some { s with
        page := { s.page with flights := s.page.flights.set i (some (answer e s.site)) } }
    | _ => none
  | .fail i =>
    match s.page.flights[i]? with
    | some _ =>
      some { s with page := { s.page with flights := s.page.flights.set i (some .failed) } }
    | _ => none
  | .deliver i =>
    match s.page.flights[i]? with
    | some (some answer) =>
      some { s with
        page := { s.page with flights := s.page.flights.eraseIdx i }.handle e.done answer }
    | _ => none
  | .leave => if s.page.closed then none else some { s with page := s.page.leave }

/-! ## 3. The invariant

There are two things to carry along: that what the page is told was in the table, which is about the
judge's side, and that the page is not forgotten, which is about the timer and the requests that
wait. -/

/-- The row was in the table: as it was created, or as its one update has left it. -/
def Seen (s : JudgeSite) (id : Int) (row : SubmissionRow) : Prop :=
  (∃ c ∈ s.created, c.1 = id ∧ row = pendingRow c.2) ∨
    (id ∈ s.writes.map (fun w => w.1.id) ∧ s.rows id = some row)

section

variable {validJson : Bytes → Bool} {id : Int} {s s' : JudgeSite} {row : SubmissionRow}

/-- A submission is created by its action. -/
theorem created_of_step {codec : Json.Codec} {a : SiteAction}
    (hstep : s.step codec validJson a = some s') {c : Int × Bytes} (hc : c ∈ s'.created) :
    c ∈ s.created ∨ ∃ job, a = .create job c.2 := by
  have hmanage : ∀ {b : QueueAction}, s.manage codec b = some s' → c ∈ s.created := by
    intro b hb
    obtain ⟨manager, -, rfl⟩ := Option.map_eq_some_iff.mp hb
    exact hc
  cases a with
  | create job text =>
    simp only [JudgeSite.step] at hstep
    split at hstep
    · obtain rfl := Option.some.inj hstep
      rcases List.mem_append.mp hc with hold | hnew
      · exact .inl hold
      · obtain rfl := List.mem_singleton.mp hnew
        exact .inr ⟨job, rfl⟩
    · cases hstep
  | submit i =>
    simp only [JudgeSite.step] at hstep
    split at hstep
    · obtain ⟨manager, -, rfl⟩ := Option.map_eq_some_iff.mp hstep
      exact .inl hc
    · cases hstep
  | giveUp i text up =>
    simp only [JudgeSite.step] at hstep
    split at hstep
    · obtain rfl := Option.some.inj hstep
      exact .inl hc
    · cases hstep
  | finish t reply up =>
    simp only [JudgeSite.step] at hstep
    split at hstep
    · obtain ⟨manager, -, rfl⟩ := Option.map_eq_some_iff.mp hstep
      exact .inl hc
    · cases hstep
  | push | readRunning | take | shutdown => exact .inl (hmanage hstep)

/-- What holds of the first results of all requests. -/
theorem created_of_exec {codec : Json.Codec} {maxConcurrency : Int} {as : List SiteAction}
    {P : Bytes → Prop} (hcreate : ∀ job text, .create job text ∈ as → P text)
    (h : exec (JudgeSite.step codec validJson) (.initial maxConcurrency) as = some s) :
    ∀ c ∈ s.created, P c.2 := by
  refine exec_invariant_of_mem (p := fun a => a ∈ as) (I := fun s => ∀ c ∈ s.created, P c.2) ?_
    nofun (fun a ha => ha) h
  intro s a s' hold ha hstep c hc
  rcases created_of_step hstep hc with hmem | ⟨job, rfl⟩
  · exact hold c hmem
  · exact hcreate job c.2 ha

/-- The row of a submission that has been written stays. -/
theorem rows_of_written (hbooked : s.Booked validJson) (hbooked' : s'.Booked validJson)
    (hextends : s.Extends s') (hid : id ∈ s.writes.map fun w => w.1.id) :
    s'.rows id = s.rows id := by
  obtain ⟨w, hw, rfl⟩ := List.mem_map.mp hid
  have hcreated : w.1.id ∈ s.ids := by
    have hplace : w.1.id ∈ s.places :=
      List.mem_append_right _ (List.mem_map_of_mem (f := fun w => w.1.id) hw)
    rw [← List.count_pos_iff, hbooked.places] at hplace
    exact List.count_pos_iff.mp hplace
  obtain ⟨c, hc, heq⟩ := List.mem_map.mp hcreated
  have hnow := hbooked.written c hc w hw heq.symm
  have hthen := hbooked'.written c (hextends.created.subset hc) w (hextends.writes.subset hw)
    heq.symm
  rw [← heq, hnow, hthen]

theorem Seen.mono (h : Seen s id row) (hbooked : s.Booked validJson)
    (hbooked' : s'.Booked validJson) (hextends : s.Extends s') : Seen s' id row := by
  rcases h with ⟨c, hc, hid, hrow⟩ | ⟨hid, hrow⟩
  · exact .inl ⟨c, hextends.created.subset hc, hid, hrow⟩
  · refine .inr ⟨?_, (rows_of_written hbooked hbooked' hextends hid).trans hrow⟩
    obtain ⟨w, hw, hwid⟩ := List.mem_map.mp hid
    exact List.mem_map.mpr ⟨w, hextends.writes.subset hw, hwid⟩

/-- **What the server reads** is seen: a row that it finds is as it was created, or as its one
update has left it. -/
theorem seen_of_read (hbooked : s.Booked validJson) (hrow : s.rows id = some row) :
    Seen s id row := by
  by_cases hwritten : id ∈ s.writes.map fun w => w.1.id
  · exact .inr ⟨hwritten, hrow⟩
  · have hcreated : id ∈ s.ids := by
      by_contra hnot
      cases (hbooked.known id hnot).symm.trans hrow
    obtain ⟨c, hc, rfl⟩ := List.mem_map.mp hcreated
    have hwaits := hbooked.waiting c hc hwritten
    exact .inl ⟨c, hc, rfl, Option.some.inj (hrow.symm.trans hwaits)⟩

end

/-- The row is in the table, and no continuation of the run changes it. -/
def Stays (e : PageEnv) (s : JudgeSite) (row : SubmissionRow) : Prop :=
  ∀ bs u, exec (siteStep e) s bs = some u → u.rows e.id.toInt = some row

/-- A row stays from its one update on: whatever comes later extends the list of the updates, and
a submission is updated once. -/
theorem stays_of_written {e : PageEnv} {s : JudgeSite} {row : SubmissionRow}
    (hdump : e.env.codec.DumpsUtf8) (hbooked : s.Booked e.column.valid)
    (hwritten : e.id.toInt ∈ s.writes.map fun w => w.1.id) (hrow : s.rows e.id.toInt = some row) :
    Stays e s row := by
  intro bs u hbs
  have hbooked' := JudgeSite.booked_of_exec hdump hbooked hbs
  have hextends := JudgeSite.extends_of_exec hbs
  exact (rows_of_written hbooked hbooked' hextends hwritten).trans hrow

/-- What has been seen is the submission as it was created, or as it stays. -/
theorem Seen.created_or_stays {e : PageEnv} {s : JudgeSite} {row : SubmissionRow}
    (h : Seen s e.id.toInt row) (hdump : e.env.codec.DumpsUtf8)
    (hbooked : s.Booked e.column.valid) :
    (∃ c ∈ s.created, c.1 = e.id.toInt ∧ row = pendingRow c.2) ∨ Stays e s row :=
  h.imp_right fun ⟨hwritten, hrow⟩ => stays_of_written hdump hbooked hwritten hrow

/-- The body is what the server answers for a row that was in the table.  It was so at some moment,
and by the time the page reads it the row may be another one. -/
def Told (e : PageEnv) (s : JudgeSite) (body : Json) : Prop :=
  ∃ row, Seen s e.id.toInt row ∧ body = e.response row

/-- **The invariant.**  What the page has been told was in the table, and as long as the page is
open it has asked, or will ask, or has been told something final. -/
structure Inv (e : PageEnv) (s : PageSite) : Prop where
  booked : s.site.Booked e.column.valid
  waits : ∀ c ∈ s.site.created, e.done (e.response (pendingRow c.2)) = false
  flights : ∀ body, some (Answer.submission body) ∈ s.page.flights → Told e s.site body
  shown : ∀ body, s.page.shown = some (.submission body) → Told e s.site body
  timer : s.page.closed = false → s.page.ticking = s.page.pollTimer
  awake : s.page.closed = false → s.page.ticking = true ∨ s.page.flights ≠ [] ∨
    s.page.shown = some .failed ∨ ∃ body, s.page.shown = some (.submission body) ∧
      e.done body = true

section

variable {e : PageEnv} {s t : PageSite}

/-- What the server answers at this moment is of a row that has been seen. -/
theorem told_of_answer {site : JudgeSite} (hbooked : site.Booked e.column.valid) {body : Json}
    (h : answer e site = .submission body) : Told e site body := by
  unfold answer at h
  cases hrow : site.rows e.id.toInt with
  | none =>
    have hnone : SubmissionDao.getById e.column.select ⟨site.rows, e.columns⟩ e.id = .ok none := by
      have hjudged : (SubmissionTable.mk site.rows e.columns).judged e.id.toInt = none := hrow
      rw [SubmissionDao.getById, hjudged]
      rfl
    rw [hnone] at h
    cases h
  | some row =>
    split at h
    · rename_i submission hget
      obtain ⟨rfl, -⟩ := (SubmissionDao.getById_eq_ok_iff hrow submission).mp hget
      exact ⟨row, seen_of_read hbooked hrow, (Answer.submission.inj h).symm⟩
    · cases h

theorem Told.mono {site site' : JudgeSite} {body : Json} (h : Told e site body)
    (hbooked : site.Booked e.column.valid) (hbooked' : site'.Booked e.column.valid)
    (hextends : site.Extends site') : Told e site' body := by
  obtain ⟨row, hseen, hbody⟩ := h
  exact ⟨row, hseen.mono hbooked hbooked' hextends, hbody⟩

/-- The judge's side moves, and what has been seen stays seen. -/
theorem Inv.site (hdump : e.env.codec.DumpsUtf8) (h : s.Inv e) {a : SiteAction}
    (ha : ∀ job text, a = .create job text → e.done (e.response (pendingRow text)) = false)
    {site : JudgeSite}
    (hstep : siteStep e s.site a = some site) : ({ s with site := site } : PageSite).Inv e := by
  have hbooked := h.booked.step hdump hstep
  have hextends := JudgeSite.extends_step hstep
  refine ⟨hbooked, ?_, fun body hbody => (h.flights body hbody).mono h.booked hbooked hextends,
    fun body hbody => (h.shown body hbody).mono h.booked hbooked hextends, h.timer, h.awake⟩
  intro c hc
  rcases created_of_step hstep hc with hold | ⟨job, rfl⟩
  · exact h.waits c hold
  · exact ha job c.2 rfl

/-- The server answers a request that is under way: what it reads has been seen, and the request
goes on waiting with that answer. -/
theorem Inv.answered (h : s.Inv e) {i : Nat} {before : Option Answer}
    (hasked : s.page.flights[i]? = some before) {answer : Answer}
    (hanswer : ∀ body, answer = .submission body → Told e s.site body) :
    ({ s with page := { s.page with flights := s.page.flights.set i (some answer) } } :
      PageSite).Inv e := by
  have hi : i < s.page.flights.length := (List.getElem?_eq_some_iff.mp hasked).1
  refine ⟨h.booked, h.waits, fun body hbody => ?_, h.shown, h.timer, fun hopen => ?_⟩
  · rcases List.mem_or_eq_of_mem_set hbody with hold | hnew
    · exact h.flights body hold
    · exact hanswer body (Option.some.inj hnew).symm
  · refine (h.awake hopen).imp_right fun _ => .inl ?_
    intro hnil
    have hlength := congrArg List.length hnil
    simp only [List.length_set, List.length_nil] at hlength
    omega

/-- An answer arrives and is handled.  The request is no longer under way, but the interval runs
unless it has failed or what was told is final. -/
theorem Inv.delivered (h : s.Inv e) {i : Nat} {answer : Answer}
    (hflight : s.page.flights[i]? = some (some answer)) :
    ({ s with page := { s.page with flights := s.page.flights.eraseIdx i }.handle e.done answer } :
      PageSite).Inv e := by
  obtain ⟨hclosed, hflights, hshown⟩ := ResultPage.handle_fields e.done
    { s.page with flights := s.page.flights.eraseIdx i } answer
  have htimer := fun hopen => ResultPage.handle_timer e.done
    (p := { s.page with flights := s.page.flights.eraseIdx i }) (h.timer hopen) answer
  refine ⟨h.booked, h.waits, fun body hbody => ?_, fun body hbody => ?_, fun hopen => ?_,
    fun hopen => ?_⟩
  · rw [hflights] at hbody
    exact h.flights body (List.mem_of_mem_eraseIdx hbody)
  · rw [hshown] at hbody
    rw [Option.some.inj hbody] at hflight
    exact h.flights body (List.mem_of_getElem? hflight)
  · rw [hclosed] at hopen
    exact (htimer hopen).1
  · rw [hclosed] at hopen
    rw [hshown]
    rcases (htimer hopen).2 with hticks | rfl | ⟨body, rfl, hdone⟩
    · exact .inl hticks
    · -- An error ends the polling.
      exact .inr (.inr (.inl rfl))
    · exact .inr (.inr (.inr ⟨body, rfl, hdone⟩))

/-- **One step** keeps the invariant, whether it is the page's or the judge's.  What a new
submission stores must not be final for the page. -/
theorem Inv.step (hdump : e.env.codec.DumpsUtf8) (h : s.Inv e) {a : PageAction}
    (ha : ∀ job text, a = .site (.create job text) →
      e.done (e.response (pendingRow text)) = false)
    (hstep : PageSite.step e s a = some t) : t.Inv e := by
  cases a with
  | site a =>
    obtain ⟨site, hsite, rfl⟩ := Option.map_eq_some_iff.mp hstep
    exact h.site hdump (fun job text heq => ha job text (congrArg PageAction.site heq)) hsite
  | tick =>
    simp only [PageSite.step] at hstep
    split at hstep
    · rename_i hticking
      obtain rfl := Option.some.inj hstep
      refine ⟨h.booked, h.waits, fun body hbody => ?_, h.shown, h.timer, fun _ => .inl hticking⟩
      rcases List.mem_append.mp hbody with hold | hnew
      · exact h.flights body hold
      · cases List.mem_singleton.mp hnew
    · cases hstep
  | serve i =>
    simp only [PageSite.step] at hstep
    split at hstep
    · rename_i hasked
      obtain rfl := Option.some.inj hstep
      exact h.answered hasked fun body hbody => told_of_answer h.booked hbody
    · cases hstep
  | fail i =>
    simp only [PageSite.step] at hstep
    split at hstep
    · rename_i hasked
      obtain rfl := Option.some.inj hstep
      exact h.answered hasked fun body hbody => by cases hbody
    · cases hstep
  | deliver i =>
    simp only [PageSite.step] at hstep
    split at hstep
    · rename_i answer hflight
      obtain rfl := Option.some.inj hstep
      exact h.delivered hflight
    · cases hstep
  | leave =>
    simp only [PageSite.step] at hstep
    split at hstep
    · cases hstep
    · obtain rfl := Option.some.inj hstep
      exact ⟨h.booked, h.waits, h.flights, h.shown, fun hopen => (by cases hopen),
        fun hopen => (by cases hopen)⟩

/-- A page that is opened has asked for its submission, so it begins with the invariant. -/
theorem inv_opened {site : JudgeSite} (hbooked : site.Booked e.column.valid)
    (hwaits : ∀ c ∈ site.created, e.done (e.response (pendingRow c.2)) = false) :
    Inv e ⟨site, .opened⟩ where
  booked := hbooked
  waits := hwaits
  flights := by
    intro body hbody
    cases List.mem_singleton.mp hbody
  shown := nofun
  timer _ := rfl
  awake _ := .inr (.inl (List.cons_ne_nil _ _))

/-- **A run** keeps the invariant, by induction on its steps. -/
theorem Inv.of_exec (hdump : e.env.codec.DumpsUtf8) (h : s.Inv e) {as : List PageAction}
    (hcreate : ∀ job text, .site (.create job text) ∈ as →
      e.done (e.response (pendingRow text)) = false)
    (hrun : exec (PageSite.step e) s as = some t) : t.Inv e := by
  refine exec_invariant_of_mem (p := fun a => a ∈ as) ?_ h (fun a ha => ha) hrun
  intro s a s' h ha hstep
  exact h.step hdump (fun job text heq => hcreate job text (heq ▸ ha)) hstep

end

/-! ## 4. The result

At rest the page has no request and no interval, so by the invariant it has met an error, or what it
was told last was final.  A row as it was created is not, and so it is the row for good. -/

/-- What a request stores until there is a result is not final for the page. -/
theorem done_pendingRow {e : PageEnv}
    (hlowered : ∀ s, (∀ b ∈ s, b < 0x80) → e.lowered (.str s) = s.map toLower) {text : Bytes}
    {mode : SubmissionMode} {scope : String} {count : Nat}
    (hkeeps : e.column.Keeps e.env.codec (pendingDoc mode scope count))
    (hdumped : e.env.codec.dump (pendingDoc mode scope count) = some text) :
    e.done (e.response (pendingRow text)) = false := by
  have hpos : 0 < (e.column.select text).length := by
    rw [hkeeps.length text hdumped]
    exact Nat.succ_pos _
  have hresponse : e.response (pendingRow text) =
      submissionJson ((pendingRow text).record e.column.select e.id (e.columns e.id.toInt))
        (some (pendingDoc mode scope count)) := by
    rw [PageEnv.response, submissionToResponse]
    simp only [SubmissionRow.record, pendingRow, if_neg (List.ne_nil_of_length_pos hpos),
      hkeeps.parse text hdumped, Except.toOption]
  have hfinal : finalStatus (e.response (pendingRow text)) = .str (ascii "PENDING") := by
    rw [hresponse]
    rfl
  have hascii : ∀ b ∈ ascii "PENDING", b < 0x80 := by
    have hall : (ascii "PENDING").all (fun b => decide (b < 0x80)) = true := rfl
    exact fun b hb => of_decide_eq_true (List.all_eq_true.mp hall b hb)
  have hpending : (find (ascii "pending") ((ascii "PENDING").map toLower)).isSome = true := by
    decide
  rw [PageEnv.done, hfinal, PageEnv.isFinished, hlowered _ hascii, hpending]
  rfl

/-- **The page comes to rest on the result.**  A page is opened for a submission at any time, and
the judge's side, the server, the network and the page go on in any order, with requests that
overlap, fail and are overtaken.  Whatever the page shows was in the table: the submission as it was
created, or as it will stay.  And as long as the page is open, if no interval runs and no request is
under way, the page has met an error, or shows the submission as it will stay. -/
theorem result_page_rests (e : PageEnv) (hdump : e.env.codec.DumpsUtf8)
    (hlowered : ∀ s, (∀ b ∈ s, b < 0x80) → e.lowered (.str s) = s.map toLower)
    (maxConcurrency : Int) (pre : List SiteAction) (s : JudgeSite)
    (hpre : exec (siteStep e) (.initial maxConcurrency) pre = some s)
    (as : List PageAction) (t : PageSite) (hrun : exec (step e) ⟨s, .opened⟩ as = some t)
    (hcreate : ∀ job text, .create job text ∈ pre ∨ .site (.create job text) ∈ as →
      ∃ mode scope count, e.column.Keeps e.env.codec (pendingDoc mode scope count) ∧
        e.env.codec.dump (pendingDoc mode scope count) = some text) :
    (∀ body, t.page.shown = some (.submission body) →
      ∃ row, Seen t.site e.id.toInt row ∧ body = e.response row ∧
        ((∃ c ∈ t.site.created, c.1 = e.id.toInt ∧ row = pendingRow c.2) ∨ Stays e t.site row)) ∧
      (t.page.closed = false → t.page.ticking = false → t.page.flights = [] →
        t.page.shown = some .failed ∨
          ∃ row, t.page.shown = some (.submission (e.response row)) ∧
            e.done (e.response row) = true ∧ Stays e t.site row) := by
  have hwaits : ∀ job text, .create job text ∈ pre ∨ .site (.create job text) ∈ as →
      e.done (e.response (pendingRow text)) = false := by
    intro job text hmem
    obtain ⟨mode, scope, count, hkeeps, hdumped⟩ := hcreate job text hmem
    exact done_pendingRow hlowered hkeeps hdumped
  have hbooked :=
    JudgeSite.booked_of_exec hdump (JudgeSite.booked_initial e.column.valid maxConcurrency) hpre
  have hopened := inv_opened hbooked
    (created_of_exec (fun job text hmem => hwaits job text (.inl hmem)) hpre)
  have hinv := hopened.of_exec hdump (fun job text hmem => hwaits job text (.inr hmem)) hrun
  refine ⟨fun body hshown => ?_, fun hopen hticking hflights => ?_⟩
  · obtain ⟨row, hseen, hbody⟩ := hinv.shown body hshown
    exact ⟨row, hseen, hbody, hseen.created_or_stays hdump hinv.booked⟩
  rcases hinv.awake hopen with hticks | hflight | hfailed | ⟨body, hshown, hdone⟩
  · rw [hticking] at hticks
    cases hticks
  · exact absurd hflights hflight
  · exact .inl hfailed
  · obtain ⟨row, hseen, rfl⟩ := hinv.shown body hshown
    refine .inr ⟨row, hshown, hdone, ?_⟩
    rcases hseen.created_or_stays hdump hinv.booked with ⟨c, hc, -, rfl⟩ | hstays
    · -- The row as it was created is not final.
      rw [hinv.waits c hc] at hdone
      cases hdone
    · exact hstays

/-- The result that submission 7 has at first. -/
def waitingDoc : Json := pendingDoc .submit "all" 0

/-- A document as `dump()` prints it. -/
def dumped (doc : Json) : Bytes := doc.print (.compact fun _ => [])

/-- A document as MySQL prints it. -/
def selected (doc : Json) : Bytes := doc.print (.spaced fun _ => [])

/-- A codec that reads the two results of that submission. -/
def waitingCodec : Json.Codec :=
  Json.printing (.compact fun _ => []) fun text =>
    if text = dumped waitingDoc ∨ text = selected waitingDoc then .ok waitingDoc
    else if text = dumped systemErrorDoc ∨ text = selected systemErrorDoc then .ok systemErrorDoc
    else .error (ascii "parse error")

/-- A column that prints a document with blanks. -/
def waitingColumn : JsonColumn where
  valid text := (waitingCodec.parse text).toOption.isSome
  select text := ((waitingCodec.parse text).toOption.map selected).getD text
  float _ := []

theorem utf8_noSource : Utf8.wellFormed [] = true := rfl

theorem fits_noSource : ([] : Bytes).length ≤ 65535 := Nat.zero_le _

theorem utf8_noTime : ∀ time ∈ (none : Option DateTime), Utf8.wellFormed time.bytes = true := nofun

/-- The page of submission 7. -/
def waitingPage : PageEnv where
  env := { echoEnv [] with codec := waitingCodec }
  column := waitingColumn
  columns _ := ⟨1, 1, 1, ⟨[], utf8_noSource, fits_noSource⟩, some .submit, none, utf8_noTime⟩
  id := 7
  lowered
    | .str s => s.map toLower
    | _ => []

/-- The page sees the submission wait; three requests later, with the first of them answered last,
it shows the result. -/
def overtaken : List PageAction :=
  [.serve 0, .deliver 0, .tick, .tick, .serve 0, .site (.finish 0 none true), .serve 1, .deliver 1,
    .deliver 0, .tick, .serve 0, .deliver 0]

/-- Submission 7 is created, and a judge thread takes it. -/
def taken : List SiteAction :=
  [.create sampleJob (dumped waitingDoc), .submit 0, .push 0, .readRunning 0, .take 0]

set_option maxRecDepth 4000 in
theorem result_page_rests_overtaken :
    ∃ s t row, exec (siteStep waitingPage) (.initial 1) taken = some s ∧
      exec (step waitingPage) ⟨s, .opened⟩ overtaken = some t ∧
      t.page.shown = some (.submission (waitingPage.response row)) ∧
      row.status = .systemError ∧
      Stays waitingPage t.site row := by
  have hdump : waitingCodec.DumpsUtf8 := Json.printing_dumpsUtf8 _ _
  have hdumped : waitingCodec.dump waitingDoc = some (dumped waitingDoc) := rfl
  have hkeeps : waitingColumn.Keeps waitingCodec waitingDoc := by
    constructor <;>
    · intro text htext
      obtain rfl := Option.some.inj (hdumped.symm.trans htext)
      rfl
  have hcreate : ∀ job text, .create job text ∈ taken ∨ .site (.create job text) ∈ overtaken →
      ∃ mode scope count, waitingColumn.Keeps waitingCodec (pendingDoc mode scope count) ∧
        waitingCodec.dump (pendingDoc mode scope count) = some text := by
    rintro job text (hmem | hmem)
    · simp only [taken, List.mem_cons, SiteAction.create.injEq, reduceCtorEq, List.not_mem_nil,
        or_false] at hmem
      obtain ⟨-, rfl⟩ := hmem
      exact ⟨.submit, "all", 0, hkeeps, hdumped⟩
    · simp [overtaken] at hmem
  obtain ⟨-, hrest⟩ := result_page_rests waitingPage hdump (fun _ _ => rfl) 1 taken _ rfl overtaken
    _ rfl hcreate
  rcases hrest rfl rfl rfl with hfailed | ⟨row, hshown, -, hstays⟩
  · cases hfailed
  · exact ⟨_, _, row, rfl, rfl, hshown, (by cases hstays [] _ rfl; rfl), hstays⟩

end PageSite

end OnlineJudge.Web
