/-
# A reply that is cut off

`SendHttpJson` of the judge manager reads until the connection ends and takes what it has for the
response.  A worker that dies while it writes ends the connection too; what has arrived then is a
prefix of the response.  The worker writes the length of the body (`Content-Length`), and
`HttpContext` on the other side of the same protocol waits for that many bytes, but `SendHttpJson`
does not look at it.

* `plain_of_writes`: what every response of a worker is like, whatever the request.
* `cut_reply_iff`: a cut reply is refused exactly when the cut is before the end of the header
  block, or its status line is broken to begin with.

A connection that ends is all that the client goes by, and it cannot tell an end that was meant from
one that was not.  The body is JSON, though, and whether a part of it can be taken for the whole is
another question, which `Judge.Wire` answers.
-/
import OnlineJudge.Judge.HttpClients
import OnlineJudge.Judge.Report
import OnlineJudge.Judge.WorkerServer

namespace OnlineJudge.Judge

open ByteString Net

/-! ## 1. What a worker answers

Every response of the worker is made by the same few functions, so that one property of them holds
of whatever request it answers. -/

/-- A response without a redirect, whose fields fit on their lines and whose status is an
`int`. -/
structure Plain (rsp : HttpResponse) : Prop where
  headers : ∀ head ∈ rsp.headers.entries, InLine head.1 ∧ InLine head.2
  statu : -2 ^ 31 ≤ rsp.statu ∧ rsp.statu < 2 ^ 31
  noRedirect : rsp.redirectFlag = false

theorem Plain.setContent {rsp : HttpResponse} (h : Plain rsp) (body : Bytes) {type : Bytes}
    (htype : InLine type) : Plain (rsp.setContent body type) where
  headers := by
    intro head hmem
    have hname : InLine (ascii "Content-Type") := by decide
    have hadds : HttpResponse.Adds (fun head => InLine head.1 ∧ InLine head.2)
        { rsp with body := body } (rsp.setContent body type) :=
      HttpResponse.adds_setHeader { rsp with body := body } ⟨hname, htype⟩
    rcases hadds.added head hmem with hold | hnew
    · exact h.headers head hold
    · exact hnew
  statu := h.statu
  noRedirect := h.noRedirect

theorem Plain.setStatu {rsp : HttpResponse} (h : Plain rsp) {statu : Int}
    (hstatu : -2 ^ 31 ≤ statu ∧ statu < 2 ^ 31) : Plain { rsp with statu := statu } :=
  ⟨h.headers, hstatu, h.noRedirect⟩

theorem plain_ofStatu {statu : Int} (h : -2 ^ 31 ≤ statu ∧ statu < 2 ^ 31) :
    Plain (.ofStatu statu) :=
  ⟨by simp [HttpResponse.ofStatu, StrMap.empty], h, rfl⟩

section

variable {ε : Type}

/-- A route table keeps it if its handlers do. -/
theorem keeps_dispatcher (req : HttpRequest) (routes : List (Route ε))
    (h : ∀ route ∈ routes, ∀ captures, Program.Keeps Plain (route.handler req captures)) :
    Program.Keeps Plain (HttpServer.dispatcher req routes) := by
  induction routes with
  | nil => exact Program.keeps_modify fun rsp hrsp => hrsp.setStatu (by decide)
  | cons route routes ih =>
    rw [HttpServer.dispatcher]
    cases route.pattern req.path with
    | none => exact ih fun other hmem => h other (List.mem_cons_of_mem _ hmem)
    | some captures => exact h route List.mem_cons_self captures

theorem keeps_errorPage {server : HttpServer ε} (herror : server.errorHandler = none)
    (req : HttpRequest) : Program.Keeps Plain (server.renderDefaultErrorPage req) := by
  rw [HttpServer.renderDefaultErrorPage, herror]
  exact Program.keeps_modify fun rsp hrsp => hrsp.setContent _ (by decide)

/-- A server without files and without handlers of its own for errors keeps it if its routes
do. -/
theorem keeps_respond {server : HttpServer ε} (hbasedir : server.basedir = [])
    (hexception : server.exceptionHandler = none) (herror : server.errorHandler = none)
    (req : HttpRequest)
    (h : ∀ routes ∈ [server.getRoute, server.postRoute, server.putRoute, server.deleteRoute],
      ∀ route ∈ routes, ∀ captures, Program.Keeps Plain (route.handler req captures)) :
    Program.Keeps Plain (server.respond req) := by
  have hfile : isFileHandler server.files.isRegular server.basedir req = false := by
    rw [isFileHandler, hbasedir]
    rfl
  simp only [List.forall_mem_cons] at h
  obtain ⟨hget, hpost, hput, hdelete, -⟩ := h
  have hroute : Program.Keeps Plain (server.route req) := by
    rw [HttpServer.route, if_neg (by rw [hfile]; exact Bool.false_ne_true)]
    split
    · exact keeps_dispatcher req _ hget
    · split
      · exact keeps_dispatcher req _ hpost
      · split
        · exact keeps_dispatcher req _ hput
        · split
          · exact keeps_dispatcher req _ hdelete
          · exact Program.keeps_modify fun rsp hrsp => hrsp.setStatu (by decide)
  have hpage := keeps_errorPage herror req
  rw [HttpServer.respond]
  refine (hroute.tryCatch fun e => ?_).bind fun _ => Program.Keeps.bind (fun _ hrsp => hrsp)
    fun rsp => ?_
  · rw [hexception]
    exact Program.Keeps.bind (Program.keeps_modify fun rsp hrsp => hrsp.setStatu (by decide))
      fun _ => hpage
  · split
    · exact hpage
    · exact Program.keeps_pure _

end

variable {codec : Json.Codec} {machine : Machine} {files : Files} {req : HttpRequest}
  {rsp : HttpResponse}

/-- The worker as a site: it has no default fields. -/
def workerSite (codec : Json.Codec) (machine : Machine) (files : Files) :
    SiteServer Json.Error where
  toHttpServer := judgeWorker codec machine files
  defaultHeaders := .empty

/-- The worker writes this response: it answers a request, or the parser has refused one with a
client error. -/
def Writes (codec : Json.Codec) (machine : Machine) (files : Files) (req : HttpRequest)
    (rsp : HttpResponse) : Prop :=
  (judgeWorker codec machine files).answer req = .ok rsp ∨
    ∃ statu < 500, (workerSite codec machine files).refusal statu req = .ok rsp

/-- **Every response of a worker is plain.** -/
theorem plain_of_writes (h : Writes codec machine files req rsp) : Plain rsp := by
  rcases h with hanswer | ⟨statu, hlt, hrefusal⟩
  · have hkeeps : Program.Keeps Plain ((judgeWorker codec machine files).respond req) := by
      refine keeps_respond rfl rfl rfl req ?_
      simp only [List.forall_mem_cons]
      refine ⟨fun route hmem captures => ?_, fun route hmem captures => ?_, fun route hmem => ?_,
        fun route hmem => ?_, by simp⟩
      · obtain rfl := List.mem_singleton.mp hmem
        exact Program.keeps_modify fun rsp hrsp => hrsp.setContent _ (by decide)
      · obtain rfl := List.mem_singleton.mp hmem
        exact (Program.keeps_ofExcept _).bind fun out =>
          Program.keeps_modify fun rsp hrsp => hrsp.setContent _ (by decide)
      · cases hmem
      · cases hmem
    have hplain := hkeeps (.ofStatu 200) (plain_ofStatu (by decide))
    rw [HttpServer.answer] at hanswer
    obtain ⟨-, -, rfl⟩ := Except.map_eq_ok.mp hanswer
    exact hplain
  · have hpage : Program.Keeps Plain
        ((judgeWorker codec machine files).renderDefaultErrorPage req) := keeps_errorPage rfl req
    have hplain := hpage (.ofStatu statu) (plain_ofStatu (by omega))
    rw [SiteServer.refusal] at hrefusal
    obtain ⟨-, -, rfl⟩ := Except.map_eq_ok.mp hrefusal
    exact hplain

theorem Plain.cleanFields (h : Plain rsp) : (workerSite codec machine files).CleanFields rsp where
  headers := h.headers
  defaults := by simp [workerSite, StrMap.empty]
  location := by
    intro hflag
    rw [h.noRedirect] at hflag
    cases hflag

/-- What a worker writes, for the order in which it finds the fields; the order is the map's, and
any may come. -/
def replyText (codec : Json.Codec) (machine : Machine) (files : Files) (req : HttpRequest)
    (rsp : HttpResponse) (heads : List (Bytes × Bytes)) : Bytes :=
  SiteServer.responseTextIn req ((workerSite codec machine files).completeHeaders req rsp) heads

/-! ## 2. Prefixes

What the client looks for is found in a prefix exactly if the prefix is long enough. -/

/-- What is found in a prefix is found in the whole, at the same place. -/
theorem find_of_prefix {needle s t : Bytes} (h : s <+: t) {k : Nat}
    (hfind : find needle s = some k) : find needle t = some k := by
  obtain ⟨rest, rfl⟩ := h
  obtain ⟨hle, hneedle, hfirst⟩ := find_eq_some_iff.mp hfind
  have hdrop : ∀ j ≤ k, (s ++ rest).drop j = s.drop j ++ rest := fun j hj =>
    List.drop_append_of_le_length (by omega)
  rw [find_eq_some_iff, hdrop k (le_refl k)]
  refine ⟨by rw [List.length_append]; omega, hneedle.trans (List.prefix_append _ _),
    fun j hj hprefix => hfirst j hj ?_⟩
  rw [hdrop j (by omega)] at hprefix
  refine List.prefix_of_prefix_length_le hprefix (List.prefix_append _ _) ?_
  have hlength := hneedle.length_le
  rw [List.length_drop] at hlength ⊢
  omega

/-- A prefix that stops before the end of the block does not contain it. -/
theorem find_block_of_lt {lines : List Bytes} (hne : lines ≠ [])
    (hlines : ∀ line ∈ lines, IsLine line) {body raw : Bytes}
    (hraw : raw <+: joinLines lines ++ (crlfcrlf ++ body))
    (hlt : raw.length < (joinLines lines).length + crlfcrlf.length) :
    find crlfcrlf raw = none := by
  cases hfind : find crlfcrlf raw with
  | none => rfl
  | some k =>
    have hwhole := find_of_prefix hraw hfind
    rw [find_block hne hlines] at hwhole
    obtain rfl := Option.some.inj hwhole
    obtain ⟨hle, hneedle⟩ := find_eq_some hfind
    have hlength := hneedle.length_le
    rw [List.length_drop] at hlength
    omega

/-- A prefix that does contain it is the block and a part of the body. -/
theorem exists_part_of_le {block body raw : Bytes} (hraw : raw <+: block ++ body)
    (hle : block.length ≤ raw.length) : ∃ part, part <+: body ∧ raw = block ++ part := by
  obtain ⟨part, rfl⟩ : block <+: raw :=
    List.prefix_of_prefix_length_le (List.prefix_append block body) hraw hle
  exact ⟨part, (List.prefix_append_right_inj block).mp hraw, rfl⟩

/-! ## 3. The reply

A prefix that ends within the block has no end of a block, and one that ends behind it is read like
the whole response, with a shorter body. -/

/-- The block of a reply to a request with a version is read as the version and the status. -/
theorem readWord_reply (hversion : ∀ b ∈ req.version, isSpace b = false) (hne : req.version ≠ [])
    (hplain : Plain rsp) (heads : List (Bytes × Bytes)) :
    ∃ hs, readWord (joinLines (SiteServer.statusLine req
        ((workerSite codec machine files).completeHeaders req rsp) ::
          heads.map SiteServer.fieldLine)) = some (req.version, hs) ∧
      readInt hs = some rsp.statu := by
  obtain ⟨rest, hblock⟩ := joinLines_statusLine req
    ((workerSite codec machine files).completeHeaders req rsp) (heads.map SiteServer.fieldLine)
  have hstatu := ((workerSite codec machine files).completeHeaders_spec req rsp).1.statu
  rw [hblock, hstatu]
  exact readInt_block hne hversion hplain.statu rest

/-- A letter is no beginning of a number. -/
def isLetter (b : UInt8) : Bool := !isSpace b && !isDigit b && b != 45 && b != 43

theorem readInt_letter {b : UInt8} (h : isLetter b = true) (s : Bytes) :
    readInt (32 :: b :: s) = none := by
  simp only [isLetter, Bool.and_eq_true, Bool.not_eq_true', bne_iff_ne] at h
  obtain ⟨⟨⟨hspace, hdigit⟩, hminus⟩, hplus⟩ := h
  have hdrop : (32 :: b :: s).dropWhile isSpace = b :: s := by
    rw [List.dropWhile_cons_of_pos (by decide), List.dropWhile_cons_of_neg (by simp [hspace])]
  have htake : (b :: s).takeWhile isDigit = [] := List.takeWhile_cons_of_neg (by simp [hdigit])
  simp [readInt, stoi, strtol, hdrop, htake, hminus, hplus, Except.toOption]

/-- A reason phrase begins with a letter. -/
theorem exists_letter_statuDesc (statu : Int) :
    ∃ b s, Util.statuDesc statu = b :: s ∧ isLetter b = true := by
  have htable : ∀ entry ∈ statuMsg, (ascii entry.2).head?.any isLetter = true := by
    decide +kernel
  have hdesc : (Util.statuDesc statu).head?.any isLetter = true :=
    @Util.statuDesc_of_table (fun desc => desc.head?.any isLetter = true) (by decide) htable statu
  obtain ⟨b, hhead, hb⟩ := (Option.any_eq_true _ _).mp hdesc
  obtain ⟨rest, heq⟩ := List.head?_eq_some_iff.mp hhead
  exact ⟨b, rest, heq, hb⟩

/-- Without a version the status is read as the version, and the reason phrase is no number. -/
theorem readWord_versionless (hversion : req.version = []) (heads : List (Bytes × Bytes)) :
    ∃ ver hs, readWord (joinLines (SiteServer.statusLine req
        ((workerSite codec machine files).completeHeaders req rsp) ::
          heads.map SiteServer.fieldLine)) = some (ver, hs) ∧ readInt hs = none := by
  generalize (workerSite codec machine files).completeHeaders req rsp = rsp'
  obtain ⟨b, desc, hdesc, hb⟩ := exists_letter_statuDesc rsp'.statu
  obtain ⟨rest, hblock⟩ : ∃ rest, joinLines (SiteServer.statusLine req rsp' ::
      heads.map SiteServer.fieldLine) = SiteServer.statusLine req rsp' ++ rest := by
    cases heads with
    | nil => exact ⟨[], (List.append_nil _).symm⟩
    | cons head heads =>
      rw [joinLines_cons _ (by simp), List.append_assoc]
      exact ⟨_, rfl⟩
  have hline : SiteServer.statusLine req rsp' ++ rest =
      32 :: (decimalInt rsp'.statu ++ 32 :: (b :: (desc ++ rest))) := by
    have hblank : ascii " " = [32] := rfl
    simp [SiteServer.statusLine, hversion, hdesc, hblank]
  have hskip : ∀ t : Bytes, readWord (32 :: t) = readWord t := fun _ => rfl
  have hdigits : ∀ c ∈ decimalInt rsp'.statu, isSpace c = false := by
    intro c hc
    unfold decimalInt at hc
    split at hc
    · rcases List.mem_append.mp hc with hc | hc
      · rw [List.mem_singleton.mp hc]
        rfl
      · exact (not_isSpace_of_isDigit (isDigit_of_mem_decimal hc)).1
    · exact (not_isSpace_of_isDigit (isDigit_of_mem_decimal hc)).1
  have hnil : decimalInt rsp'.statu ≠ [] := by
    unfold decimalInt
    split <;> simp [decimal_ne_nil]
  refine ⟨decimalInt rsp'.statu, _, ?_, readInt_letter hb (desc ++ rest)⟩
  rw [hblock, hline, hskip]
  exact readWord_append hnil hdigits rfl

/-- **What `SendHttpJson` makes of a prefix**: nothing, up to the end of the block or without a
version; then the status and a part of the body. -/
theorem sendHttpJson_prefix (hversion : ∀ b ∈ req.version, isSpace b = false)
    (hplain : Plain rsp) {heads : List (Bytes × Bytes)}
    (hheads : heads.Perm
      ((workerSite codec machine files).completeHeaders req rsp).headers.entries) {raw : Bytes}
    (hraw : raw <+: replyText codec machine files req rsp heads) :
    (sendHttpJson raw = none ∧ (req.version = [] ∨
        raw.length + rsp.body.length < (replyText codec machine files req rsp heads).length)) ∨
      (req.version ≠ [] ∧
        (replyText codec machine files req rsp heads).length ≤ raw.length + rsp.body.length ∧
        ∃ part, part <+: rsp.body ∧ sendHttpJson raw = some (rsp.statu, part)) := by
  have hinLine : InLine req.version := by
    constructor
    · intro hmem
      exact absurd (hversion 13 hmem) (by decide)
    · intro hmem
      exact absurd (hversion 10 hmem) (by decide)
  have hclean : (workerSite codec machine files).CleanFields rsp := hplain.cleanFields
  have hlines := hclean.isLine hinLine hheads
  have hbody := ((workerSite codec machine files).completeHeaders_spec req rsp).1.body
  have htext : replyText codec machine files req rsp heads = _ :=
    SiteServer.responseTextIn_eq req _ heads
  have hsep : ascii "\r\n\r\n" = crlfcrlf := rfl
  rw [hbody] at htext
  rw [htext] at hraw ⊢
  rcases Nat.lt_or_ge raw.length ((joinLines (SiteServer.statusLine req
      ((workerSite codec machine files).completeHeaders req rsp) ::
        heads.map SiteServer.fieldLine)).length + crlfcrlf.length) with hlt | hge
  · left
    have hfind := find_block_of_lt (List.cons_ne_nil _ _) hlines hraw hlt
    refine ⟨?_, Or.inr (by simp only [List.length_append]; omega)⟩
    simp only [sendHttpJson, hsep, hfind, Option.bind_eq_bind, Option.bind_none]
  · rw [← List.append_assoc] at hraw
    obtain ⟨part, hpart, rfl⟩ := exists_part_of_le hraw (by rw [List.length_append]; exact hge)
    rw [List.append_assoc]
    by_cases hne : req.version = []
    · left
      obtain ⟨ver, hs, hword, hint⟩ :=
        @readWord_versionless codec machine files req rsp hne heads
      refine ⟨?_, Or.inl hne⟩
      simp only [sendHttpJson, hsep, find_block (List.cons_ne_nil _ _) hlines,
        Option.bind_eq_bind, Option.bind_some, List.take_left, hword, hint, Option.bind_none]
    · right
      obtain ⟨hs, hword, hint⟩ :=
        @readWord_reply codec machine files req rsp hversion hne hplain heads
      refine ⟨hne, by simp only [List.length_append]; omega, part, hpart, ?_⟩
      exact sendHttpJson_block (List.cons_ne_nil _ _) hlines hword hint part

/-- The bytes are not taken for a result: `SendHttpJson` returns false, and `ExecuteRemotely` does
not report the job as finished. -/
def Refused (raw : Bytes) : Prop :=
  sendHttpJson raw = none ∧
    ∀ (codec : Json.Codec) (id : Nat) (cfg : JudgeWorkerConfig) (job : JudgeJob)
      (calls : List WorkerCall) (result : Option Bytes),
      executeRemotely codec (some (id, cfg)) (fun _ _ => sendHttpJson raw) job =
        .ok (calls, result) → result = none

theorem refused_iff (raw : Bytes) : Refused raw ↔ sendHttpJson raw = none := by
  refine ⟨And.left, fun h => ⟨h, fun codec id cfg job calls result hrun => ?_⟩⟩
  rw [executeRemotely] at hrun
  cases hdump : codec.dump job.payload with
  | none =>
    rw [hdump] at hrun
    cases hrun
  | some text =>
    simp only [hdump, h, Except.ok.injEq, Prod.mk.injEq] at hrun
    exact hrun.2.symm

/-- **When a cut reply is refused.**  A worker writes a response with a body, whatever the order of
the fields, and the connection ends before all of it has arrived: what has arrived is refused
exactly when it stops before the end of the header block, or the response is to a request of which
the worker has not even read the version. -/
theorem cut_reply_iff (hwrites : Writes codec machine files req rsp)
    (hversion : ∀ b ∈ req.version, isSpace b = false) {heads : List (Bytes × Bytes)}
    (hheads : heads.Perm
      ((workerSite codec machine files).completeHeaders req rsp).headers.entries)
    (hbody : rsp.body ≠ []) {raw : Bytes}
    (hraw : raw <+: replyText codec machine files req rsp heads)
    (hcut : raw ≠ replyText codec machine files req rsp heads) :
    ((workerSite codec machine files).completeHeaders req rsp).hasHeader
        (ascii "Content-Length") = true ∧
      raw.length < (replyText codec machine files req rsp heads).length ∧
      (Refused raw ↔ req.version = [] ∨
        raw.length + rsp.body.length < (replyText codec machine files req rsp heads).length) := by
  refine ⟨((workerSite codec machine files).completeHeaders_spec req rsp).2 hbody, ?_, ?_⟩
  · refine Nat.lt_of_le_of_ne hraw.length_le fun heq => hcut ?_
    exact hraw.eq_of_length heq
  · rw [refused_iff]
    rcases sendHttpJson_prefix hversion (plain_of_writes hwrites) hheads hraw with
      ⟨hnone, hwhen⟩ | ⟨hne, hle, part, -, hsome⟩
    · exact ⟨fun _ => hwhen, fun _ => hnone⟩
    · rw [hsome]
      refine ⟨fun h => (by cases h), fun h => ?_⟩
      rcases h with h | h
      · exact absurd h hne
      · omega

/-! ## 4. A judgement that is cut off

One judgement, cut twice: within its status line, and before its last byte. -/

/-- A job that is sent to a worker. -/
def judgedRequest : HttpRequest := judgeRequest sampleDispatch.cfg (ascii "request")

/-- The worker's answer to it: one test case that has passed. -/
def judgedReply : HttpResponse :=
  (HttpResponse.ofStatu 200).setContent
    ((Tally.ofRuns [⟨0, [], ⟨.accepted, 1, 1, []⟩, []⟩]).doc.print (.compact fun _ => []))
    (ascii "application/json;charset=utf-8")

theorem writes_judgedReply :
    Writes (readingCodec (oneCase [])) quietMachine noFiles judgedRequest judgedReply := Or.inl rfl

def judgedText : Bytes :=
  replyText (readingCodec (oneCase [])) quietMachine noFiles judgedRequest judgedReply
    ((workerSite (readingCodec (oneCase [])) quietMachine noFiles).completeHeaders judgedRequest
      judgedReply).headers.entries

theorem cut_reply_iff_statusLine : Refused (judgedText.take 15) :=
  ((cut_reply_iff writes_judgedReply (by decide +kernel) (List.Perm.refl _) (by decide +kernel)
    (judgedText.take_prefix 15) (by decide +kernel)).2.2).mpr (Or.inr (by decide +kernel))

/-- **A cut reply can be taken for a result.**  The last byte of a judgement is missing. -/
theorem not_always_refused :
    ¬ ∀ (codec : Json.Codec) (machine : Machine) (files : Files) (req : HttpRequest)
      (rsp : HttpResponse) (heads : List (Bytes × Bytes)) (raw : Bytes),
      Writes codec machine files req rsp → (∀ b ∈ req.version, isSpace b = false) →
        heads.Perm ((workerSite codec machine files).completeHeaders req rsp).headers.entries →
          rsp.body ≠ [] → raw <+: replyText codec machine files req rsp heads →
            raw ≠ replyText codec machine files req rsp heads → Refused raw := by
  intro h
  have hrefused := h (readingCodec (oneCase [])) quietMachine noFiles judgedRequest judgedReply _
    judgedText.dropLast writes_judgedReply (by decide +kernel) (List.Perm.refl _)
    (by decide +kernel) (List.dropLast_prefix _) (by decide +kernel)
  have htaken : sendHttpJson judgedText.dropLast = some (200, judgedReply.body.dropLast) := by
    decide +kernel
  rw [hrefused.1] at htaken
  cases htaken

end OnlineJudge.Judge
