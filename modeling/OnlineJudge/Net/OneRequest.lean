/-
# A connection that is opened for one request

A client that says `Connection: close` sends one request, reads until the connection ends, and takes
what it has for the response.  Anything can come between: the request arrives in pieces, the
response leaves in pieces, the connection hangs up or runs into its timer, and is released before
all is written.

`Traffic` is a connection of the server with what has arrived and what has left.

* `Phase`: the request is incomplete and nothing has been written; or it is complete and all that is
  written is the response; or the connection is gone.
* `Phase.left_begins`: **what leaves is the beginning of the response**, and nothing leaves before
  the request is complete.

Nothing is said about when a piece arrives or leaves.  The run is any sequence of events of the
connection, and the statement is about every state of it.
-/
import OnlineJudge.Lib.Transition
import OnlineJudge.Net.Connection

namespace OnlineJudge.Net

open ByteString Transition

/-! ## 1. What arrives and what leaves

The connection of `Net.Connection` with two records beside it, which no function of the program can
see. -/

/-- A connection with the bytes that have arrived on it and those that have left. -/
structure Traffic where
  conn : Connection
  arrived : Bytes
  left : Bytes

/-- The bytes that an event brings. -/
def Connection.Event.brings : Connection.Event → Bytes
  | .read chunk => chunk
  | .readFails | .hangup | .write _ | .writeFails | .inactive | .released => []

/-- The bytes that an event takes away. -/
def Connection.Event.takes (conn : Connection) : Connection.Event → Bytes
  | .write taken => conn.outBuffer.take taken
  | .read _ | .readFails | .hangup | .writeFails | .inactive | .released => []

/-- One event. -/
def Traffic.step {ε : Type} (server : SiteServer ε) (t : Traffic) (e : Connection.Event) :
    Option Traffic :=
  (t.conn.step server e).map fun conn => ⟨conn, t.arrived ++ e.brings, t.left ++ e.takes t.conn⟩

/-- A new connection. -/
def Traffic.opened : Traffic := ⟨.established, [], []⟩

/-- This text is one request, which closes the connection, and this is the response to it. -/
structure Serves {ε : Type} (server : SiteServer ε) (request response : Bytes) : Prop where
  spec : ∃ context rsp, Net.onMessage.stage .reSet request = .done context [] ∧
    server.answer context.request = .ok rsp ∧
    (server.completeHeaders context.request rsp).close = true ∧
    response = SiteServer.responseText context.request
      (server.completeHeaders context.request rsp)

/-! ## 2. The phases

The invariant of such a connection.  The callback is what takes it from one phase to the next, and
it does so once: when the request is complete. -/

/-- How far the exchange has come. -/
inductive Phase (request response : Bytes) (t : Traffic) : Prop
  | waiting (statu : t.conn.statu = .connected) (term : t.conn.terminated = false)
      (out : t.conn.outBuffer = []) (left : t.left = []) (cut : t.arrived ≠ request)
      (resumes : ∀ x, Net.onMessage.stage t.conn.context (t.conn.inBuffer ++ x) =
        Net.onMessage.stage .reSet (t.arrived ++ x))
  | answered (statu : t.conn.statu = .disconnecting) (term : t.conn.terminated = false)
      (empty : t.conn.inBuffer = []) (arrived : t.arrived = request)
      (left : t.left ++ t.conn.outBuffer = response)
  | gone (statu : t.conn.statu = .disconnected) (term : t.conn.terminated = false)
      (arrived : t.left ++ t.conn.outBuffer ≠ [] → t.arrived = request)
      (left : t.left ++ t.conn.outBuffer <+: response)

section

variable {ε : Type} {server : SiteServer ε} {request response : Bytes} {t t' : Traffic}

/-- What the parser does with a part of the request: it waits. -/
theorem Serves.waits (h : Serves server request response) {part : Bytes} (hpart : part <+: request)
    (hcut : part ≠ request) : ∃ context rest,
      Net.onMessage.stage .reSet part = .wait context rest ∧
        ∀ x, Net.onMessage.stage context (rest ++ x) = Net.onMessage.stage .reSet (part ++ x) := by
  obtain ⟨context, rsp, hparse, -, -, -⟩ := h.spec
  obtain ⟨more, rfl⟩ := hpart
  have hresumable := onMessage_lawful.resumable
  cases hstage : Net.onMessage.stage .reSet part with
  | wait context' rest =>
    have happend := (hresumable.wait open_reSet hstage).2
    exact ⟨context', rest, rfl, fun x => (happend x).symm⟩
  | done context' rest =>
    have hdone := (hresumable.done open_reSet hstage).2.2 more
    rw [hparse] at hdone
    have hmore := (Framer.Outcome.done.inj hdone).2
    have hnil : more = [] := (List.append_eq_nil_iff.mp hmore.symm).2
    exact absurd (by rw [hnil, List.append_nil]) hcut
  | fail e =>
    have hfail := hresumable.fail open_reSet hstage more
    rw [hparse] at hfail
    cases hfail

theorem messageCallback_wait (conn : Connection) {context : HttpContext} {rest : Bytes}
    (hne : conn.inBuffer ≠ [])
    (h : Net.onMessage.stage conn.context conn.inBuffer = .wait context rest) :
    conn.messageCallback server = some { conn with context := context, inBuffer := rest } :=
  Connection.onMessage_wait hne h

theorem shutdownInLoop_empty (callback : Connection → Option Connection) (conn : Connection)
    (hempty : conn.inBuffer = []) (hterm : conn.terminated = false) :
    ∃ conn', Connection.shutdownInLoop callback conn = some conn' ∧
      conn'.statu = .disconnecting ∧ conn'.terminated = false ∧ conn'.inBuffer = [] ∧
      conn'.outBuffer = conn.outBuffer := by
  simp only [Connection.shutdownInLoop, hempty, ne_eq, not_true_eq_false, if_false, Option.map_some,
    hterm, Bool.false_eq_true]
  split
  · exact ⟨_, rfl, rfl, rfl, rfl, rfl⟩
  · exact ⟨_, rfl, rfl, rfl, rfl, rfl⟩

/-- **The callback answers the request** and shuts the connection down. -/
theorem messageCallback_done (conn : Connection) {context : HttpContext} {rsp : HttpResponse}
    (hne : conn.inBuffer ≠ []) (hstatu : conn.statu ≠ .disconnected)
    (hterm : conn.terminated = false)
    (h : Net.onMessage.stage conn.context conn.inBuffer = .done context [])
    (hanswer : server.answer context.request = .ok rsp)
    (hclose : (server.completeHeaders context.request rsp).close = true) :
    ∃ conn', conn.messageCallback server = some conn' ∧ conn'.statu = .disconnecting ∧
      conn'.terminated = false ∧ conn'.inBuffer = [] ∧
      conn'.outBuffer = conn.outBuffer ++ SiteServer.responseText context.request
        (server.completeHeaders context.request rsp) := by
  have hcall : callOutcome (conn.context.recvHttpRequest conn.inBuffer) = .done context [] := h
  let mid := conn.answer context.request (server.completeHeaders context.request rsp) []
  have hmid : mid.terminated = false := (Connection.terminated_answer conn _ _ _).trans hterm
  have hout : mid.outBuffer = conn.outBuffer ++ SiteServer.responseText context.request
      (server.completeHeaders context.request rsp) := by
    show (conn.send _).outBuffer = _
    rw [Connection.send, if_neg hstatu]
  obtain ⟨conn', hshut, hstatu', hterm', hempty, hout'⟩ := shutdownInLoop_empty
    (Connection.onMessage server (conn.inBuffer.length + 1)) mid rfl hmid
  refine ⟨conn', ?_, hstatu', hterm', hempty, hout'.trans hout⟩
  rw [Connection.messageCallback, Connection.onMessage, if_neg hne, hcall]
  simp only [hanswer, hclose, if_true, mid, hshut, Option.bind_some, hterm', Bool.false_eq_true,
    if_false]
  exact Connection.onMessage_empty (Nat.succ_pos _) hempty

/-! ## 3. What each event does

One lemma for each kind of event, and the step is put together from them.  A run is then an
induction on its events. -/

/-- More of the request arrives while the rest is awaited. -/
theorem phase_read (h : Serves server request response) {conn : Connection} {arrived : Bytes}
    (chunk : Bytes)
    (hstatu : conn.statu = .connected) (hterm : conn.terminated = false)
    (hout : conn.outBuffer = [])
    (hresumes : ∀ x, Net.onMessage.stage conn.context (conn.inBuffer ++ x) =
      Net.onMessage.stage .reSet (arrived ++ x))
    (hbegins : arrived ++ chunk <+: request) (hne : conn.inBuffer ++ chunk ≠ []) :
    ∃ conn', Connection.messageCallback server { conn with inBuffer := conn.inBuffer ++ chunk } =
      some conn' ∧ Phase request response ⟨conn', arrived ++ chunk, []⟩ := by
  by_cases hcut : arrived ++ chunk = request
  · obtain ⟨context, rsp, hparse, hanswer, hclose, rfl⟩ := h.spec
    have hstage : Net.onMessage.stage conn.context (conn.inBuffer ++ chunk) = .done context [] := by
      rw [hresumes, hcut, hparse]
    obtain ⟨conn', hcallback, hstatu', hterm', hempty, hout'⟩ := messageCallback_done
      { conn with inBuffer := conn.inBuffer ++ chunk } hne
      (fun hdis => by cases hstatu.symm.trans hdis) hterm hstage hanswer hclose
    refine ⟨conn', hcallback, .answered hstatu' hterm' hempty hcut ?_⟩
    rw [List.nil_append, hout', hout, List.nil_append]
  · obtain ⟨context, rest, hwait, hresume⟩ := h.waits hbegins hcut
    have hstage : Net.onMessage.stage conn.context (conn.inBuffer ++ chunk) =
        .wait context rest := (hresumes chunk).trans hwait
    exact ⟨_, messageCallback_wait
      { conn with inBuffer := conn.inBuffer ++ chunk } hne hstage,
      .waiting hstatu hterm hout rfl hcut hresume⟩

/-- The last callback before a connection is given up. -/
theorem phase_lastCallback (h : Serves server request response)
    (hphase : Phase request response t) (hbegins : t.arrived <+: request) :
    ∃ conn', t.conn.lastCallback server = some conn' ∧
      Phase request response ⟨conn', t.arrived, t.left⟩ := by
  cases hphase with
  | waiting hstatu hterm hout hleft hcut hresumes =>
    by_cases hne : t.conn.inBuffer = []
    · refine ⟨t.conn, ?_, .waiting hstatu hterm hout hleft hcut hresumes⟩
      rw [Connection.lastCallback, if_neg (fun hboth => hboth.1 hne)]
    · obtain ⟨conn', hcallback, hphase'⟩ := phase_read h [] hstatu hterm hout
        hresumes (by rw [List.append_nil]; exact hbegins) (by rw [List.append_nil]; exact hne)
      rw [List.append_nil] at hcallback hphase'
      refine ⟨conn', ?_, hleft ▸ hphase'⟩
      rw [Connection.lastCallback, if_pos ⟨hne, fun hdis => by cases hstatu.symm.trans hdis⟩]
      exact hcallback
  | answered hstatu hterm hempty harrived hleft =>
    refine ⟨t.conn, ?_, .answered hstatu hterm hempty harrived hleft⟩
    rw [Connection.lastCallback, if_neg (fun hboth => hboth.1 hempty)]
  | gone hstatu hterm harrived hleft =>
    refine ⟨t.conn, ?_, .gone hstatu hterm harrived hleft⟩
    rw [Connection.lastCallback, if_neg (fun hboth => hboth.2 hstatu)]

/-- A release that is put on the queue changes no phase. -/
theorem Phase.release (h : Phase request response t) :
    Phase request response ⟨t.conn.release, t.arrived, t.left⟩ := by
  cases h with
  | waiting hstatu hterm hout hleft hcut hresumes =>
    exact .waiting hstatu hterm hout hleft hcut hresumes
  | answered hstatu hterm hempty harrived hleft =>
    exact .answered hstatu hterm hempty harrived hleft
  | gone hstatu hterm harrived hleft => exact .gone hstatu hterm harrived hleft

theorem Phase.terminated (h : Phase request response t) : t.conn.terminated = false := by
  cases h <;> assumption

/-- What is taken from the buffer has left. -/
theorem phase_write (h : Phase request response t) (taken : Nat) :
    Phase request response ⟨{ t.conn with outBuffer := t.conn.outBuffer.drop taken }, t.arrived,
      t.left ++ t.conn.outBuffer.take taken⟩ := by
  have htaken : (t.left ++ t.conn.outBuffer.take taken) ++ t.conn.outBuffer.drop taken =
      t.left ++ t.conn.outBuffer := by
    rw [List.append_assoc, List.take_append_drop]
  cases h with
  | waiting hstatu hterm hout hleft hcut hresumes =>
    refine .waiting hstatu hterm ?_ ?_ hcut hresumes
    · rw [hout, List.drop_nil]
    · rw [hout, hleft, List.take_nil]
      rfl
  | answered hstatu hterm hempty harrived hleft =>
    exact .answered hstatu hterm hempty harrived (htaken.trans hleft)
  | gone hstatu hterm harrived hleft =>
    refine .gone hstatu hterm (fun hne => harrived ?_) ?_
    · rw [← htaken]
      exact hne
    · rw [htaken]
      exact hleft

/-- A connection that is released is gone. -/
theorem Phase.released (h : Phase request response t) : Phase request response
    ⟨{ t.conn with statu := .disconnected, releasing := false }, t.arrived, t.left⟩ := by
  cases h with
  | waiting hstatu hterm hout hleft hcut hresumes =>
    have hnil : t.left ++ t.conn.outBuffer = [] := by
      rw [hout, hleft]
      rfl
    refine .gone rfl hterm (fun hne => absurd hnil hne) ?_
    rw [hnil]
    exact List.nil_prefix
  | answered hstatu hterm hempty harrived hleft =>
    exact .gone rfl hterm (fun _ => harrived) (hleft ▸ List.prefix_refl _)
  | gone hstatu hterm harrived hleft => exact .gone rfl hterm harrived hleft

/-- An event that neither brings nor takes anything. -/
theorem Phase.append_nil {conn : Connection} {arrived left : Bytes}
    (h : Phase request response ⟨conn, arrived, left⟩) :
    Phase request response ⟨conn, arrived ++ [], left ++ []⟩ := by
  rw [List.append_nil, List.append_nil]
  exact h

/-- **What a step keeps**: the exchange is in one of its phases, as long as nothing arrives that is
not of the request. -/
theorem phase_step (h : Serves server request response) (hphase : Phase request response t)
    {e : Connection.Event} (hstep : t.step server e = some t') (hbegins : t'.arrived <+: request) :
    Phase request response t' := by
  obtain ⟨conn', hconn, rfl⟩ := Option.map_eq_some_iff.mp hstep
  have hterm : ¬ t.conn.terminated = true := by
    rw [hphase.terminated]
    decide
  have hbefore : t.arrived <+: request := (List.prefix_append _ _).trans hbegins
  cases e with
  | read chunk =>
    rw [Connection.step, if_neg hterm] at hconn
    dsimp only at hconn
    simp only [Connection.Event.brings, Connection.Event.takes, List.append_nil] at hbegins ⊢
    cases hphase with
    | waiting hstatu hterm hout hleft hcut hresumes =>
      by_cases hne : t.conn.inBuffer ++ chunk = []
      · rw [if_neg (fun hboth => hboth.1 hne)] at hconn
        obtain ⟨hbuffer, rfl⟩ := List.append_eq_nil_iff.mp hne
        obtain rfl := Option.some.inj hconn
        have hcut' : t.arrived ++ [] ≠ request := by
          rw [List.append_nil]
          exact hcut
        refine .waiting hstatu hterm hout hleft hcut' fun x => ?_
        rw [List.append_nil, List.append_nil]
        exact hresumes x
      · obtain ⟨conn₁, hcallback, hphase'⟩ :=
          phase_read h chunk hstatu hterm hout hresumes hbegins hne
        rw [if_pos ⟨hne, fun hdis => (by cases hstatu.symm.trans hdis),
          fun hdis => (by cases hstatu.symm.trans hdis)⟩] at hconn
        obtain rfl := Option.some.inj (hcallback.symm.trans hconn)
        rw [hleft]
        exact hphase'
    | answered hstatu hterm hempty harrived hleft =>
      obtain rfl : chunk = [] := by
        rw [harrived] at hbegins
        have hlength := hbegins.length_le
        rw [List.length_append] at hlength
        exact List.eq_nil_of_length_eq_zero (by omega)
      rw [if_neg (fun hboth => hboth.2.2 hstatu)] at hconn
      obtain rfl := Option.some.inj hconn
      exact .answered hstatu hterm ((List.append_nil _).trans hempty)
        ((List.append_nil _).trans harrived) hleft
    | gone hstatu hterm harrived hleft =>
      rw [if_neg (fun hboth => hboth.2.1 hstatu)] at hconn
      obtain rfl := Option.some.inj hconn
      refine .gone hstatu hterm (fun hne => ?_) hleft
      have hfull : t.arrived = request := harrived hne
      rw [hfull] at hbegins ⊢
      exact (hbegins.eq_of_length_le (by rw [List.length_append]; omega))
  | readFails =>
    rw [Connection.step, if_neg hterm] at hconn
    obtain rfl := Option.some.inj hconn
    exact hphase.release.append_nil
  | hangup =>
    rw [Connection.step, if_neg hterm] at hconn
    obtain ⟨conn₁, hlast, hphase'⟩ := phase_lastCallback h hphase hbefore
    rw [hlast, Option.map_some] at hconn
    obtain rfl := Option.some.inj hconn
    exact hphase'.release.append_nil
  | write taken =>
    rw [Connection.step] at hconn
    split at hconn
    · cases hconn
    · have hwritten := phase_write hphase taken
      dsimp only at hconn
      simp only [Connection.Event.brings, Connection.Event.takes, List.append_nil]
      split at hconn
      · obtain rfl := Option.some.inj hconn
        exact hwritten.release
      · obtain rfl := Option.some.inj hconn
        exact hwritten
  | writeFails =>
    rw [Connection.step, if_neg hterm] at hconn
    obtain ⟨conn₁, hlast, hphase'⟩ := phase_lastCallback h hphase hbefore
    rw [hlast, Option.map_some] at hconn
    obtain rfl := Option.some.inj hconn
    exact hphase'.release.append_nil
  | inactive =>
    rw [Connection.step, if_neg hterm] at hconn
    obtain rfl := Option.some.inj hconn
    exact hphase.release.append_nil
  | released =>
    rw [Connection.step] at hconn
    split at hconn
    · cases hconn
    · obtain rfl := Option.some.inj hconn
      exact hphase.released.append_nil

theorem phase_opened (h : Serves server request response) :
    Phase request response Traffic.opened := by
  obtain ⟨context, rsp, hparse, -, -, -⟩ := h.spec
  have hne : request ≠ [] := List.ne_nil_of_length_pos
    (Nat.lt_of_le_of_lt (Nat.zero_le _) (onMessage_lawful.consumes hparse))
  exact .waiting rfl rfl rfl rfl hne.symm fun x => rfl

/-- **What a run keeps**, if nothing else arrives. -/
theorem phase_of_run (h : Serves server request response) {events : List Connection.Event}
    (hrun : exec (Traffic.step server) .opened events = some t) (hbegins : t.arrived <+: request) :
    Phase request response t := by
  refine exec_invariant (I := fun t : Traffic => t.arrived <+: request → Phase request response t)
    ?_ (fun _ => phase_opened h) hrun hbegins
  intro t e t' hphase hstep hbegins'
  have hmore : t.arrived <+: t'.arrived := by
    obtain ⟨conn', -, rfl⟩ := Option.map_eq_some_iff.mp hstep
    exact List.prefix_append _ _
  exact phase_step h (hphase (hmore.trans hbegins')) hstep hbegins'

/-- **What leaves is the beginning of the response**, and as long as the request is incomplete
nothing does. -/
theorem Phase.left_begins (h : Phase request response t) :
    t.left <+: response ∧ (t.left ≠ [] → t.arrived = request) := by
  cases h with
  | waiting hstatu hterm hout hleft hcut hresumes =>
    rw [hleft]
    exact ⟨List.nil_prefix, fun hne => absurd rfl hne⟩
  | answered hstatu hterm hempty harrived hleft =>
    exact ⟨hleft ▸ List.prefix_append _ _, fun _ => harrived⟩
  | gone hstatu hterm harrived hleft =>
    refine ⟨(List.prefix_append _ _).trans hleft, fun hne => harrived ?_⟩
    exact List.append_ne_nil_of_left_ne_nil hne _

/-- There is a run in which the whole response leaves. -/
theorem exists_served (h : Serves server request response) :
    ∃ t, exec (Traffic.step server) .opened [.read request, .write response.length] = some t ∧
      t.arrived = request ∧ t.left = response := by
  obtain ⟨context, rsp, hparse, hanswer, hclose, hresponse⟩ := h.spec
  have hne : request ≠ [] := List.ne_nil_of_length_pos
    (Nat.lt_of_le_of_lt (Nat.zero_le _) (onMessage_lawful.consumes hparse))
  obtain ⟨conn, hcallback, -, hterm, -, hout⟩ := messageCallback_done
    { Connection.established with inBuffer := request } hne
    (show ConnStatu.connected ≠ .disconnected by decide) rfl hparse hanswer hclose
  have hout' : conn.outBuffer = response := hout.trans hresponse.symm
  have hread : Traffic.step server .opened (.read request) = some ⟨conn, request, []⟩ := by
    have hstep : Connection.step server .established (.read request) = some conn := by
      rw [Connection.step, if_neg (by decide)]
      dsimp only
      rw [if_pos ⟨hne, by decide, by decide⟩]
      exact hcallback
    rw [Traffic.step, Traffic.opened, hstep]
    rfl
  obtain ⟨conn', hwrite⟩ : ∃ conn', Connection.step server conn (.write response.length) =
      some conn' := by
    have hcan : ¬ (conn.terminated = true ∨ conn.outBuffer.length < response.length) := by
      rw [hterm, hout']
      simp
    rw [Connection.step, if_neg hcan]
    dsimp only
    split <;> exact ⟨_, rfl⟩
  refine ⟨⟨conn', request, response⟩, ?_, rfl, rfl⟩
  refine (exec_cons_eq_some _).mpr ⟨_, hread, (exec_cons_eq_some _).mpr ⟨_, ?_, rfl⟩⟩
  have htakes : Connection.Event.takes conn (.write response.length) = response := by
    rw [Connection.Event.takes, hout', List.take_length]
  rw [Traffic.step, hwrite, Option.map_some, htakes, List.nil_append]
  simp only [Connection.Event.brings, List.append_nil]

end

/-! ## 4. A response that closes

The condition of `Serves` on the response, for a request that says `Connection: close`. -/

/-- `SetHeader` keeps a field that is there. -/
theorem find?_setHeader_of_some {rsp : HttpResponse} {name val : Bytes}
    (h : rsp.headers.find? name = some val) (key val' : Bytes) :
    (rsp.setHeader key val').headers.find? name = some val := by
  show (rsp.headers.insert key val').find? name = some val
  by_cases hnew : rsp.headers.find? key = none
  · have hname : name ≠ key := by
      rintro rfl
      rw [h] at hnew
      cases hnew
    rw [StrMap.find?_insert hnew, if_neg hname, h]
  · rw [StrMap.insert, dif_neg hnew, h]

/-- **The response to a request that closes the connection closes it**, if no handler and no
default says otherwise. -/
theorem close_completeHeaders {ε : Type} {server : SiteServer ε} {req : HttpRequest}
    {rsp : HttpResponse} (hreq : req.close = true)
    (hdefaults : server.defaultHeaders.entries = [])
    (hrsp : rsp.headers.find? (ascii "Connection") = none) :
    (server.completeHeaders req rsp).close = true := by
  have hfind : (server.completeHeaders req rsp).headers.find? (ascii "Connection") =
      some (ascii "close") := by
    unfold SiteServer.completeHeaders
    simp only [hdefaults, List.foldl_nil, hreq, if_true]
    have hset : (rsp.setHeader (ascii "Connection") (ascii "close")).headers.find?
        (ascii "Connection") = some (ascii "close") := by
      show (rsp.headers.insert _ _).find? _ = _
      rw [StrMap.find?_insert hrsp, if_pos rfl]
    have hkeep : ∀ {rsp' : HttpResponse} {p : Prop} [Decidable p] (key val : Bytes),
        rsp'.headers.find? (ascii "Connection") = some (ascii "close") →
        (if p then rsp'.setHeader key val else rsp').headers.find? (ascii "Connection") =
          some (ascii "close") := by
      intro rsp' p _ key val h
      split
      · exact find?_setHeader_of_some h key val
      · exact h
    exact hkeep _ _ (hkeep _ _ (hkeep _ _ hset))
  rw [HttpResponse.close, hfind]
  decide

end OnlineJudge.Net
