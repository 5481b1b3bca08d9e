/-
# What is disconnected stays disconnected, unless it is shut down

`ReleaseInLoop` sets the state of a connection to `DISCONNECTED`, takes its channel out of the
poller, closes the socket and calls the two closed callbacks.  The other functions look at the
state before they do anything: `SendInLoop` returns, `ReleaseInLoop` returns, `EstablishedInLoop`
asserts.  `ShutdownInLoop` does not.  It sets `DISCONNECTING` first and checks for `DISCONNECTED`
after that, so on a connection that has been released it brings the state back, and what follows
registers the channel again or releases the connection a second time.

`disconnected_final_iff`: over every run, `DISCONNECTED` is final exactly when `ShutdownInLoop`
does not run in that state.
-/
import OnlineJudge.Muduo.Connection

namespace OnlineJudge.Muduo

/-! ## 1. What the functions do to the state and to the records

Most functions leave both alone, and one lemma says so for all of them.  What is left is the
release, in two halves, and the operations that look at the state first. -/

namespace Connection

/-- The state of the connection and the records are left alone, and the second half of
`ReleaseInLoop` is not on the way. -/
structure SameLife (conn : Connection) (e : Effect) : Prop where
  statu : e.conn.statu = conn.statu
  closedCalls : e.conn.closedCalls = conn.closedCalls
  serverClosedCalls : e.conn.serverClosedCalls = conn.serverClosedCalls
  frames : .serverClosed ∉ e.frames

theorem sameLife_handleClose (conn : Connection) : conn.SameLife conn.handleClose := by
  unfold handleClose
  split
  · exact ⟨rfl, rfl, rfl, by simp⟩
  · exact ⟨rfl, rfl, rfl, by simp⟩

theorem sameLife_handleRead (conn : Connection) (received : Option Bytes) :
    conn.SameLife (conn.handleRead received) := by
  cases received with
  | none => exact ⟨rfl, rfl, rfl, by simp [handleRead]⟩
  | some buf =>
    simp only [handleRead]
    split
    · exact ⟨rfl, rfl, rfl, by simp⟩
    · exact ⟨rfl, rfl, rfl, by simp⟩

theorem sameLife_handleWrite (conn : Connection) (sent : Option Nat) :
    conn.SameLife (conn.handleWrite sent) := by
  cases sent with
  | none => exact sameLife_handleClose conn
  | some ret =>
    simp only [handleWrite]
    split
    · exact ⟨rfl, rfl, rfl, by simp⟩
    · exact ⟨rfl, rfl, rfl, by simp⟩

theorem sameLife_shutdownRest (conn : Connection) : conn.SameLife conn.shutdownRest := by
  unfold shutdownRest
  split
  · split
    · exact ⟨rfl, rfl, rfl, by simp⟩
    · exact ⟨rfl, rfl, rfl, by simp⟩
  · exact ⟨rfl, rfl, rfl, by simp⟩

/-- Every frame but the second half of `ReleaseInLoop`. -/
theorem sameLife_resume {conn : Connection} {frame : Frame} {io : Io} {e : Effect}
    (h : conn.resume frame io = some e) (hframe : frame ≠ .serverClosed) : conn.SameLife e := by
  unfold resume at h
  split at h
  · exact Option.some.inj h ▸ sameLife_handleRead conn _
  · exact Option.some.inj h ▸ sameLife_handleWrite conn _
  · exact Option.some.inj h ▸ sameLife_handleClose conn
  · exact Option.some.inj h ▸ sameLife_handleClose conn
  · exact Option.some.inj h ▸ ⟨rfl, rfl, rfl, by simp [handleEvent]⟩
  · exact Option.some.inj h ▸ ⟨rfl, rfl, rfl, by simp⟩
  · exact Option.some.inj h ▸ sameLife_shutdownRest conn
  · exact absurd rfl hframe
  · cases h

/-- An operation that is not `Release`, on a connection that has not been released. -/
theorem inLoop_of_live {conn : Connection} {op : Op} {e : Effect} (h : conn.inLoop op = some e)
    (hop : op ≠ .release) (hlive : conn.statu ≠ .disconnected) :
    e.conn.statu ≠ .disconnected ∧ e.conn.closedCalls = conn.closedCalls ∧
      e.conn.serverClosedCalls = conn.serverClosedCalls ∧ .serverClosed ∉ e.frames := by
  cases op with
  | established =>
    simp only [inLoop, establishedInLoop] at h
    split at h
    · exact Option.some.inj h ▸ ⟨by simp, rfl, rfl, by simp⟩
    · cases h
  | send data =>
    obtain rfl := Option.some.inj h
    simp only [sendInLoop, if_neg hlive]
    split
    · exact ⟨hlive, rfl, rfl, by simp⟩
    · exact ⟨hlive, rfl, rfl, by simp⟩
  | shutdown =>
    obtain rfl := Option.some.inj h
    simp only [shutdownInLoop]
    split
    · exact ⟨by simp, rfl, rfl, by simp⟩
    · have hrest := sameLife_shutdownRest { conn with statu := .disconnecting }
      exact ⟨by simp [hrest.statu], hrest.closedCalls, hrest.serverClosedCalls, hrest.frames⟩
  | release => exact absurd rfl hop
  | enableInactiveRelease => exact Option.some.inj h ▸ ⟨hlive, rfl, rfl, by simp⟩
  | cancelInactiveRelease => exact Option.some.inj h ▸ ⟨hlive, rfl, rfl, by simp⟩

/-- An operation that is not `Shutdown`, on a connection that has been released. -/
theorem inLoop_of_disconnected {conn : Connection} {op : Op} {e : Effect}
    (h : conn.inLoop op = some e) (hop : op ≠ .shutdown) (hgone : conn.statu = .disconnected) :
    e.conn.statu = .disconnected ∧ e.conn.channel = conn.channel ∧
      e.conn.closedCalls = conn.closedCalls ∧
      e.conn.serverClosedCalls = conn.serverClosedCalls ∧ e.frames = [] := by
  cases op with
  | established => simp [inLoop, establishedInLoop, hgone] at h
  | send data =>
    obtain rfl := Option.some.inj h
    simp [sendInLoop, hgone]
  | shutdown => exact absurd rfl hop
  | release =>
    obtain rfl := Option.some.inj h
    simp [releaseInLoop, hgone]
  | enableInactiveRelease => exact Option.some.inj h ▸ ⟨hgone, rfl, rfl, rfl, rfl⟩
  | cancelInactiveRelease => exact Option.some.inj h ▸ ⟨hgone, rfl, rfl, rfl, rfl⟩

theorem releaseInLoop_of_live {conn : Connection} (hlive : conn.statu ≠ .disconnected) :
    conn.releaseInLoop.conn.statu = .disconnected ∧
      conn.releaseInLoop.conn.channel.registered = false ∧
      conn.releaseInLoop.conn.closedCalls = conn.closedCalls + 1 ∧
      conn.releaseInLoop.conn.serverClosedCalls = conn.serverClosedCalls ∧
      conn.releaseInLoop.frames = [.user, .serverClosed] := by
  simp only [releaseInLoop, if_neg hlive]
  split
  · exact ⟨rfl, rfl, rfl, rfl, trivial⟩
  · exact ⟨rfl, rfl, rfl, rfl, trivial⟩

end Connection

/-! ## 2. The invariant

How often the closed callbacks have been called is tied to the state: not at all before the release,
and once from then on.  A late shutdown is what this does not survive. -/

namespace ConnLoop

open Connection

/-- A connection that has been released is out of the poller, and the closed callbacks have been
called once, or will be; one that has not been released has not seen them. -/
structure Accounted (s : ConnLoop) : Prop where
  gone : s.conn.statu = .disconnected →
    s.conn.channel.registered = false ∧ s.conn.closedCalls = 1 ∧
      s.conn.serverClosedCalls + s.stack.count .serverClosed ≤ 1 ∧
      ∀ frame ∈ s.stack, frame = .user ∨ frame = .serverClosed
  live : s.conn.statu ≠ .disconnected →
    s.conn.closedCalls = 0 ∧ s.conn.serverClosedCalls = 0 ∧ .serverClosed ∉ s.stack

theorem accounted_initial : initial.Accounted := ⟨nofun, fun _ => ⟨rfl, rfl, List.not_mem_nil⟩⟩

/-- `ShutdownInLoop` runs on a connection that has been released: called by the user in the loop, or
as a task that was still in the queue. -/
def LateShutdown (s : ConnLoop) (a : Action) : Prop :=
  s.conn.statu = .disconnected ∧
    (a = .call .loop .shutdown ∨ (a = .execute ∧ s.functor.head? = some .shutdown))

instance (s : ConnLoop) (a : Action) : Decidable (s.LateShutdown a) :=
  inferInstanceAs (Decidable (_ ∧ _))

theorem serverClosed_notMem_handleEvent (revents : REvents) :
    .serverClosed ∉ Channel.handleEvent revents := by
  unfold Channel.handleEvent
  split_ifs <;> simp

/-- An effect that keeps a live connection alive. -/
theorem Accounted.apply_live {s : ConnLoop} {e : Effect} {rest : List Frame} (h : s.Accounted)
    (hlive : s.conn.statu ≠ .disconnected) (hstatu : e.conn.statu ≠ .disconnected)
    (hclosed : e.conn.closedCalls = s.conn.closedCalls)
    (hserver : e.conn.serverClosedCalls = s.conn.serverClosedCalls)
    (hframes : .serverClosed ∉ e.frames) (hrest : rest ⊆ s.stack) :
    (s.apply e rest).Accounted := by
  obtain ⟨hclosed₀, hserver₀, hstack⟩ := h.live hlive
  refine ⟨fun hgone => absurd hgone hstatu, fun _ => ⟨hclosed.trans hclosed₀,
    hserver.trans hserver₀, ?_⟩⟩
  intro hmem
  rcases List.mem_append.mp hmem with hmem | hmem
  · exact hframes hmem
  · exact hstack (hrest hmem)

/-- An operation that is carried out, over the whole stack. -/
theorem Accounted.inLoop {s : ConnLoop} {op : Op} {e : Effect} (h : s.Accounted)
    (he : s.conn.inLoop op = some e) (hop : op = .release → s.stack = [])
    (hshutdown : op = .shutdown → s.conn.statu ≠ .disconnected) :
    (s.apply e s.stack).Accounted := by
  by_cases hgone : s.conn.statu = .disconnected
  · obtain ⟨hregistered, hclosed, hserver, hstack⟩ := h.gone hgone
    obtain ⟨hstatu, hchannel, hclosed', hserver', hframes⟩ :=
      inLoop_of_disconnected he (fun hop => hshutdown hop hgone) hgone
    refine ⟨fun _ => ?_, fun hlive => absurd hstatu hlive⟩
    simp only [apply, hframes, List.nil_append]
    exact ⟨hchannel ▸ hregistered, hclosed'.trans hclosed, hserver' ▸ hserver, hstack⟩
  · by_cases hrelease : op = .release
    · subst hrelease
      obtain rfl := Option.some.inj he
      obtain ⟨hclosed, hserver, -⟩ := h.live hgone
      obtain ⟨hstatu, hregistered, hclosed', hserver', hframes⟩ := releaseInLoop_of_live hgone
      refine ⟨fun _ => ?_, fun hlive => absurd hstatu hlive⟩
      simp only [apply, hframes, hop rfl, List.append_nil]
      exact ⟨hregistered, by rw [hclosed', hclosed], by rw [hserver', hserver]; decide, by simp⟩
    · obtain ⟨hstatu, hclosed', hserver', hframes⟩ := inLoop_of_live he hrelease hgone
      exact h.apply_live hgone hstatu hclosed' hserver' hframes (List.Subset.refl _)

theorem Accounted.queue {s : ConnLoop} (h : s.Accounted) (op : Op) : (s.queue op).Accounted :=
  ⟨h.gone, h.live⟩

theorem Accounted.step {s s' : ConnLoop} {a : Action} (h : s.Accounted) (ha : ¬ s.LateShutdown a)
    (hs : s.step a = some s') : s'.Accounted := by
  cases step_moves hs with
  | ready revents hidle hregistered =>
    have hlive : s.conn.statu ≠ .disconnected := by
      intro hgone
      rw [(h.gone hgone).1] at hregistered
      cases hregistered
    obtain ⟨hclosed, hserver, -⟩ := h.live hlive
    exact ⟨fun hgone => absurd hgone hlive,
      fun _ => ⟨hclosed, hserver, serverClosed_notMem_handleEvent revents⟩⟩
  | resume io frame rest e hstack hio he =>
    by_cases hframe : frame = .serverClosed
    · subst hframe
      have hgone : s.conn.statu = .disconnected := by
        by_contra hlive
        exact (h.live hlive).2.2 (hstack ▸ List.mem_cons_self)
      obtain ⟨hregistered, hclosed, hserver, hframes⟩ := h.gone hgone
      rw [hstack, List.count_cons_self] at hserver
      cases io with
      | nothing =>
        obtain rfl := Option.some.inj he
        refine ⟨fun _ => ⟨hregistered, hclosed, ?_, ?_⟩, fun hlive => absurd hgone hlive⟩
        · simp only [apply, List.nil_append]
          omega
        · intro frame hmem
          exact hframes frame (hstack ▸ List.mem_cons_of_mem _ hmem)
      | recv | send => cases he
    · have hsame := sameLife_resume he hframe
      have hlive : s.conn.statu ≠ .disconnected := by
        intro hgone
        rcases (h.gone hgone).2.2.2 frame (hstack ▸ List.mem_cons_self) with rfl | rfl
        · cases io <;> cases he
        · exact hframe rfl
      exact h.apply_live hlive (hsame.statu ▸ hlive) hsame.closedCalls hsame.serverClosedCalls
        hsame.frames (hstack ▸ List.subset_cons_self frame rest)
  | consume => exact ⟨h.gone, h.live⟩
  | finish rest hstack =>
    refine ⟨fun hgone => ?_, fun hlive => ?_⟩
    · obtain ⟨hregistered, hclosed, hserver, hframes⟩ := h.gone hgone
      rw [hstack, List.count_cons_of_ne (by decide)] at hserver
      exact ⟨hregistered, hclosed, hserver,
        fun frame hmem => hframes frame (hstack ▸ List.mem_cons_of_mem _ hmem)⟩
    · obtain ⟨hclosed, hserver, hframes⟩ := h.live hlive
      exact ⟨hclosed, hserver, fun hmem => hframes (hstack ▸ List.mem_cons_of_mem _ hmem)⟩
  | call op e huser hop he =>
    have hmid : ({ s with sent := s.sent ++ op.data } : ConnLoop).Accounted := ⟨h.gone, h.live⟩
    refine hmid.inLoop he (fun hrelease => absurd hrelease hop) ?_
    rintro rfl hgone
    exact ha ⟨hgone, Or.inl rfl⟩
  | callRelease | callOther => exact h.queue _
  | expire | expireCanceled | swap => exact ⟨h.gone, h.live⟩
  | execute op functor e hstack hfunctor he =>
    have hmid : ({ s with functor := functor } : ConnLoop).Accounted := ⟨h.gone, h.live⟩
    have hrun := hmid.inLoop he (fun _ => hstack) ?_
    · rwa [show ({ s with functor := functor } : ConnLoop).stack = [] from hstack] at hrun
    · rintro rfl hgone
      exact ha ⟨hgone, Or.inr ⟨rfl, by rw [hfunctor]; rfl⟩⟩

/-- Nothing but a late shutdown brings the state back. -/
theorem disconnected_step {s s' : ConnLoop} {a : Action} (h : s.Accounted)
    (hgone : s.conn.statu = .disconnected) (ha : ¬ s.LateShutdown a)
    (hs : s.step a = some s') : s'.conn.statu = .disconnected := by
  cases step_moves hs with
  | resume io frame rest e hstack hio he =>
    rcases (h.gone hgone).2.2.2 frame (hstack ▸ List.mem_cons_self) with rfl | rfl
    · cases io <;> cases he
    · cases io with
      | nothing => exact Option.some.inj he ▸ hgone
      | recv | send => cases he
  | call op e huser hop he =>
    refine (inLoop_of_disconnected he ?_ hgone).1
    rintro rfl
    exact ha ⟨hgone, Or.inl rfl⟩
  | execute op functor e hstack hfunctor he =>
    refine (inLoop_of_disconnected he ?_ hgone).1
    rintro rfl
    exact ha ⟨hgone, Or.inr ⟨rfl, by rw [hfunctor]; rfl⟩⟩
  | ready | consume | finish | callRelease | callOther | expire | expireCanceled | swap =>
    exact hgone

theorem statu_shutdownInLoop (conn : Connection) :
    conn.shutdownInLoop.conn.statu = .disconnecting := by
  simp only [shutdownInLoop]
  split
  · rfl
  · exact (sameLife_shutdownRest { conn with statu := .disconnecting }).statu

/-- A late shutdown does break it: the state of a connection that was released is `disconnecting`
again. -/
theorem lateShutdown_step {s s' : ConnLoop} {a : Action} (ha : s.LateShutdown a)
    (hs : s.step a = some s') : s'.conn.statu = .disconnecting := by
  obtain ⟨-, rfl | ⟨rfl, hhead⟩⟩ := ha
  · cases step_moves hs with
    | call op e huser hop he =>
      obtain rfl := Option.some.inj he
      exact statu_shutdownInLoop s.conn
  · cases step_moves hs with
    | execute op functor e hstack hfunctor he =>
      rw [hfunctor] at hhead
      obtain rfl : op = .shutdown := Option.some.inj hhead
      obtain rfl := Option.some.inj he
      exact statu_shutdownInLoop s.conn

/-! ## 3. Over every run

Both directions: without a late shutdown the invariant holds to the end, and a late shutdown breaks
the property at once. -/

/-- `DISCONNECTED` is final in a run: from the first state that has it on, the state of the
connection stays and its channel is not in the poller; and each closed callback is called at most
once. -/
structure DisconnectedFinal (as : List Action) : Prop where
  final : ∀ bs cs s t, bs ++ cs <+: as → Transition.exec step initial bs = some s →
    Transition.exec step s cs = some t → s.conn.statu = .disconnected →
    t.conn.statu = .disconnected ∧ t.conn.channel.registered = false
  once : ∀ bs s, bs <+: as → Transition.exec step initial bs = some s →
    s.conn.closedCalls ≤ 1 ∧ s.conn.serverClosedCalls ≤ 1

/-- No step of a run is a late shutdown. -/
def NoLateShutdown (as : List Action) : Prop :=
  Transition.Along step (fun s a => ¬ s.LateShutdown a) initial as

instance (as : List Action) : Decidable (NoLateShutdown as) :=
  inferInstanceAs (Decidable (Transition.Along _ _ _ _))

theorem Accounted.once {s : ConnLoop} (h : s.Accounted) :
    s.conn.closedCalls ≤ 1 ∧ s.conn.serverClosedCalls ≤ 1 := by
  by_cases hgone : s.conn.statu = .disconnected
  · obtain ⟨-, hclosed, hserver, -⟩ := h.gone hgone
    omega
  · obtain ⟨hclosed, hserver, -⟩ := h.live hgone
    omega

theorem accounted_of_run {as : List Action} {s : ConnLoop} (h : NoLateShutdown as)
    (hrun : Transition.exec step initial as = some s) : s.Accounted :=
  Transition.exec_invariant_along (fun _ _ _ hi ha hs => Accounted.step hi ha hs)
    accounted_initial h hrun

theorem disconnectedFinal_of_noLateShutdown {as : List Action} (h : NoLateShutdown as) :
    DisconnectedFinal as := by
  refine ⟨?_, ?_⟩
  · rintro bs cs s t ⟨ds, rfl⟩ hbs hcs hgone
    have hbefore := Transition.along_append step |>.mp (Transition.along_append step |>.mp h).1
    have hboth : t.Accounted ∧ t.conn.statu = .disconnected :=
      Transition.exec_invariant_along
        (I := fun s : ConnLoop => s.Accounted ∧ s.conn.statu = .disconnected)
        (fun s a s' hi ha hs => ⟨hi.1.step ha hs, disconnected_step hi.1 hi.2 ha hs⟩)
        ⟨accounted_of_run hbefore.1 hbs, hgone⟩ (hbefore.2 s hbs) hcs
    exact ⟨hboth.2, (hboth.1.gone hboth.2).1⟩
  · rintro bs s ⟨ds, rfl⟩ hbs
    exact (accounted_of_run (Transition.along_append step |>.mp h).1 hbs).once

theorem noLateShutdown_of_disconnectedFinal {as : List Action} {u : ConnLoop}
    (hrun : Transition.exec step initial as = some u) (h : DisconnectedFinal as) :
    NoLateShutdown as := by
  refine Transition.along_of_at_step step fun bs a cs s hsplit hbs hlate => ?_
  subst hsplit
  obtain ⟨t, ht, -⟩ : ∃ t, s.step a = some t ∧ Transition.exec step t cs = some u := by
    rw [Transition.exec_append, hbs] at hrun
    exact (Transition.exec_cons_eq_some step).mp hrun
  have hfinal := (h.final bs [a] s t ⟨cs, by rw [List.append_assoc, List.singleton_append]⟩ hbs
    ((Transition.exec_cons_eq_some step).mpr ⟨t, ht, rfl⟩) hlate.1).1
  rw [lateShutdown_step hlate ht] at hfinal
  cases hfinal

/-- **`DISCONNECTED` is final exactly when no connection is shut down after its release.**  In any
run, with any calls of the user and of other threads, a connection that is `DISCONNECTED` stays so
and out of the poller, and each closed callback runs at most once, if and only if no step is a late
shutdown. -/
theorem disconnected_final_iff (as : List Action) (u : ConnLoop)
    (hrun : Transition.exec step initial as = some u) :
    DisconnectedFinal as ↔ NoLateShutdown as :=
  ⟨noLateShutdown_of_disconnectedFinal hrun, disconnectedFinal_of_noLateShutdown⟩

/-- The peer closes after the connection is established, and is given what it has asked for. -/
def politeClose : List Action :=
  [.call (.other 0) .established, .swap, .execute, .finish,
    .ready ⟨true, false, false, false, true, false⟩, .resume (.recv none), .resume .nothing,
    .finish, .swap, .execute, .finish, .resume .nothing]

theorem disconnected_final_iff_politeClose : DisconnectedFinal politeClose :=
  (disconnected_final_iff politeClose _ rfl).mpr (by decide)

/-- Another thread calls `Shutdown` when the `ReleaseInLoop` is in the queue. -/
def lateShutdown : List Action :=
  [.call (.other 0) .established, .swap, .execute, .finish,
    .ready ⟨true, false, false, false, true, false⟩, .resume (.recv none), .resume .nothing,
    .finish, .call (.other 1) .shutdown, .swap, .execute, .finish, .resume .nothing, .execute,
    .swap, .execute, .finish, .resume .nothing]

/-- The state comes back, and the closed callbacks are called a second time. -/
theorem not_disconnectedFinal_lateShutdown :
    (∃ u, Transition.exec step initial lateShutdown = some u ∧
      u.conn.closedCalls = 2 ∧ u.conn.serverClosedCalls = 2) ∧
      ¬ DisconnectedFinal lateShutdown := by
  refine ⟨⟨_, rfl, rfl, rfl⟩, fun h => ?_⟩
  have hrevived := (h.final (lateShutdown.take 13) [.execute] _ _ ⟨lateShutdown.drop 14, rfl⟩
    rfl rfl rfl).1
  cases hrevived

end ConnLoop

end OnlineJudge.Muduo
