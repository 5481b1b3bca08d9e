/-
# A client that closes its sending side

A client may send its request, shut down the sending side of its socket and read the response
after that.  The server sees the end of the input: `recv` returns 0, which `Socket::Recv` reports
as -1, and `HandleRead` answers with `Release`.  `ShutdownInLoop` looks at `_out_buffer` before it
does that; `HandleRead` does not.

The release is a task, and the loop calls `Poll` again only after it has executed its tasks.  So
of the bytes that are left, the socket takes what the `HandleWrite` of the same event gives it,
in one `send`, and no others.

* `accepted_of_doomed`: behind that event nothing is accepted any more.
* `half_close_iff`: over every run of the loop, the connection is released after all the bytes
  exactly when the `send` that follows the end of the input takes them at once.
-/
import OnlineJudge.Muduo.Output

namespace OnlineJudge.Muduo

/-! ## 1. What the functions leave to do, and what they hand to the socket

One function hands bytes to the socket, and one reads from it.  Both are called by the event of the
channel alone. -/

/-- The frame does not read and does not write, and so a stack of such frames leaves the socket as
it is. -/
def Frame.OffSocket (frame : Frame) : Prop := frame ≠ .handleRead ∧ frame ≠ .handleWrite

namespace Connection

/-- Only `HandleEvent` of the channel calls `HandleRead` and `HandleWrite`. -/
theorem offSocket_resume {conn : Connection} {frame : Frame} {io : Io} {e : Effect}
    (h : conn.resume frame io = some e) : ∀ frame ∈ e.frames, frame.OffSocket := by
  have hclose : ∀ frame ∈ conn.handleClose.frames, frame.OffSocket := by
    unfold handleClose
    split
    · simp [Frame.OffSocket]
    · simp
  unfold resume at h
  split at h
  · rename_i received
    obtain rfl := Option.some.inj h
    cases received with
    | none => simp [handleRead]
    | some buf =>
      simp only [handleRead]
      split
      · simp [Frame.OffSocket]
      · simp
  · rename_i sent
    obtain rfl := Option.some.inj h
    cases sent with
    | none => exact hclose
    | some ret =>
      simp only [handleWrite]
      split
      · simp
      · simp
  · exact Option.some.inj h ▸ hclose
  · exact Option.some.inj h ▸ hclose
  · exact Option.some.inj h ▸ by simp [handleEvent, Frame.OffSocket]
  · exact Option.some.inj h ▸ by simp
  · obtain rfl := Option.some.inj h
    unfold shutdownRest
    split
    · split
      · simp
      · simp
    · simp
  · exact Option.some.inj h ▸ by simp
  · cases h

theorem offSocket_inLoop {conn : Connection} {op : Op} {e : Effect} (h : conn.inLoop op = some e) :
    ∀ frame ∈ e.frames, frame.OffSocket := by
  by_cases hshutdown : op = .shutdown
  · subst hshutdown
    obtain rfl := Option.some.inj h
    simp only [shutdownInLoop]
    split
    · simp [Frame.OffSocket]
    · have hrest : ({ conn with statu := .disconnecting } : Connection).resume .shutdownRest
          .nothing = some ({ conn with statu := .disconnecting } : Connection).shutdownRest := rfl
      exact offSocket_resume hrest
  · by_cases hrelease : op = .release
    · subst hrelease
      obtain rfl := Option.some.inj h
      simp only [releaseInLoop]
      split
      · simp
      · simp [Frame.OffSocket]
    · intro frame hmem
      rw [(callsUser_inLoop h hshutdown hrelease).frames frame hmem]
      exact ⟨by decide, by decide⟩

/-- What the socket accepts when a frame runs: the front of the buffer, when the frame is
`HandleWrite` and its `send` succeeds. -/
theorem accepted_resume {conn : Connection} {frame : Frame} {io : Io} {e : Effect}
    (h : conn.resume frame io = some e) :
    (e.conn.socket.accepted = conn.socket.accepted ∧ ∀ sent, io ≠ .send (some sent)) ∨
      ∃ sent, frame = .handleWrite ∧ io = .send (some sent) ∧
        e.conn.socket.accepted = conn.socket.accepted ++ conn.outBuffer.take sent := by
  have hclose : conn.handleClose.conn = conn := by
    unfold handleClose
    split
    · rfl
    · rfl
  unfold resume at h
  split at h
  · rename_i received
    obtain rfl := Option.some.inj h
    refine Or.inl ⟨?_, by simp⟩
    cases received with
    | none => rfl
    | some buf =>
      simp only [handleRead]
      split
      · rfl
      · rfl
  · rename_i sent
    obtain rfl := Option.some.inj h
    cases sent with
    | none => exact Or.inl ⟨congrArg (·.socket.accepted) hclose, by simp⟩
    | some ret =>
      refine Or.inr ⟨ret, rfl, rfl, ?_⟩
      simp only [handleWrite]
      split
      · rfl
      · rfl
  · exact Option.some.inj h ▸ Or.inl ⟨congrArg (·.socket.accepted) hclose, by simp⟩
  · exact Option.some.inj h ▸ Or.inl ⟨congrArg (·.socket.accepted) hclose, by simp⟩
  · exact Option.some.inj h ▸ Or.inl ⟨rfl, by simp⟩
  · exact Option.some.inj h ▸ Or.inl ⟨rfl, by simp⟩
  · obtain rfl := Option.some.inj h
    refine Or.inl ⟨?_, by simp⟩
    unfold shutdownRest
    split
    · split
      · rfl
      · rfl
    · rfl
  · exact Option.some.inj h ▸ Or.inl ⟨rfl, by simp⟩
  · cases h

theorem accepted_resume_of_ne {conn : Connection} {frame : Frame} {io : Io} {e : Effect}
    (h : conn.resume frame io = some e) (hframe : frame ≠ .handleWrite) :
    e.conn.socket.accepted = conn.socket.accepted := by
  rcases accepted_resume h with ⟨hsame, -⟩ | ⟨sent, hwrite, -⟩
  · exact hsame
  · exact absurd hwrite hframe

end Connection

/-! ## 2. The order of the loop

What happens between the end of the input and the release is fixed by the loop: the rest of the
event, and then the tasks. -/

/-- `RunAllTask` takes the tasks before `Poll` reports the next event. -/
def SwapFirst : List Action → Prop
  | [] => True
  | .swap :: _ => True
  | .ready _ :: _ => False
  | _ :: as => SwapFirst as

/-- The loop of `EventLoop::Start`: `Poll` reports the connection once, and `RunAllTask` follows. -/
def Rounds : List Action → Prop
  | [] => True
  | .ready _ :: as => SwapFirst as ∧ Rounds as
  | _ :: as => Rounds as

/-- The next function of the connection that runs makes a `send` that takes `len` bytes. -/
def SentNext (len : Nat) : List Action → Prop
  | [] => False
  | .resume io :: _ => io = .send (some len)
  | _ :: as => SentNext len as

theorem SwapFirst.tail {a : Action} {as : List Action} (h : SwapFirst (a :: as)) (ha : a ≠ .swap) :
    SwapFirst as := by
  cases a with
  | ready revents => exact h.elim
  | swap => exact absurd rfl ha
  | _ => exact h

theorem Rounds.tail {a : Action} {as : List Action} (h : Rounds (a :: as)) : Rounds as := by
  cases a with
  | ready revents => exact h.2
  | _ => exact h

namespace ConnLoop

open Connection

/-- A connection that has been released has its socket closed.  The release does both. -/
def Gone (s : ConnLoop) : Prop := s.conn.statu = .disconnected → s.conn.socket.isOpen = false

theorem Gone.step {s s' : ConnLoop} {a : Action} (h : s.Gone) (hs : s.step a = some s') :
    s'.Gone := by
  cases step_moves hs with
  | resume io frame rest e hstack hio he =>
    intro hstatu
    exact (sameOutput_resume hio he).isOpen.trans (h ((statu_resume he).symm.trans hstatu))
  | call op e huser hop he => exact gone_inLoop he h
  | execute op functor e hstack hfunctor he => exact gone_inLoop he h
  | ready | consume | finish | callRelease | callOther | expire | expireCanceled | swap => exact h

/-- `HandleRead` comes first of what an event calls. -/
def Reading (s : ConnLoop) : Prop :=
  .handleRead ∈ s.stack → ∃ revents, s.stack = Channel.handleEvent revents

/-- No function but the event of the channel calls `HandleRead`. -/
theorem handleRead_mem_apply {s : ConnLoop} {e : Effect} {rest : List Frame}
    (hframes : ∀ frame ∈ e.frames, frame.OffSocket) (h : .handleRead ∈ (s.apply e rest).stack) :
    .handleRead ∈ rest := by
  rcases List.mem_append.mp h with hmem | hmem
  · exact absurd rfl (hframes _ hmem).1
  · exact hmem

/-- What is under the first function of an event. -/
theorem tail_handleEvent (revents : REvents) (frame : Frame) (rest : List Frame)
    (h : Channel.handleEvent revents = frame :: rest) :
    .handleRead ∉ rest ∧ .handleWrite ∉ rest.tail ∧
      (frame = .handleRead → atUser rest = false) := by
  unfold Channel.handleEvent at h
  split_ifs at h <;> simp only [List.nil_append, List.cons_append, List.cons.injEq] at h <;>
    obtain ⟨rfl, rfl⟩ := h <;> simp [atUser]

theorem atUser_handleEvent (revents : REvents) : atUser (Channel.handleEvent revents) = false := by
  unfold Channel.handleEvent
  split_ifs <;> rfl

/-- `HandleRead` is to run: the event has just been reported, or nothing has run since. -/
theorem handleRead_mem_step {s s' : ConnLoop} {a : Action} (h : s.Reading)
    (hs : s.step a = some s') (hmem : .handleRead ∈ s'.stack) :
    (∃ revents, a = .ready revents ∧ s'.stack = Channel.handleEvent revents) ∨
      a ≠ .swap ∧ .handleRead ∈ s.stack ∧ s'.stack = s.stack := by
  cases step_moves hs with
  | ready revents => exact Or.inl ⟨revents, rfl, rfl⟩
  | resume io frame rest e hstack hio he =>
    have hrest : .handleRead ∈ rest := handleRead_mem_apply (offSocket_resume he) hmem
    obtain ⟨revents, hevent⟩ := h (hstack ▸ List.mem_cons_of_mem _ hrest)
    exact absurd hrest (tail_handleEvent revents frame rest (hevent.symm.trans hstack)).1
  | consume => exact Or.inr ⟨by simp, hmem, rfl⟩
  | finish rest hstack =>
    obtain ⟨revents, hevent⟩ := h (hstack ▸ List.mem_cons_of_mem _ hmem)
    exact absurd hmem (tail_handleEvent revents .user rest (hevent.symm.trans hstack)).1
  | call op e huser hop he =>
    have hstack : .handleRead ∈ s.stack := handleRead_mem_apply (offSocket_inLoop he) hmem
    obtain ⟨revents, hevent⟩ := h hstack
    rw [hevent, atUser_handleEvent] at huser
    cases huser
  | callRelease | callOther => exact Or.inr ⟨by simp, hmem, rfl⟩
  | expire | expireCanceled => exact Or.inr ⟨by simp, hmem, rfl⟩
  | swap hidle =>
    have hempty : ({ s with functor := s.tasks, tasks := [] } : ConnLoop).stack = [] := hidle.1
    rw [hempty] at hmem
    cases hmem
  | execute op functor e hstack hfunctor he =>
    cases handleRead_mem_apply (offSocket_inLoop he) hmem

theorem Reading.step {s s' : ConnLoop} {a : Action} (h : s.Reading) (hs : s.step a = some s') :
    s'.Reading := by
  intro hmem
  rcases handleRead_mem_step h hs hmem with ⟨revents, -, hevent⟩ | ⟨-, hmem', hsame⟩
  · exact ⟨revents, hevent⟩
  · exact hsame ▸ h hmem'

/-- When `HandleRead` is to run, `RunAllTask` has not run since the event was reported. -/
theorem swapFirst_of_rounds {s t : ConnLoop} {as bs : List Action} (h : s.Reading)
    (hfirst : .handleRead ∈ s.stack → SwapFirst (as ++ bs)) (hrounds : Rounds (as ++ bs))
    (hrun : Transition.exec step s as = some t) (hmem : .handleRead ∈ t.stack) : SwapFirst bs := by
  induction as generalizing s with
  | nil =>
    obtain rfl := Option.some.inj hrun
    exact hfirst hmem
  | cons a as ih =>
    obtain ⟨s', hs', hrun⟩ := (Transition.exec_cons_eq_some step).mp hrun
    refine ih (h.step hs') (fun hmem' => ?_) hrounds.tail hrun
    rcases handleRead_mem_step h hs' hmem' with ⟨revents, rfl, -⟩ | ⟨hswap, hbefore, -⟩
    · exact hrounds.1
    · exact (hfirst hbefore).tail hswap

/-! ## 3. Behind the end of the input

Once the release is in the queue and the event writes no more, the socket accepts nothing: it is
closed before the next event. -/

theorem closed_inLoop {conn : Connection} {op : Op} {e : Effect} (h : conn.inLoop op = some e)
    (hclosed : conn.socket.isOpen = false) :
    e.conn.socket.isOpen = false ∧ e.conn.socket.accepted = conn.socket.accepted := by
  by_cases hop : op = .release
  · subst hop
    obtain rfl := Option.some.inj h
    exact (output_releaseInLoop fun _ => hclosed).symm
  · rw [(output_inLoop h hop).1]
    exact ⟨hclosed, rfl⟩

theorem closed_step {s s' : ConnLoop} {a : Action} (hclosed : s.conn.socket.isOpen = false)
    (hs : s.step a = some s') :
    s'.conn.socket.isOpen = false ∧ s'.conn.socket.accepted = s.conn.socket.accepted := by
  cases step_moves hs with
  | resume io frame rest e hstack hio he =>
    have hsame := sameOutput_resume hio he
    exact ⟨hsame.isOpen.trans hclosed, hsame.closed hclosed⟩
  | call op e huser hop he => exact closed_inLoop he hclosed
  | execute op functor e hstack hfunctor he => exact closed_inLoop he hclosed
  | ready | consume | finish | callRelease | callOther | expire | expireCanceled | swap =>
    exact ⟨hclosed, rfl⟩

/-- A socket that has been closed accepts nothing. -/
theorem accepted_of_closed {s t : ConnLoop} {as : List Action}
    (hclosed : s.conn.socket.isOpen = false) (hrun : Transition.exec step s as = some t) :
    t.conn.socket.accepted = s.conn.socket.accepted := by
  induction as generalizing s with
  | nil =>
    obtain rfl := Option.some.inj hrun
    rfl
  | cons a as ih =>
    obtain ⟨s', hs', hrun⟩ := (Transition.exec_cons_eq_some step).mp hrun
    obtain ⟨hclosed', hsame⟩ := closed_step hclosed hs'
    exact (ih hclosed' hrun).trans hsame

/-- What is a task stays one, whatever runs. -/
theorem mem_tasks_apply {s : ConnLoop} {e : Effect} {rest : List Frame} {op : Op}
    (h : op ∈ s.tasks) : op ∈ (s.apply e rest).tasks := by
  simp only [apply]
  split
  · exact List.mem_append_left _ h
  · exact h

/-- A release is on its way, the loop executes it before it calls `Poll` again, and the event that
has asked for it does not call `HandleWrite` any more.  `as` are the actions to come. -/
structure Doomed (s : ConnLoop) (as : List Action) : Prop where
  gone : s.Gone
  stack : .handleWrite ∉ s.stack
  release : .release ∈ s.functor ∨ .release ∈ s.tasks ∧ SwapFirst as

/-- Frames of a function over some of the stack. -/
theorem Doomed.stack_apply {s : ConnLoop} {as : List Action} {e : Effect} {rest : List Frame}
    (h : s.Doomed as) (hframes : ∀ frame ∈ e.frames, frame.OffSocket) (hrest : rest ⊆ s.stack) :
    .handleWrite ∉ (s.apply e rest).stack := by
  intro hmem
  rcases List.mem_append.mp hmem with hmem | hmem
  · exact absurd rfl (hframes _ hmem).2
  · exact h.stack (hrest hmem)

theorem Doomed.step {s s' : ConnLoop} {a : Action} {as : List Action} (h : s.Doomed (a :: as))
    (hs : s.step a = some s') :
    s'.conn.socket.accepted = s.conn.socket.accepted ∧
      (s'.conn.socket.isOpen = false ∨ s'.Doomed as) := by
  have hgone : s'.Gone := h.gone.step hs
  have hrelease : a ≠ .swap → .release ∈ s.functor ∨ .release ∈ s.tasks ∧ SwapFirst as :=
    fun ha => h.release.imp_right fun hr => ⟨hr.1, hr.2.tail ha⟩
  cases step_moves hs with
  | ready revents hidle =>
    rcases h.release with hmem | ⟨-, hfirst⟩
    · rw [hidle.2] at hmem
      cases hmem
    · exact hfirst.elim
  | resume io frame rest e hstack hio he =>
    refine ⟨accepted_resume_of_ne he ?_, Or.inr ⟨hgone, ?_, ?_⟩⟩
    · rintro rfl
      exact h.stack (hstack ▸ List.mem_cons_self)
    · exact h.stack_apply (offSocket_resume he) (hstack ▸ List.subset_cons_self frame rest)
    · exact (hrelease (by simp)).imp_right fun hr => ⟨mem_tasks_apply hr.1, hr.2⟩
  | consume => exact ⟨rfl, Or.inr ⟨hgone, h.stack, hrelease (by simp)⟩⟩
  | finish rest hstack =>
    refine ⟨rfl, Or.inr ⟨hgone, fun hmem => h.stack ?_, hrelease (by simp)⟩⟩
    exact hstack ▸ List.mem_cons_of_mem _ hmem
  | call op e huser hop he =>
    refine ⟨congrArg Socket.accepted (output_inLoop he hop).1, Or.inr ⟨hgone, ?_, ?_⟩⟩
    · exact h.stack_apply (offSocket_inLoop he) (List.Subset.refl _)
    · exact (hrelease (by simp)).imp_right fun hr => ⟨mem_tasks_apply hr.1, hr.2⟩
  | callRelease | callOther | expire =>
    refine ⟨rfl, Or.inr ⟨hgone, h.stack, (hrelease (by simp)).imp_right fun hr => ?_⟩⟩
    exact ⟨List.mem_append_left _ hr.1, hr.2⟩
  | expireCanceled => exact ⟨rfl, Or.inr ⟨hgone, h.stack, hrelease (by simp)⟩⟩
  | swap hidle =>
    refine ⟨rfl, Or.inr ⟨hgone, h.stack, Or.inl ?_⟩⟩
    rcases h.release with hmem | ⟨hmem, -⟩
    · rw [hidle.2] at hmem
      cases hmem
    · exact hmem
  | execute op functor e hstack hfunctor he =>
    by_cases hop : op = .release
    · -- the release itself
      subst hop
      obtain rfl := Option.some.inj he
      obtain ⟨hsame, hclosed⟩ := output_releaseInLoop h.gone
      exact ⟨hsame, Or.inl hclosed⟩
    · refine ⟨congrArg Socket.accepted (output_inLoop he hop).1, Or.inr ⟨hgone, ?_, ?_⟩⟩
      · exact h.stack_apply (offSocket_inLoop he) (List.nil_subset _)
      · rcases hrelease (by simp) with hmem | ⟨hmem, hfirst⟩
        · rw [hfunctor] at hmem
          exact Or.inl ((List.mem_cons.mp hmem).resolve_left fun hr => hop hr.symm)
        · exact Or.inr ⟨mem_tasks_apply hmem, hfirst⟩

/-- **A connection that is to be released accepts no more**, when the event that has asked for the
release calls `HandleWrite` no more. -/
theorem accepted_of_doomed {s t : ConnLoop} {as : List Action} (h : s.Doomed as)
    (hrun : Transition.exec step s as = some t) :
    t.conn.socket.accepted = s.conn.socket.accepted := by
  induction as generalizing s with
  | nil =>
    obtain rfl := Option.some.inj hrun
    rfl
  | cons a as ih =>
    obtain ⟨s', hs', hrun⟩ := (Transition.exec_cons_eq_some step).mp hrun
    obtain ⟨hsame, hclosed | hdoomed⟩ := h.step hs'
    · exact (accepted_of_closed hclosed hrun).trans hsame
    · exact (ih hdoomed hrun).trans hsame

/-! ## 4. The one `send` that is left

If the event has asked for writing too, its `HandleWrite` is still to come.  It makes one `send`,
which takes what it takes. -/

/-- In the middle of an event only the functions of the connection run, and other threads queue
tasks. -/
theorem step_busy {s s' : ConnLoop} {a : Action} (hbusy : atUser s.stack = false)
    (hs : s.step a = some s') :
    (∃ thread op, a = .call (.other thread) op ∧ s' = s.queue op) ∨
      ∃ io frame rest e, a = .resume io ∧ s.stack = frame :: rest ∧ s.conn.Possible io ∧
        s.conn.resume frame io = some e ∧ s' = s.apply e rest := by
  have hidle : ¬ s.Idle := by
    intro h
    rw [h.1] at hbusy
    cases hbusy
  cases step_moves hs with
  | ready revents h => exact absurd h hidle
  | resume io frame rest e hstack hio he =>
    exact Or.inr ⟨io, frame, rest, e, rfl, hstack, hio, he, rfl⟩
  | consume len rest hstack | finish rest hstack =>
    rw [hstack] at hbusy
    cases hbusy
  | call op e huser =>
    rw [huser] at hbusy
    cases hbusy
  | callRelease huser =>
    rw [huser] at hbusy
    cases hbusy
  | callOther thread op => exact Or.inl ⟨thread, op, rfl, rfl⟩
  | expire h | expireCanceled h | swap h => exact absurd h hidle
  | execute op functor e hstack =>
    rw [hstack] at hbusy
    cases hbusy

/-- The state behind a `HandleRead` that has found the end of the input: the release is among the
tasks, the rest of the event does not write, and the next swap comes before the next event. -/
structure Ended (s : ConnLoop) (as : List Action) : Prop where
  gone : s.Gone
  isOpen : s.conn.socket.isOpen = true
  busy : atUser s.stack = false
  tail : .handleWrite ∉ s.stack.tail
  release : .release ∈ s.tasks
  first : SwapFirst as

/-- The functions that the event still calls. -/
theorem Ended.resume {s : ConnLoop} {io : Io} {frame : Frame} {rest : List Frame} {e : Effect}
    {as : List Action} (h : s.Ended (.resume io :: as)) (hstack : s.stack = frame :: rest)
    (he : s.conn.resume frame io = some e) (hs : s.step (.resume io) = some (s.apply e rest)) :
    (s.apply e rest).Doomed as where
  gone := h.gone.step hs
  stack := by
    intro hmem
    rcases List.mem_append.mp hmem with hmem | hmem
    · exact absurd rfl (offSocket_resume he _ hmem).2
    · exact h.tail (by rw [hstack]; exact hmem)
  release := Or.inr ⟨mem_tasks_apply h.release, h.first⟩

/-- What the socket has accepted in the end is what it had accepted and what the next `send`
takes. -/
theorem Ended.accepted_iff {s t : ConnLoop} {as : List Action} (h : s.Ended as)
    (hout : s.conn.outBuffer ≠ []) (hsends : .resume (.send none) ∉ as)
    (hrun : Transition.exec step s as = some t) (hclosed : t.conn.socket.isOpen = false) :
    s.conn.socket.accepted ++ s.conn.outBuffer <+: t.conn.socket.accepted ↔
      SentNext s.conn.outBuffer.length as := by
  induction as generalizing s with
  | nil =>
    obtain rfl := Option.some.inj hrun
    rw [h.isOpen] at hclosed
    cases hclosed
  | cons a as ih =>
    obtain ⟨s', hs', hrun⟩ := (Transition.exec_cons_eq_some step).mp hrun
    rcases step_busy h.busy hs' with ⟨thread, op, rfl, rfl⟩ |
      ⟨io, frame, rest, e, rfl, hstack, hio, he, rfl⟩
    · have hended : (s.queue op).Ended as :=
        ⟨h.gone, h.isOpen, h.busy, h.tail, List.mem_append_left _ h.release, h.first⟩
      have hnext := ih hended hout (fun hmem => hsends (List.mem_cons_of_mem _ hmem)) hrun
      exact hnext
    · have hsame : t.conn.socket.accepted = e.conn.socket.accepted :=
        accepted_of_doomed (h.resume hstack he hs') hrun
      have hpos : 0 < s.conn.outBuffer.length := List.length_pos_iff.mpr hout
      rw [hsame, SentNext]
      constructor
      · intro hprefix
        have hlen := hprefix.length_le
        rw [List.length_append] at hlen
        rcases accepted_resume he with ⟨hnone, -⟩ | ⟨sent, rfl, rfl, hsent⟩
        · rw [hnone] at hlen
          omega
        · -- all that is left has been taken, and there is no more to take
          rw [hsent, List.length_append, List.length_take] at hlen
          have hmost : sent ≤ s.conn.outBuffer.length := hio.1
          rw [show sent = s.conn.outBuffer.length by omega]
      · rintro rfl
        rcases accepted_resume he with ⟨-, hnot⟩ | ⟨sent, rfl, hio', hsent⟩
        · exact absurd rfl (hnot _)
        · obtain rfl : s.conn.outBuffer.length = sent := by simpa using hio'
          rw [hsent, List.take_length]

/-- `HandleRead` finds the end of the input, and asks for the release. -/
theorem step_recv {s s' : ConnLoop} (hs : s.step (.resume (.recv none)) = some s') :
    ∃ rest, s.stack = .handleRead :: rest ∧ s' = s.apply ⟨s.conn, [], true⟩ rest := by
  cases step_moves hs with
  | resume io frame rest e hstack hio he =>
    cases frame with
    | handleRead => exact ⟨rest, hstack, Option.some.inj he ▸ rfl⟩
    | _ => cases he

theorem ended_of_recv {s : ConnLoop} {rest : List Frame} {as : List Action} (hgone : s.Gone)
    (hreading : s.Reading) (hopen : s.conn.socket.isOpen = true)
    (hstack : s.stack = .handleRead :: rest) (hfirst : SwapFirst as) :
    (s.apply ⟨s.conn, [], true⟩ rest).Ended as := by
  obtain ⟨revents, hevent⟩ := hreading (hstack ▸ List.mem_cons_self)
  obtain ⟨-, htail, hbusy⟩ :=
    tail_handleEvent revents .handleRead rest (hevent.symm.trans hstack)
  exact ⟨hgone, hopen, hbusy rfl, htail, List.mem_append_right _ List.mem_cons_self, hfirst⟩

/-! ## 5. Over every run

The run is cut at the event, and the state there has the stack of that event and nothing else. -/

theorem reading_initial : initial.Reading := fun hmem => absurd hmem List.not_mem_nil

theorem reading_of_run {as : List Action} {s : ConnLoop}
    (hrun : Transition.exec step initial as = some s) : s.Reading :=
  Transition.exec_invariant (fun _ _ _ hi hs => Reading.step hi hs) reading_initial hrun

theorem gone_of_run {as : List Action} {s : ConnLoop}
    (hrun : Transition.exec step initial as = some s) : s.Gone := by
  refine Transition.exec_invariant (fun _ _ _ hi hs => Gone.step hi hs) ?_ hrun
  intro hstatu
  cases hstatu

/-- **What a half-closing client gets.**  Over every run of the loop: when `HandleRead` finds the
end of the input while output is left, and the `send`s that follow succeed, then the connection is
released after all of that output exactly when the event is a write event as well and its one
`send` takes everything. -/
theorem half_close_iff (before after : List Action) (s t : ConnLoop)
    (hrounds : Rounds (before ++ .resume (.recv none) :: after))
    (hbefore : Transition.exec step initial before = some s)
    (hopen : s.conn.socket.isOpen = true) (hout : s.conn.outBuffer ≠ [])
    (hafter : Transition.exec step s (.resume (.recv none) :: after) = some t)
    (hsends : .resume (.send none) ∉ after) (hclosed : t.conn.socket.isOpen = false) :
    s.conn.socket.accepted ++ s.conn.outBuffer <+: t.conn.socket.accepted ↔
      SentNext s.conn.outBuffer.length after := by
  obtain ⟨s', hs', hrun⟩ := (Transition.exec_cons_eq_some step).mp hafter
  obtain ⟨rest, hstack, rfl⟩ := step_recv hs'
  have hfirst : SwapFirst (.resume (.recv none) :: after) :=
    swapFirst_of_rounds reading_initial (fun h => absurd h List.not_mem_nil) hrounds hbefore
      (hstack ▸ List.mem_cons_self)
  have hended : (s.apply ⟨s.conn, [], true⟩ rest).Ended after :=
    ended_of_recv (gone_of_run hbefore) (reading_of_run hbefore) hopen hstack
      (hfirst.tail (by simp))
  have hiff := hended.accepted_iff hout hsends hrun hclosed
  exact hiff

/-- The input of a request, and a response of five bytes; the socket takes two of them. -/
def requestAnswered : List Action :=
  [.call (.other 0) .established, .swap, .execute, .finish,
    .ready ⟨true, false, false, false, false, false⟩, .resume (.recv (some [1])), .consume 1,
    .call .loop (.send [1, 2, 3, 4, 5]), .finish, .resume .nothing, .finish, .swap,
    .ready ⟨false, true, false, false, false, false⟩, .resume (.send (some 2)), .resume .nothing,
    .finish, .swap]

/-- The end of the input comes with the room for the rest of the response. -/
theorem half_close_iff_requestAnswered :
    ∃ s t, Transition.exec step initial
        (requestAnswered ++ [.ready ⟨true, true, false, false, false, false⟩]) = some s ∧
      Transition.exec step s [.resume (.recv none), .resume (.send (some 3)), .resume .nothing,
        .finish, .swap, .execute] = some t ∧
      s.conn.socket.accepted ++ s.conn.outBuffer <+: t.conn.socket.accepted := by
  refine ⟨_, _, rfl, rfl, ?_⟩
  exact (half_close_iff (requestAnswered ++ [.ready ⟨true, true, false, false, false, false⟩])
    [.resume (.send (some 3)), .resume .nothing, .finish, .swap, .execute] _ _
    (by simp [requestAnswered, Rounds, SwapFirst]) rfl rfl (by decide) rfl (by decide) rfl).mpr rfl

/-- The end of the input comes alone: of five bytes the client gets two. -/
theorem not_always_flushed : ¬ ∀ (before after : List Action) (s t : ConnLoop),
    Rounds (before ++ .resume (.recv none) :: after) →
    Transition.exec step initial before = some s → s.conn.socket.isOpen = true →
    s.conn.outBuffer ≠ [] → Transition.exec step s (.resume (.recv none) :: after) = some t →
    .resume (.send none) ∉ after → t.conn.socket.isOpen = false →
    s.conn.socket.accepted ++ s.conn.outBuffer <+: t.conn.socket.accepted := by
  intro h
  have hall := h (requestAnswered ++ [.ready ⟨true, false, false, false, false, false⟩])
    [.resume .nothing, .finish, .swap, .execute] _ _
    (by simp [requestAnswered, Rounds, SwapFirst]) rfl rfl (by decide) rfl (by decide) rfl
  exact absurd hall (by decide)

end ConnLoop

end OnlineJudge.Muduo
