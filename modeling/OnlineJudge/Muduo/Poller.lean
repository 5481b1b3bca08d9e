/-
# `Poller` and the descriptors that the kernel hands out again

A `Poller` (`net/muduo.hpp`) keeps what it watches twice: epoll has its interest list in the
kernel, and `_channels` has the `Channel` of each descriptor.  `UpdateEvent` looks into `_channels`
alone to choose between `EPOLL_CTL_ADD` and `EPOLL_CTL_MOD`, a failure of `epoll_ctl` is only
logged, and `Poll` asserts that every descriptor it is told about is in `_channels`.

The two agree only by what the rest of the program does.  The kernel drops a descriptor from the
interest list when it is closed, without a word to `_channels`, and then gives its number to the
next one who asks.  `ReleaseInLoop` removes the channel before it closes the socket, but nothing in
`Channel` keeps it from being updated afterwards.

The system here is one poller with the channels of its loop, over the descriptor table of the
process, which the other loops and threads use too.

* `Mirrors`: the invariant, as long as no channel is touched after its release.
* `poller_mirrors`: over every such run, the channels that the connections see (`Channel`) are
  exactly what epoll watches, and `Poll` reports each event to the owner of the descriptor.
* `stranded_until_released`: what one late update does to the next owner of the descriptor.
-/
import Mathlib.Logic.Function.Basic
import OnlineJudge.Muduo.Connection

namespace OnlineJudge.Muduo

open Transition

/-! ## 1. The system

Two tables by descriptor, the list in the kernel and `_channels`, and one that says whose descriptor
it is.  The last is the truth, and the program sees none of it but what it has done itself. -/

/-- `_events`. -/
@[ext] structure Interest where
  epollin : Bool
  epollout : Bool
deriving DecidableEq, Repr

/-- The five functions of `Channel` that change `_events`. -/
inductive Change
  | enableRead
  | enableWrite
  | disableRead
  | disableWrite
  | disableAll
deriving DecidableEq, Repr

def Change.events : Change → Interest → Interest
  | .enableRead, events => { events with epollin := true }
  | .enableWrite, events => { events with epollout := true }
  | .disableRead, events => { events with epollin := false }
  | .disableWrite, events => { events with epollout := false }
  | .disableAll, _ => ⟨false, false⟩

/-- A `Channel` object, as far as the poller looks at it: its descriptor, what it asks for, and what
was reported last. -/
structure Polled where
  fd : Nat
  events : Interest
  revents : REvents
deriving DecidableEq, Repr

/-- Who has a descriptor open: the socket of a channel of this loop, or somebody else. -/
inductive Holder
  | socket (channel : Nat)
  | elsewhere
deriving DecidableEq, Repr

/-- The operations of `epoll_ctl`. -/
inductive CtlOp
  | add
  | mod
  | del
deriving DecidableEq, Repr

/-- Where the loop is in `Start`: in `Poll`, before the handlers of these channels, in
`RunAllTask`, or after the failed assertion. -/
inductive PollPc
  | polling
  | handling (actives : List Nat)
  | running
  | aborted
deriving DecidableEq, Repr

/-- `objects` are the channels by their addresses, `holder` is the descriptor table of the process,
`interest` the list in the kernel and `channels` is `_channels`.  The last field is a record of the
calls of `epoll_ctl` that have failed. -/
structure PollLoop where
  objects : Nat → Option Polled
  holder : Nat → Option Holder
  interest : Nat → Option Interest
  channels : Nat → Option Nat
  pc : PollPc
  failed : List CtlOp

inductive PollAction
  /-- A descriptor is opened, and a channel is made for it. -/
  | create (channel fd : Nat)
  /-- Another thread opens a descriptor. -/
  | openElsewhere (fd : Nat)
  | closeElsewhere (fd : Nat)
  /-- `EnableRead` and the others. -/
  | update (channel : Nat) (change : Change)
  /-- `ReleaseInLoop`: `Remove` and `Close`. -/
  | release (channel : Nat)
  /-- `epoll_wait` reports these descriptors. -/
  | poll (ready : List (Nat × REvents))
  /-- `HandleEvent` of the next channel. -/
  | handle
  /-- The handlers are through, and `RunAllTask` starts. -/
  | runAllTask
  /-- `RunAllTask` returns. -/
  | finish
deriving DecidableEq, Repr

namespace PollLoop

def initial : PollLoop where
  objects _ := none
  holder _ := none
  interest _ := none
  channels _ := none
  pc := .polling
  failed := []

/-! ## 2. The functions of `Poller`

A call of `epoll_ctl` that fails is logged and forgotten.  Which of its operations is chosen depends
on `_channels` alone. -/

/-- Whether the call succeeds: `EBADF`, `EEXIST` and `ENOENT`. -/
def ctlSucceeds (s : PollLoop) (op : CtlOp) (fd : Nat) : Bool :=
  (s.holder fd).isSome &&
    match op with
    | .add => (s.interest fd).isNone
    | .mod | .del => (s.interest fd).isSome

/-- `Poller::Update`. -/
def ctl (s : PollLoop) (op : CtlOp) (fd : Nat) (events : Interest) : PollLoop :=
  if s.ctlSucceeds op fd then
    { s with
      interest := Function.update s.interest fd (if op = .del then none else some events) }
  else { s with failed := s.failed ++ [op] }

def updateEvent (s : PollLoop) (channel : Nat) (polled : Polled) : PollLoop :=
  match s.channels polled.fd with
  | none =>
    { s with channels := Function.update s.channels polled.fd (some channel) }.ctl .add polled.fd
      polled.events
  | some _ => s.ctl .mod polled.fd polled.events

def removeEvent (s : PollLoop) (polled : Polled) : PollLoop :=
  { s with channels := Function.update s.channels polled.fd none }.ctl .del polled.fd polled.events

/-- `Socket::Close`: the descriptor is closed once.  The kernel drops it from the interest list. -/
def close (s : PollLoop) (channel fd : Nat) : PollLoop :=
  if s.holder fd = some (.socket channel) then
    { s with
      holder := Function.update s.holder fd none
      interest := Function.update s.interest fd none }
  else s

def setREvents (objects : Nat → Option Polled) (channel : Nat) (revents : REvents) :
    Nat → Option Polled :=
  Function.update objects channel ((objects channel).map ({ · with revents := revents }))

/-- The loop of `Poll` over what `epoll_wait` has reported; `none` is the failed assertion. -/
def collect (channels : Nat → Option Nat) :
    (Nat → Option Polled) → List (Nat × REvents) → Option ((Nat → Option Polled) × List Nat)
  | objects, [] => some (objects, [])
  | objects, (fd, revents) :: ready =>
    match channels fd with
    | none => none
    | some channel =>
      (collect channels (setREvents objects channel revents) ready).map fun (objects', actives) =>
        (objects', channel :: actives)

/-- What the kernel may report: at most `MAX_EPOLLEVENTS` descriptors of its list, each of them
once, with any events. -/
def Reports (s : PollLoop) (ready : List (Nat × REvents)) : Prop :=
  ready.length ≤ 1024 ∧ (ready.map Prod.fst).Nodup ∧
    ∀ r ∈ ready, (s.interest r.1).isSome

instance (s : PollLoop) (ready : List (Nat × REvents)) : Decidable (s.Reports ready) :=
  inferInstanceAs (Decidable (_ ∧ _ ∧ _))

/-- One step.  `ReleaseInLoop` is always queued, so it runs in `RunAllTask`. -/
def step (s : PollLoop) : PollAction → Option PollLoop
  | .create channel fd =>
    if s.objects channel = none ∧ s.holder fd = none ∧ s.pc ≠ .aborted then
      some { s with
        objects := Function.update s.objects channel
          (some ⟨fd, ⟨false, false⟩, ⟨false, false, false, false, false, false⟩⟩)
        holder := Function.update s.holder fd (some (.socket channel)) }
    else none
  | .openElsewhere fd =>
    if s.holder fd = none ∧ s.pc ≠ .aborted then
      some { s with holder := Function.update s.holder fd (some .elsewhere) }
    else none
  | .closeElsewhere fd =>
    if s.holder fd = some .elsewhere ∧ s.pc ≠ .aborted then
      some { s with
        holder := Function.update s.holder fd none
        interest := Function.update s.interest fd none }
    else none
  | .update channel change =>
    match s.objects channel with
    | some polled =>
      if s.pc ≠ .aborted then
        let polled' := { polled with events := change.events polled.events }
        some ({ s with
          objects := Function.update s.objects channel (some polled') }.updateEvent channel polled')
      else none
    | none => none
  | .release channel =>
    match s.objects channel with
    | some polled =>
      if s.pc = .running then some ((s.removeEvent polled).close channel polled.fd) else none
    | none => none
  | .poll ready =>
    if s.pc = .polling ∧ s.Reports ready then
      match collect s.channels s.objects ready with
      | some (objects, actives) => some { s with objects := objects, pc := .handling actives }
      | none => some { s with pc := .aborted }
    else none
  | .handle =>
    match s.pc with
    | .handling (_ :: actives) => some { s with pc := .handling actives }
    | _ => none
  | .runAllTask => if s.pc = .handling [] then some { s with pc := .running } else none
  | .finish => if s.pc = .running then some { s with pc := .polling } else none

/-- The socket of the channel is open: the descriptor that the channel has is still its own, and has
not been given to another. -/
def Owns (s : PollLoop) (channel : Nat) (polled : Polled) : Prop :=
  s.objects channel = some polled ∧ s.holder polled.fd = some (.socket channel)

/-- A channel is updated or released that has been released. -/
def Late (s : PollLoop) : PollAction → Prop
  | .update channel _ | .release channel =>
    (s.objects channel).all fun polled => s.holder polled.fd ≠ some (.socket channel)
  | _ => False

instance (s : PollLoop) : ∀ a, Decidable (s.Late a)
  | .update _ _ | .release _ => inferInstanceAs (Decidable (_ = true))
  | .create _ _ | .openElsewhere _ | .closeElsewhere _ | .poll _ | .handle | .runAllTask
  | .finish =>
    inferInstanceAs (Decidable False)

/-- The channel as `Connection` sees it. -/
def channel (s : PollLoop) (c : Nat) : Option Channel :=
  (s.objects c).map fun polled =>
    ⟨polled.events.epollin, polled.events.epollout, s.channels polled.fd = some c⟩

end PollLoop

/-- What a change does to the channel that `Connection` sees. -/
def Change.channel (change : Change) (channel : Channel) : Channel where
  readAble := (change.events ⟨channel.readAble, channel.writeAble⟩).epollin
  writeAble := (change.events ⟨channel.readAble, channel.writeAble⟩).epollout
  registered := true

example : Change.enableRead.channel = Channel.enableRead := rfl
example : Change.disableWrite.channel = Channel.disableWrite := rfl

/-- What an action does to a channel that `Connection` sees: to its own, if any. -/
def PollAction.onChannel (c : Nat) : PollAction → Option Channel → Option Channel
  | .create c' _, channel => if c' = c then some ⟨false, false, false⟩ else channel
  | .update c' change, channel => if c' = c then channel.map change.channel else channel
  | .release c', channel => if c' = c then channel.map Channel.remove else channel
  | _, channel => channel

namespace PollLoop

/-! ## 3. No channel is touched after its release

Under that condition the two tables mirror each other, and each entry belongs to a socket that is
open.  One lemma for each thing that can happen to a descriptor. -/

/-- `_channels` has nothing but channels whose sockets are open, epoll watches what they ask for,
and the handlers that are about to run are theirs. -/
structure Mirrors (s : PollLoop) : Prop where
  owner : ∀ {fd c}, s.channels fd = some c → ∃ polled, s.Owns c polled ∧ polled.fd = fd
  interest : ∀ fd, s.interest fd = (s.channels fd).bind fun c => (s.objects c).map Polled.events
  failed : ∀ op ∈ s.failed, op = .del
  actives : ∀ {actives}, s.pc = .handling actives → ∀ c ∈ actives, ∃ polled, s.Owns c polled ∧
    s.channels polled.fd = some c
  going : s.pc ≠ .aborted

theorem mirrors_initial : initial.Mirrors where
  owner := nofun
  interest _ := rfl
  failed := nofun
  actives := nofun
  going := nofun

variable {s t : PollLoop} {c c' : Nat} {polled polled' : Polled}

/-- Two channels do not own one descriptor. -/
theorem Owns.unique (h : s.Owns c polled) (h' : s.Owns c' polled') (hfd : polled.fd = polled'.fd) :
    c = c' ∧ polled = polled' := by
  obtain rfl : c = c' := by
    have hholder := h.2.symm.trans (hfd ▸ h'.2)
    exact Holder.socket.inj (Option.some.inj hholder)
  exact ⟨rfl, Option.some.inj (h.1.symm.trans h'.1)⟩

/-- What `_channels` has under the descriptor of a channel is that channel. -/
theorem Mirrors.channels_of_owns (h : s.Mirrors) (howns : s.Owns c polled) :
    s.channels polled.fd = none ∨ s.channels polled.fd = some c := by
  cases hfd : s.channels polled.fd with
  | none => exact .inl rfl
  | some c' =>
    obtain ⟨polled', howns', hfd'⟩ := h.owner hfd
    exact .inr (congrArg some (howns'.unique howns hfd').1)

/-- **`UpdateEvent` of an open channel** goes through: `_channels` and epoll have it afterwards. -/
theorem Mirrors.updateEvent (h : s.Mirrors) (howns : s.Owns c polled) (hfd : polled'.fd = polled.fd)
    (objects : Nat → Option Polled) :
    ({ s with objects := objects }.updateEvent c polled') =
      { s with
        objects := objects
        channels := Function.update s.channels polled.fd (some c)
        interest := Function.update s.interest polled.fd (some polled'.events) } := by
  have hinterest := h.interest polled.fd
  rcases h.channels_of_owns howns with hchannels | hchannels
  · rw [hchannels, Option.bind_none] at hinterest
    simp [PollLoop.updateEvent, ctl, ctlSucceeds, hfd, hchannels, hinterest, howns.2]
  · rw [hchannels, Option.bind_some, howns.1, Option.map_some] at hinterest
    have hsame : Function.update s.channels polled.fd (some c) = s.channels := by
      rw [← hchannels, Function.update_eq_self]
    simp [PollLoop.updateEvent, ctl, ctlSucceeds, hfd, hchannels, hinterest, howns.2, hsame]

/-- **The release of an open channel**: it is out of everything.  If it has not been in `_channels`,
`EPOLL_CTL_DEL` fails. -/
theorem Mirrors.release (h : s.Mirrors) (howns : s.Owns c polled) :
    ∃ failed, (∀ op ∈ failed, op = .del) ∧ (s.removeEvent polled).close c polled.fd =
      { s with
        channels := Function.update s.channels polled.fd none
        holder := Function.update s.holder polled.fd none
        interest := Function.update s.interest polled.fd none
        failed := failed } := by
  unfold removeEvent ctl
  split
  · refine ⟨s.failed, h.failed, ?_⟩
    simp [close, howns.2]
  · refine ⟨s.failed ++ [.del], ?_, ?_⟩
    · intro op hop
      rcases List.mem_append.mp hop with hop | hop
      · exact h.failed op hop
      · exact List.mem_singleton.mp hop
    · simp [close, howns.2]

/-- A descriptor that nobody has is not in `_channels`. -/
theorem Mirrors.channels_of_not_socket (h : s.Mirrors) {fd : Nat}
    (hfd : ∀ c, s.holder fd ≠ some (.socket c)) : s.channels fd = none := by
  cases hchannels : s.channels fd with
  | none => rfl
  | some c =>
    obtain ⟨polled, howns, rfl⟩ := h.owner hchannels
    exact absurd howns.2 (hfd c)

theorem Mirrors.open (h : s.Mirrors) {fd : Nat} (hfd : s.holder fd = none) (holder : Holder)
    {objects : Nat → Option Polled}
    (hobjects : ∀ c polled, s.objects c = some polled → objects c = some polled) :
    ({ s with
      objects := objects
      holder := Function.update s.holder fd (some holder) } : PollLoop).Mirrors := by
  have howns : ∀ {c polled}, s.Owns c polled →
      ({ s with
        objects := objects
        holder := Function.update s.holder fd (some holder) } : PollLoop).Owns c polled := by
    intro c polled howns
    have hne : polled.fd ≠ fd := by
      intro heq
      exact absurd ((heq ▸ howns.2).symm.trans hfd) (Option.some_ne_none _)
    exact ⟨hobjects c polled howns.1, (Function.update_of_ne hne _ _).trans howns.2⟩
  refine ⟨?_, ?_, h.failed, ?_, h.going⟩
  · intro fd' c hc
    obtain ⟨polled, hown, hfd'⟩ := h.owner hc
    exact ⟨polled, howns hown, hfd'⟩
  · intro fd'
    show s.interest fd' = (s.channels fd').bind fun c => (objects c).map Polled.events
    rw [h.interest fd']
    cases hc : s.channels fd' with
    | none => rfl
    | some c =>
      obtain ⟨polled, hown, -⟩ := h.owner hc
      rw [Option.bind_some, Option.bind_some, hown.1, hobjects c polled hown.1]
  · intro actives hpc c hc
    obtain ⟨polled, hown, hc'⟩ := h.actives hpc c hc
    exact ⟨polled, howns hown, hc'⟩

theorem Mirrors.closeElsewhere (h : s.Mirrors) {fd : Nat} (hfd : s.holder fd = some .elsewhere) :
    ({ s with
      holder := Function.update s.holder fd none
      interest := Function.update s.interest fd none } : PollLoop).Mirrors := by
  have hne : ∀ {c polled}, s.Owns c polled → polled.fd ≠ fd := by
    rintro c polled howns rfl
    cases howns.2.symm.trans hfd
  refine ⟨?_, ?_, h.failed, ?_, h.going⟩
  · intro fd' c hc
    obtain ⟨polled, howns, hfd'⟩ := h.owner hc
    exact ⟨polled, ⟨howns.1, (Function.update_of_ne (hne howns) _ _).trans howns.2⟩, hfd'⟩
  · intro fd'
    by_cases heq : fd' = fd
    · subst heq
      have hchannels : s.channels fd' = none :=
        h.channels_of_not_socket fun c hc => by cases hc.symm.trans hfd
      show Function.update s.interest fd' none fd' = _
      rw [Function.update_self, hchannels]
      rfl
    · show Function.update s.interest fd none fd' = _
      rw [Function.update_of_ne heq]
      exact h.interest fd'
  · intro actives hpc c hc
    obtain ⟨polled, howns, hc'⟩ := h.actives hpc c hc
    exact ⟨polled, ⟨howns.1, (Function.update_of_ne (hne howns) _ _).trans howns.2⟩, hc'⟩

/-- **An update**, and what it does to the channels of the other connections: nothing. -/
theorem Mirrors.update (h : s.Mirrors) (howns : s.Owns c polled) (events : Interest) :
    ({ s with
      objects := Function.update s.objects c (some { polled with events := events })
      channels := Function.update s.channels polled.fd (some c)
      interest := Function.update s.interest polled.fd (some events) } : PollLoop).Mirrors := by
  have hother : ∀ {fd c'}, fd ≠ polled.fd → s.channels fd = some c' → c' ≠ c := by
    rintro fd c' hfd hc' rfl
    obtain ⟨polled', howns', hfd'⟩ := h.owner hc'
    obtain rfl := Option.some.inj (howns.1.symm.trans howns'.1)
    exact hfd hfd'.symm
  refine ⟨?_, ?_, h.failed, ?_, h.going⟩
  · intro fd c' hc'
    by_cases hfd : fd = polled.fd
    · subst hfd
      have hnew : Function.update s.channels polled.fd (some c) polled.fd = some c' := hc'
      rw [Function.update_self] at hnew
      obtain rfl := Option.some.inj hnew
      exact ⟨_, ⟨Function.update_self .., howns.2⟩, rfl⟩
    · have hold : s.channels fd = some c' := (Function.update_of_ne hfd _ _).symm.trans hc'
      obtain ⟨polled', howns', hfd'⟩ := h.owner hold
      exact ⟨polled',
        ⟨(Function.update_of_ne (hother hfd hold) _ _).trans howns'.1, howns'.2⟩, hfd'⟩
  · intro fd
    dsimp only
    by_cases hfd : fd = polled.fd
    · subst hfd
      simp
    · rw [Function.update_of_ne hfd, Function.update_of_ne hfd, h.interest fd]
      cases hold : s.channels fd with
      | none => rfl
      | some c' =>
        rw [Option.bind_some, Option.bind_some, Function.update_of_ne (hother hfd hold)]
  · intro actives hpc c' hc'
    obtain ⟨polled', howns', hold⟩ := h.actives hpc c' hc'
    by_cases hcc : c' = c
    · subst hcc
      exact ⟨_, ⟨Function.update_self .., howns.2⟩, Function.update_self ..⟩
    · have hfd : polled'.fd ≠ polled.fd := fun hfd => hcc (howns'.unique howns hfd).1
      exact ⟨polled', ⟨(Function.update_of_ne hcc _ _).trans howns'.1, howns'.2⟩,
        (Function.update_of_ne hfd _ _).trans hold⟩

/-- The release of an open channel, in `RunAllTask`. -/
theorem Mirrors.after_release (h : s.Mirrors) (polled : Polled) (hpc : s.pc = .running)
    {failed : List CtlOp} (hfailed : ∀ op ∈ failed, op = .del) :
    ({ s with
      channels := Function.update s.channels polled.fd none
      holder := Function.update s.holder polled.fd none
      interest := Function.update s.interest polled.fd none
      failed := failed } : PollLoop).Mirrors := by
  refine ⟨?_, ?_, hfailed, ?_, h.going⟩
  · intro fd c' hc'
    by_cases hfd : fd = polled.fd
    · subst hfd
      cases (Function.update_self ..).symm.trans hc'
    · obtain ⟨polled', howns', rfl⟩ := h.owner ((Function.update_of_ne hfd _ _).symm.trans hc')
      exact ⟨polled', ⟨howns'.1, (Function.update_of_ne hfd _ _).trans howns'.2⟩, rfl⟩
  · intro fd
    dsimp only
    by_cases hfd : fd = polled.fd
    · subst hfd
      simp
    · rw [Function.update_of_ne hfd, Function.update_of_ne hfd, h.interest fd]
  · intro actives hpc'
    cases hpc.symm.trans hpc'

/-- What `SetREvents` leaves alone. -/
def Polled.asked (polled : Polled) : Nat × Interest := (polled.fd, polled.events)

theorem asked_setREvents (objects : Nat → Option Polled) (c : Nat) (revents : REvents) (c' : Nat) :
    (setREvents objects c revents c').map Polled.asked = (objects c').map Polled.asked := by
  unfold setREvents
  by_cases hcc : c' = c
  · subst hcc
    rw [Function.update_self, Option.map_map]
    rfl
  · rw [Function.update_of_ne hcc]

theorem fd_of_asked {objects objects' : Nat → Option Polled}
    (hasked : (objects' c).map Polled.asked = (objects c).map Polled.asked)
    (hpolled : objects c = some polled) :
    ∃ polled', objects' c = some polled' ∧ polled'.fd = polled.fd ∧
      polled'.events = polled.events := by
  rw [hpolled, Option.map_some] at hasked
  obtain ⟨polled', hpolled', heq⟩ := Option.map_eq_some_iff.mp hasked
  exact ⟨polled', hpolled', congrArg Prod.fst heq, congrArg Prod.snd heq⟩

/-- **The loop of `Poll`**, over descriptors that are all in `_channels`: each event goes to the
channel of its descriptor. -/
theorem collect_of_registered (channels : Nat → Option Nat) :
    ∀ (ready : List (Nat × REvents)) (objects : Nat → Option Polled),
      (ready.map Prod.fst).Nodup →
      (∀ r ∈ ready, ∃ c polled, channels r.1 = some c ∧ objects c = some polled ∧
        polled.fd = r.1) →
      ∃ objects' actives, collect channels objects ready = some (objects', actives) ∧
        (∀ c, (objects' c).map Polled.asked = (objects c).map Polled.asked) ∧
        (∀ c, (∀ r ∈ ready, channels r.1 ≠ some c) → objects' c = objects c) ∧
        List.Forall₂ (fun r c => channels r.1 = some c ∧ ∃ polled, objects' c = some polled ∧
          polled.fd = r.1 ∧ polled.revents = r.2) ready actives
  | [], objects, _, _ => ⟨objects, [], rfl, fun _ => rfl, fun _ _ => rfl, .nil⟩
  | (fd, revents) :: ready, objects, hnodup, hready => by
    rw [List.map_cons, List.nodup_cons] at hnodup
    obtain ⟨c, polled, hc, hpolled, hfd⟩ := hready _ List.mem_cons_self
    dsimp only at hc hfd
    have hasked := asked_setREvents objects c revents
    obtain ⟨objects', actives, hcollect, hasked', hframe, hforall⟩ :=
      collect_of_registered channels ready (setREvents objects c revents) hnodup.2 (by
        intro r hr
        obtain ⟨c', polled', hc', hpolled', hfd'⟩ := hready r (List.mem_cons_of_mem _ hr)
        obtain ⟨polled'', hpolled'', hfd'', -⟩ := fd_of_asked (hasked c') hpolled'
        exact ⟨c', polled'', hc', hpolled'', hfd''.trans hfd'⟩)
    -- No other descriptor of the report belongs to this channel, so its `_revents` stay.
    have hlast : objects' c = some { polled with revents := revents } := by
      rw [hframe c ?_, setREvents, Function.update_self, hpolled]
      · rfl
      · intro r hr hrc
        obtain ⟨c', polled', hc', hpolled', hfd'⟩ := hready r (List.mem_cons_of_mem _ hr)
        obtain rfl : c' = c := Option.some.inj (hc'.symm.trans hrc)
        obtain rfl := Option.some.inj (hpolled.symm.trans hpolled')
        exact hnodup.1 (List.mem_map.mpr ⟨r, hr, hfd'.symm.trans hfd⟩)
    refine ⟨objects', c :: actives, ?_, ?_, ?_, .cons ⟨hc, _, hlast, hfd, rfl⟩ hforall⟩
    · simp only [collect, hc, hcollect, Option.map_some]
    · exact fun c' => (hasked' c').trans (hasked c')
    · intro c' hc'
      have hne : c' ≠ c := by
        rintro rfl
        exact hc' _ List.mem_cons_self hc
      rw [hframe c' fun r hr => hc' r (List.mem_cons_of_mem _ hr), setREvents,
        Function.update_of_ne hne]

/-- **`Poll` finds every descriptor** that the kernel reports: each has its channel, whose events
are then those of the report, and nothing else of a channel changes. -/
theorem Mirrors.poll (h : s.Mirrors) {ready : List (Nat × REvents)} (hready : s.Reports ready) :
    ∃ objects actives, collect s.channels s.objects ready = some (objects, actives) ∧
      (∀ c, (objects c).map Polled.asked = (s.objects c).map Polled.asked) ∧
      List.Forall₂ (fun r c => s.channels r.1 = some c ∧ ∃ polled, objects c = some polled ∧
        polled.fd = r.1 ∧ polled.revents = r.2) ready actives := by
  obtain ⟨objects, actives, hcollect, hasked, -, hforall⟩ :=
    collect_of_registered s.channels ready s.objects hready.2.1 (by
      intro r hr
      have hwatched := hready.2.2 r hr
      rw [h.interest] at hwatched
      cases hc : s.channels r.1 with
      | none => simp [hc] at hwatched
      | some c =>
        obtain ⟨polled, howns, hfd⟩ := h.owner hc
        exact ⟨c, polled, rfl, howns.1, hfd⟩)
  exact ⟨objects, actives, hcollect, hasked, hforall⟩

theorem Mirrors.after_poll (h : s.Mirrors) {ready : List (Nat × REvents)}
    {objects : Nat → Option Polled} {actives : List Nat}
    (hasked : ∀ c, (objects c).map Polled.asked = (s.objects c).map Polled.asked)
    (hforall : List.Forall₂ (fun r c => s.channels r.1 = some c ∧
      ∃ polled, objects c = some polled ∧ polled.fd = r.1 ∧ polled.revents = r.2) ready actives) :
    ({ s with objects := objects, pc := .handling actives } : PollLoop).Mirrors := by
  have howner : ∀ {fd c}, s.channels fd = some c → ∃ polled,
      ({ s with objects := objects, pc := .handling actives } : PollLoop).Owns c polled ∧
        polled.fd = fd := by
    intro fd c hc
    obtain ⟨polled, howns, hfd⟩ := h.owner hc
    obtain ⟨polled', hpolled', hfd', -⟩ := fd_of_asked (hasked c) howns.1
    exact ⟨polled', ⟨hpolled', hfd' ▸ howns.2⟩, hfd'.trans hfd⟩
  refine ⟨howner, ?_, h.failed, ?_, nofun⟩
  · intro fd
    dsimp only
    rw [h.interest fd]
    cases s.channels fd with
    | none => rfl
    | some c =>
      have hevents := congrArg (Option.map Prod.snd) (hasked c)
      rw [Option.map_map, Option.map_map] at hevents
      exact hevents.symm
  · intro actives' hpc c hc
    obtain rfl := PollPc.handling.inj hpc
    have hmem : ∀ {ready : List (Nat × REvents)} {actives : List Nat},
        List.Forall₂ (fun r c => s.channels r.1 = some c ∧
          ∃ polled, objects c = some polled ∧ polled.fd = r.1 ∧ polled.revents = r.2)
          ready actives → c ∈ actives → ∃ fd, s.channels fd = some c := by
      intro ready actives hforall hc
      induction hforall with
      | nil => cases hc
      | cons hr _ ih =>
        rcases List.mem_cons.mp hc with rfl | hc
        · exact ⟨_, hr.1⟩
        · exact ih hc
    obtain ⟨fd, hfd⟩ := hmem hforall hc
    obtain ⟨polled, howns, rfl⟩ := howner hfd
    exact ⟨polled, howns, hfd⟩

/-- A channel that is not touched too late is open. -/
theorem owns_of_not_late {a : PollAction} (ha : a = .release c ∨ ∃ change, a = .update c change)
    (hlate : ¬ s.Late a) (hpolled : s.objects c = some polled) : s.Owns c polled := by
  refine ⟨hpolled, ?_⟩
  rcases ha with rfl | ⟨change, rfl⟩
  · simpa [Late, hpolled] using hlate
  · simpa [Late, hpolled] using hlate

/-- **An update, whole**: the object, the entry of `_channels` and the entry in the kernel all have
the new events, and nothing else is touched. -/
theorem Mirrors.step_update (h : s.Mirrors) (howns : s.Owns c polled) {change : Change}
    (hstep : s.step (.update c change) = some t) :
    t = { s with
      objects := Function.update s.objects c
        (some { polled with events := change.events polled.events })
      channels := Function.update s.channels polled.fd (some c)
      interest := Function.update s.interest polled.fd (some (change.events polled.events)) } := by
  simp only [PollLoop.step, howns.1, ne_eq, h.going, not_false_eq_true, if_true,
    Option.some.injEq] at hstep
  subst hstep
  have hfd : ({ polled with events := change.events polled.events } : Polled).fd = polled.fd := rfl
  exact h.updateEvent howns hfd _

/-- **One step** keeps the mirror, if it is not late. -/
theorem Mirrors.step (h : s.Mirrors) {a : PollAction} (ha : ¬ s.Late a)
    (hstep : s.step a = some t) : t.Mirrors := by
  cases a with
  | create c fd =>
    simp only [PollLoop.step] at hstep
    split at hstep
    · rename_i hfree
      obtain rfl := Option.some.inj hstep
      refine h.open hfree.2.1 _ fun c' polled hpolled => ?_
      rw [Function.update_of_ne, hpolled]
      rintro rfl
      cases hfree.1.symm.trans hpolled
    · cases hstep
  | openElsewhere fd =>
    simp only [PollLoop.step] at hstep
    split at hstep
    · rename_i hfree
      obtain rfl := Option.some.inj hstep
      exact h.open hfree.1 _ fun _ _ hpolled => hpolled
    · cases hstep
  | closeElsewhere fd =>
    simp only [PollLoop.step] at hstep
    split at hstep
    · rename_i hheld
      obtain rfl := Option.some.inj hstep
      exact h.closeElsewhere hheld.1
    · cases hstep
  | update c change =>
    cases hpolled : s.objects c with
    | none => simp [PollLoop.step, hpolled] at hstep
    | some polled =>
      have howns := owns_of_not_late (.inr ⟨change, rfl⟩) ha hpolled
      exact h.step_update howns hstep ▸ h.update howns _
  | release c =>
    cases hpolled : s.objects c with
    | none => simp [PollLoop.step, hpolled] at hstep
    | some polled =>
      have howns := owns_of_not_late (.inl rfl) ha hpolled
      simp only [PollLoop.step, hpolled] at hstep
      split at hstep
      · rename_i hpc
        obtain ⟨failed, hfailed, heq⟩ := h.release howns
        obtain rfl := heq.symm.trans (Option.some.inj hstep)
        exact h.after_release polled hpc hfailed
      · cases hstep
  | poll ready =>
    simp only [PollLoop.step] at hstep
    split at hstep
    · rename_i hready
      obtain ⟨objects, actives, hcollect, hasked, hforall⟩ := h.poll hready.2
      rw [hcollect] at hstep
      obtain rfl := Option.some.inj hstep
      exact h.after_poll hasked hforall
    · cases hstep
  | handle =>
    simp only [PollLoop.step] at hstep
    split at hstep
    · rename_i c actives hpc
      obtain rfl := Option.some.inj hstep
      refine ⟨h.owner, h.interest, h.failed, ?_, nofun⟩
      intro actives' hpc' c' hc'
      obtain rfl := PollPc.handling.inj hpc'
      exact h.actives hpc c' (List.mem_cons_of_mem _ hc')
    · cases hstep
  | runAllTask =>
    simp only [PollLoop.step] at hstep
    split at hstep
    · obtain rfl := Option.some.inj hstep
      exact ⟨h.owner, h.interest, h.failed, nofun, nofun⟩
    · cases hstep
  | finish =>
    simp only [PollLoop.step] at hstep
    split at hstep
    · obtain rfl := Option.some.inj hstep
      exact ⟨h.owner, h.interest, h.failed, nofun, nofun⟩
    · cases hstep

/-! ## 4. The poller refines the channels of the connections

A connection thinks of its channel as its own.  That it may is a theorem: what another channel does
leaves it alone, and what it does itself is what epoll then watches. -/

theorem channel_of_asked {objects : Nat → Option Polled}
    (hasked : ∀ c, (objects c).map Polled.asked = (s.objects c).map Polled.asked) (pc : PollPc)
    (c : Nat) : ({ s with objects := objects, pc := pc } : PollLoop).channel c = s.channel c := by
  unfold channel
  dsimp only
  cases hpolled : s.objects c with
  | none =>
    have hnone := hasked c
    rw [hpolled, Option.map_none, Option.map_eq_none_iff] at hnone
    rw [hnone]
  | some polled =>
    obtain ⟨polled', hpolled', hfd, hevents⟩ := fd_of_asked (hasked c) hpolled
    rw [hpolled', Option.map_some, Option.map_some, hfd, hevents]

/-- What a step leaves alone in `_channels`, it leaves alone in the channel of another. -/
theorem channel_of_ne {objects : Nat → Option Polled} {channels : Nat → Option Nat}
    (hobjects : objects c' = s.objects c')
    (hchannels : ∀ polled, s.objects c' = some polled →
      (channels polled.fd = some c' ↔ s.channels polled.fd = some c')) :
    (objects c').map (fun polled => (⟨polled.events.epollin, polled.events.epollout,
      channels polled.fd = some c'⟩ : Channel)) = s.channel c' := by
  rw [hobjects]
  unfold channel
  cases hpolled : s.objects c' with
  | none => rfl
  | some polled =>
    simp only [Option.map_some, hchannels polled hpolled]

/-- **Each action does to the channels what `Connection` takes it to do**: to its own channel, and
to no other. -/
theorem Mirrors.channel_step (h : s.Mirrors) {a : PollAction} (ha : ¬ s.Late a)
    (hstep : s.step a = some t) (c : Nat) : t.channel c = a.onChannel c (s.channel c) := by
  cases a with
  | create c' fd =>
    simp only [PollLoop.step] at hstep
    split at hstep
    · rename_i hfree
      obtain rfl := Option.some.inj hstep
      simp only [PollAction.onChannel]
      split
      · rename_i hcc
        subst hcc
        have hchannels : s.channels fd = none := h.channels_of_not_socket fun c hc => by
          cases hc.symm.trans hfree.2.1
        simp [channel, hchannels]
      · rename_i hcc
        exact channel_of_ne (Function.update_of_ne (Ne.symm hcc) _ _) fun _ _ => Iff.rfl
    · cases hstep
  | update c' change =>
    cases hpolled : s.objects c' with
    | none => simp [PollLoop.step, hpolled] at hstep
    | some polled =>
      have howns := owns_of_not_late (.inr ⟨change, rfl⟩) ha hpolled
      obtain rfl := h.step_update howns hstep
      simp only [PollAction.onChannel]
      split
      · rename_i hcc
        subst hcc
        cases change <;> simp [channel, hpolled, Change.channel, Change.events]
      · rename_i hcc
        refine channel_of_ne (Function.update_of_ne (Ne.symm hcc) _ _) fun polled' hpolled' => ?_
        dsimp only
        by_cases hfd : polled'.fd = polled.fd
        · have hold : s.channels polled'.fd ≠ some c := by
            rw [hfd]
            rcases h.channels_of_owns howns with hnone | hsome
            · rw [hnone]
              exact nofun
            · rw [hsome]
              exact fun heq => hcc (Option.some.inj heq)
          rw [hfd, Function.update_self, ← hfd]
          exact ⟨fun heq => absurd (Option.some.inj heq) hcc, fun heq => absurd heq hold⟩
        · rw [Function.update_of_ne hfd]
  | release c' =>
    cases hpolled : s.objects c' with
    | none => simp [PollLoop.step, hpolled] at hstep
    | some polled =>
      have howns := owns_of_not_late (.inl rfl) ha hpolled
      simp only [PollLoop.step, hpolled] at hstep
      split at hstep
      · obtain ⟨failed, -, heq⟩ := h.release howns
        obtain rfl := heq.symm.trans (Option.some.inj hstep)
        simp only [PollAction.onChannel]
        split
        · rename_i hcc
          subst hcc
          simp [channel, hpolled, Channel.remove]
        · rename_i hcc
          refine channel_of_ne rfl fun polled' hpolled' => ?_
          dsimp only
          by_cases hfd : polled'.fd = polled.fd
          · rw [hfd, Function.update_self]
            rcases h.channels_of_owns howns with hnone | hsome
            · rw [hnone]
            · rw [hsome]
              exact ⟨nofun, fun heq => absurd (Option.some.inj heq) hcc⟩
          · rw [Function.update_of_ne hfd]
      · cases hstep
  | poll ready =>
    simp only [PollLoop.step] at hstep
    split at hstep
    · rename_i hready
      obtain ⟨objects, actives, hcollect, hasked, -⟩ := h.poll hready.2
      rw [hcollect] at hstep
      obtain rfl := Option.some.inj hstep
      exact channel_of_asked hasked _ c
    · cases hstep
  | openElsewhere fd | closeElsewhere fd | runAllTask | finish =>
    simp only [PollLoop.step] at hstep
    split at hstep
    · obtain rfl := Option.some.inj hstep
      rfl
    · cases hstep
  | handle =>
    simp only [PollLoop.step] at hstep
    split at hstep
    · obtain rfl := Option.some.inj hstep
      rfl
    · cases hstep

/-- **The poller mirrors the channels.**  Take any run in which no channel is updated or released
after its release, whatever the rest of the process opens and closes.  The assertion of `Poll` has
not failed, and neither has any call of `epoll_ctl` but `EPOLL_CTL_DEL`.  Epoll watches a descriptor
exactly if its socket belongs to a channel that is registered, and for what that channel asks for.
The handlers that are about to run are those of open, registered channels.  Every further such step
changes the channels as the connections take it to, and a `Poll` gives each event to the owner of
its descriptor. -/
theorem poller_mirrors (as : List PollAction) (s : PollLoop) (h : exec step initial as = some s)
    (hlate : Along step (fun s a => ¬ s.Late a) initial as) :
    s.pc ≠ .aborted ∧ (∀ op ∈ s.failed, op = .del) ∧
      (∀ fd events, s.interest fd = some events ↔ ∃ c polled, s.Owns c polled ∧ polled.fd = fd ∧
        s.channel c = some ⟨events.epollin, events.epollout, true⟩) ∧
      (∀ actives, s.pc = .handling actives → ∀ c ∈ actives, ∃ polled, s.Owns c polled ∧
        s.channels polled.fd = some c) ∧
      ∀ a t, ¬ s.Late a → s.step a = some t →
        (∀ c, t.channel c = a.onChannel c (s.channel c)) ∧
          ∀ ready, a = .poll ready → ∃ actives, t.pc = .handling actives ∧
            List.Forall₂ (fun r c => ∃ polled, t.Owns c polled ∧ polled.fd = r.1 ∧
              polled.revents = r.2) ready actives := by
  have hmirrors : s.Mirrors :=
    exec_invariant_along (fun _ _ _ hi ha hstep => Mirrors.step hi ha hstep) mirrors_initial hlate h
  refine ⟨hmirrors.going, hmirrors.failed, ?_, fun _ => hmirrors.actives, ?_⟩
  · intro fd events
    rw [hmirrors.interest fd]
    constructor
    · intro hevents
      obtain ⟨c, hc, hasks⟩ := Option.bind_eq_some_iff.mp hevents
      obtain ⟨polled, howns, rfl⟩ := hmirrors.owner hc
      rw [howns.1, Option.map_some, Option.some.injEq] at hasks
      refine ⟨c, polled, howns, rfl, ?_⟩
      simp [channel, howns.1, hc, hasks]
    · rintro ⟨c, polled, howns, rfl, hchannel⟩
      simp only [channel, howns.1, Option.map_some, Option.some.injEq, Channel.mk.injEq,
        decide_eq_true_eq] at hchannel
      obtain ⟨hin, hout, hc⟩ := hchannel
      rw [hc, Option.bind_some, howns.1, Option.map_some]
      exact congrArg some (Interest.ext hin hout)
  · intro a t ha hstep
    refine ⟨hmirrors.channel_step ha hstep, ?_⟩
    rintro ready rfl
    simp only [step] at hstep
    split at hstep
    · rename_i hready
      obtain ⟨objects, actives, hcollect, hasked, hforall⟩ := hmirrors.poll hready.2
      rw [hcollect] at hstep
      obtain rfl := Option.some.inj hstep
      refine ⟨actives, rfl, hforall.imp fun r c hr => ?_⟩
      obtain ⟨hc, polled, hpolled, hfd, hrevents⟩ := hr
      refine ⟨polled, ⟨hpolled, ?_⟩, hfd, hrevents⟩
      obtain ⟨polled', howns', hfd'⟩ := hmirrors.owner hc
      show s.holder polled.fd = some (.socket c)
      rw [hfd, ← hfd']
      exact howns'.2
    · cases hstep

/-- A connection is released, and the next one has its descriptor. -/
def handedOn : List PollAction :=
  [.create 1 5, .update 1 .enableRead, .poll [(5, ⟨true, false, false, false, false, false⟩)],
    .handle, .runAllTask, .release 1, .create 2 5, .update 2 .enableRead, .finish]

theorem poller_mirrors_handedOn : ∃ s, exec step initial handedOn = some s ∧
    s.interest 5 = some ⟨true, false⟩ ∧ ∃ c polled, s.Owns c polled ∧ polled.fd = 5 ∧
      s.channel c = some ⟨true, false, true⟩ := by
  obtain ⟨s, hs⟩ : ∃ s, exec step initial handedOn = some s := ⟨_, rfl⟩
  have hinterest : ∀ s, exec step initial handedOn = some s →
      s.interest 5 = some ⟨true, false⟩ := by
    rintro _ ⟨⟩
    rfl
  refine ⟨s, hs, hinterest s hs, ?_⟩
  exact ((poller_mirrors handedOn s hs (by decide)).2.2.1 5 ⟨true, false⟩).mp (hinterest s hs)

/-! ## 5. A late update

What is left behind under a number that somebody else will get.  The next owner adds itself and is
not added, and is not told of anything until it is released. -/

/-- A call of `epoll_ctl` touches the interest list only, and only at its descriptor. -/
theorem ctl_frame (s : PollLoop) (op : CtlOp) (fd : Nat) (events : Interest) :
    (s.ctl op fd events).objects = s.objects ∧ (s.ctl op fd events).holder = s.holder ∧
      (s.ctl op fd events).channels = s.channels ∧
      ∀ fd', fd' ≠ fd ∨ s.holder fd = none →
        (s.ctl op fd events).interest fd' = s.interest fd' := by
  unfold ctl
  split
  · rename_i hsucceeds
    refine ⟨rfl, rfl, rfl, ?_⟩
    rintro fd' (hne | hclosed)
    · exact Function.update_of_ne hne _ _
    · simp [ctlSucceeds, hclosed] at hsucceeds
  · exact ⟨rfl, rfl, rfl, fun _ _ => rfl⟩

theorem updateEvent_frame (s : PollLoop) (c : Nat) (polled : Polled) :
    (s.updateEvent c polled).objects = s.objects ∧ (s.updateEvent c polled).holder = s.holder ∧
      (∀ fd, fd ≠ polled.fd → (s.updateEvent c polled).channels fd = s.channels fd) ∧
      ∀ fd, fd ≠ polled.fd ∨ s.holder polled.fd = none →
        (s.updateEvent c polled).interest fd = s.interest fd := by
  unfold updateEvent
  split
  · obtain ⟨hobjects, hholder, hchannels, hinterest⟩ :=
      ctl_frame { s with channels := Function.update s.channels polled.fd (some c) } .add polled.fd
        polled.events
    refine ⟨hobjects, hholder, fun fd hfd => ?_, hinterest⟩
    rw [hchannels]
    exact Function.update_of_ne hfd _ _
  · obtain ⟨hobjects, hholder, hchannels, hinterest⟩ := ctl_frame s .mod polled.fd polled.events
    exact ⟨hobjects, hholder, fun fd _ => congrFun hchannels fd, hinterest⟩

theorem release_frame (s : PollLoop) (c : Nat) (polled : Polled) {fd : Nat} (hfd : fd ≠ polled.fd) :
    ((s.removeEvent polled).close c polled.fd).holder fd = s.holder fd ∧
      ((s.removeEvent polled).close c polled.fd).channels fd = s.channels fd ∧
      ((s.removeEvent polled).close c polled.fd).interest fd = s.interest fd := by
  obtain ⟨-, hholder, hchannels, hinterest⟩ :=
    ctl_frame { s with channels := Function.update s.channels polled.fd none } .del polled.fd
      polled.events
  unfold removeEvent close
  split
  · refine ⟨?_, ?_, ?_⟩
    · dsimp only
      rw [Function.update_of_ne hfd, hholder]
    · dsimp only
      rw [hchannels]
      exact Function.update_of_ne hfd _ _
    · dsimp only
      rw [Function.update_of_ne hfd, hinterest fd (.inl hfd)]
  · refine ⟨congrFun hholder fd, ?_, hinterest fd (.inl hfd)⟩
    rw [hchannels]
    exact Function.update_of_ne hfd _ _

/-- After a release `_channels` has nothing under the descriptor, and epoll does not watch it. -/
theorem release_self (s : PollLoop) (c : Nat) (polled : Polled)
    (hopen : s.holder polled.fd = none → s.interest polled.fd = none) :
    ((s.removeEvent polled).close c polled.fd).channels polled.fd = none ∧
      ((s.removeEvent polled).close c polled.fd).interest polled.fd = none := by
  have hremoved : (s.removeEvent polled).channels polled.fd = none ∧
      (s.removeEvent polled).interest polled.fd = none := by
    unfold removeEvent ctl
    split
    · exact ⟨Function.update_self .., Function.update_self ..⟩
    · rename_i hfails
      refine ⟨Function.update_self .., ?_⟩
      dsimp only
      cases hholder : s.holder polled.fd with
      | none => exact hopen hholder
      | some holder => simpa [ctlSucceeds, hholder] using hfails
  unfold close
  split
  · exact ⟨hremoved.1, Function.update_self ..⟩
  · exact hremoved

/-- The kernel watches nothing that is closed. -/
def WatchesOpen (s : PollLoop) : Prop := ∀ fd, s.holder fd = none → s.interest fd = none

theorem WatchesOpen.step (h : s.WatchesOpen) {a : PollAction} (hstep : s.step a = some t) :
    t.WatchesOpen := by
  intro fd hclosed
  cases a with
  | create c fd' | openElsewhere fd' =>
    simp only [PollLoop.step] at hstep
    split at hstep
    · obtain rfl := Option.some.inj hstep
      have hne : fd ≠ fd' := by
        rintro rfl
        cases (Function.update_self ..).symm.trans hclosed
      exact h fd ((Function.update_of_ne hne _ _).symm.trans hclosed)
    · cases hstep
  | closeElsewhere fd' =>
    simp only [PollLoop.step] at hstep
    split at hstep
    · obtain rfl := Option.some.inj hstep
      by_cases hne : fd = fd'
      · subst hne
        exact Function.update_self ..
      · exact (Function.update_of_ne hne _ _).trans
          (h fd ((Function.update_of_ne hne _ _).symm.trans hclosed))
    · cases hstep
  | update c change =>
    simp only [PollLoop.step] at hstep
    split at hstep
    · rename_i polled hpolled
      split at hstep
      · obtain rfl := Option.some.inj hstep
        obtain ⟨-, hholder, -, hinterest⟩ := updateEvent_frame _ c
          ({ polled with events := change.events polled.events } : Polled)
        rw [hholder] at hclosed
        refine (hinterest fd ?_).trans (h fd hclosed)
        by_cases hne : fd = polled.fd
        · exact .inr (hne ▸ hclosed)
        · exact .inl hne
      · cases hstep
    · cases hstep
  | release c =>
    simp only [PollLoop.step] at hstep
    split at hstep
    · rename_i polled hpolled
      split at hstep
      · obtain rfl := Option.some.inj hstep
        by_cases hne : fd = polled.fd
        · subst hne
          exact (release_self s c polled (h polled.fd)).2
        · obtain ⟨hholder, -, hinterest⟩ := release_frame s c polled hne
          exact hinterest.trans (h fd (hholder.symm.trans hclosed))
      · cases hstep
    · cases hstep
  | poll ready =>
    simp only [PollLoop.step] at hstep
    split at hstep
    · split at hstep
      · obtain rfl := Option.some.inj hstep
        exact h fd hclosed
      · obtain rfl := Option.some.inj hstep
        exact h fd hclosed
    · cases hstep
  | handle | runAllTask | finish =>
    simp only [PollLoop.step] at hstep
    split at hstep
    · obtain rfl := Option.some.inj hstep
      exact h fd hclosed
    · cases hstep

/-- A descriptor that `_channels` has and epoll has not.  An update of it asks for a change of what
is not there, and fails each time. -/
def Stranded (s : PollLoop) (fd : Nat) : Prop :=
  s.interest fd = none ∧ s.channels fd ≠ none

/-- The action removes a channel of the descriptor. -/
def Frees (s : PollLoop) (fd : Nat) : PollAction → Prop
  | .release c => ∃ polled, s.objects c = some polled ∧ polled.fd = fd
  | _ => False

/-- `EPOLL_CTL_MOD` is the wrong choice, and all there is of it is a line in the log. -/
theorem Stranded.updateEvent {fd : Nat} (h : s.Stranded fd) (c : Nat) (hfd : polled.fd = fd) :
    s.updateEvent c polled = { s with failed := s.failed ++ [.mod] } := by
  subst hfd
  obtain ⟨hinterest, hchannels⟩ := h
  unfold PollLoop.updateEvent
  cases hold : s.channels polled.fd with
  | none => exact absurd hold hchannels
  | some old => simp [ctl, ctlSucceeds, hinterest]

theorem Stranded.step_update {fd : Nat} (h : s.Stranded fd) {change : Change}
    (hpolled : s.objects c = some polled) (hfd : polled.fd = fd)
    (hstep : s.step (.update c change) = some t) :
    t.interest = s.interest ∧ t.channels = s.channels ∧ t.failed = s.failed ++ [.mod] := by
  simp only [PollLoop.step, hpolled] at hstep
  split at hstep
  · let polled' : Polled := { polled with events := change.events polled.events }
    have hmid : ({ s with
        objects := Function.update s.objects c (some polled') } : PollLoop).Stranded fd := h
    have hfd' : polled'.fd = fd := hfd
    obtain rfl := (hmid.updateEvent c hfd').symm.trans (Option.some.inj hstep)
    exact ⟨rfl, rfl, rfl⟩
  · cases hstep

/-- **Nothing but a release helps**: a stranded descriptor stays stranded, with the same entry in
`_channels`, through any other action. -/
theorem Stranded.step {fd : Nat} (h : s.Stranded fd) {a : PollAction} (ha : ¬ s.Frees fd a)
    (hstep : s.step a = some t) : t.Stranded fd ∧ t.channels fd = s.channels fd := by
  cases a with
  | create c fd' | openElsewhere fd' | handle | runAllTask | finish =>
    simp only [PollLoop.step] at hstep
    split at hstep
    · obtain rfl := Option.some.inj hstep
      exact ⟨h, rfl⟩
    · cases hstep
  | closeElsewhere fd' =>
    simp only [PollLoop.step] at hstep
    split at hstep
    · obtain rfl := Option.some.inj hstep
      refine ⟨⟨?_, h.2⟩, rfl⟩
      by_cases hne : fd = fd'
      · subst hne
        exact Function.update_self ..
      · exact (Function.update_of_ne hne _ _).trans h.1
    · cases hstep
  | update c change =>
    cases hpolled : s.objects c with
    | none => simp [PollLoop.step, hpolled] at hstep
    | some polled =>
      by_cases hfd : polled.fd = fd
      · obtain ⟨hinterest, hchannels, -⟩ := h.step_update hpolled hfd hstep
        exact ⟨⟨hinterest ▸ h.1, hchannels ▸ h.2⟩, congrFun hchannels fd⟩
      · simp only [PollLoop.step, hpolled] at hstep
        split at hstep
        · obtain rfl := Option.some.inj hstep
          obtain ⟨-, -, hchannels, hinterest⟩ := updateEvent_frame
            ({ s with objects := _ } : PollLoop) c
            ({ polled with events := change.events polled.events } : Polled)
          have hsame := hchannels fd (Ne.symm hfd)
          exact ⟨⟨(hinterest fd (.inl (Ne.symm hfd))).trans h.1, hsame ▸ h.2⟩, hsame⟩
        · cases hstep
  | release c =>
    simp only [PollLoop.step] at hstep
    split at hstep
    · rename_i polled hpolled
      split at hstep
      · obtain rfl := Option.some.inj hstep
        have hne : fd ≠ polled.fd := fun heq => ha ⟨polled, hpolled, heq.symm⟩
        obtain ⟨-, hchannels, hinterest⟩ := release_frame s c polled hne
        exact ⟨⟨hinterest.trans h.1, hchannels ▸ h.2⟩, hchannels⟩
      · cases hstep
    · cases hstep
  | poll ready =>
    simp only [PollLoop.step] at hstep
    split at hstep
    · split at hstep
      · obtain rfl := Option.some.inj hstep
        exact ⟨h, rfl⟩
      · obtain rfl := Option.some.inj hstep
        exact ⟨h, rfl⟩
    · cases hstep

/-- A late update of a channel whose descriptor is closed strands the descriptor. -/
theorem stranded_of_update (h : s.WatchesOpen) (hpolled : s.objects c = some polled)
    (hclosed : s.holder polled.fd = none) {change : Change}
    (hstep : s.step (.update c change) = some t) : t.Stranded polled.fd := by
  simp only [step, hpolled] at hstep
  split at hstep
  · obtain rfl := Option.some.inj hstep
    let polled' : Polled := { polled with events := change.events polled.events }
    obtain ⟨-, -, -, hinterest⟩ := updateEvent_frame
      { s with objects := Function.update s.objects c (some polled') } c polled'
    refine ⟨(hinterest _ (.inr hclosed)).trans (h _ hclosed), ?_⟩
    unfold updateEvent
    cases hold : s.channels polled.fd with
    | none => simp [ctl, ctlSucceeds, hclosed]
    | some old => simp [hold, ctl, ctlSucceeds, hclosed]
  · cases hstep

/-- **What a late update does to the next owner of the descriptor.**  Take any run, and in it an
update of a channel whose descriptor is closed by then.  In every run from there on in which no
channel of that number is released, whoever has the number next and whatever he enables, epoll does
not watch the descriptor, no `Poll` reports it, and each further update of a channel of that number
is a failure of `EPOLL_CTL_MOD` that changes nothing.  The release of such a channel ends it. -/
theorem stranded_until_released (as : List PollAction) (s : PollLoop)
    (h : exec step initial as = some s) (c : Nat) (polled : Polled) (change : Change) (t : PollLoop)
    (hpolled : s.objects c = some polled) (hclosed : s.holder polled.fd = none)
    (hstep : s.step (.update c change) = some t) (bs : List PollAction) (u : PollLoop)
    (hbs : Along step (fun v b => ¬ v.Frees polled.fd b) t bs) (hu : exec step t bs = some u) :
    u.interest polled.fd = none ∧ u.channels polled.fd = t.channels polled.fd ∧
      (∀ ready v, u.step (.poll ready) = some v → ∀ r ∈ ready, r.1 ≠ polled.fd) ∧
      (∀ c' change' polled' v, u.objects c' = some polled' → polled'.fd = polled.fd →
        u.step (.update c' change') = some v →
        v.interest = u.interest ∧ v.failed = u.failed ++ [.mod]) ∧
      ∀ c' polled' v, u.objects c' = some polled' → polled'.fd = polled.fd →
        u.step (.release c') = some v → v.channels polled.fd = none := by
  have hinitial : initial.WatchesOpen := fun _ _ => rfl
  have hopen : s.WatchesOpen :=
    exec_invariant (fun _ _ _ hi hstep => WatchesOpen.step hi hstep) hinitial h
  have hstranded := stranded_of_update hopen hpolled hclosed hstep
  obtain ⟨hu', hsame⟩ : u.Stranded polled.fd ∧ u.channels polled.fd = t.channels polled.fd := by
    refine exec_invariant_along
      (I := fun v => v.Stranded polled.fd ∧ v.channels polled.fd = t.channels polled.fd)
      (fun v b v' hv hb hstep => ?_) ⟨hstranded, rfl⟩ hbs hu
    obtain ⟨hnext, hkept⟩ := hv.1.step hb hstep
    exact ⟨hnext, hkept.trans hv.2⟩
  have hopen' : u.WatchesOpen :=
    exec_invariant (fun _ _ _ hi hstep => WatchesOpen.step hi hstep) (hopen.step hstep) hu
  refine ⟨hu'.1, hsame, ?_, ?_, ?_⟩
  · rintro ready v hpoll r hr heq
    simp only [step] at hpoll
    split at hpoll
    · rename_i hready
      have hwatched := hready.2.2.2 r hr
      rw [heq, hu'.1] at hwatched
      cases hwatched
    · cases hpoll
  · intro c' change' polled' v hpolled' hfd' hupdate
    obtain ⟨hinterest, -, hfailed⟩ := hu'.step_update hpolled' hfd' hupdate
    exact ⟨hinterest, hfailed⟩
  · intro c' polled' v hpolled' hfd' hrelease
    simp only [step, hpolled'] at hrelease
    split at hrelease
    · obtain rfl := Option.some.inj hrelease
      rw [← hfd']
      exact (release_self u c' polled' (hopen' _)).1
    · cases hrelease

/-- A connection is shut down after its release, with its bytes unsent; the next one that is
accepted gets its descriptor, is established and has something to send. -/
def lateUpdate : List PollAction :=
  [.create 1 5, .update 1 .enableRead, .poll [(5, ⟨true, false, false, false, false, false⟩)],
    .handle, .runAllTask, .release 1]

theorem stranded_until_released_lateUpdate : ∃ s t u, exec step initial lateUpdate = some s ∧
    s.step (.update 1 .enableWrite) = some t ∧
    exec step t [.create 2 5, .update 2 .enableRead, .update 2 .enableWrite, .finish] = some u ∧
    u.channel 2 = some ⟨true, true, false⟩ ∧ u.interest 5 = none := by
  refine ⟨_, _, _, rfl, rfl, rfl, rfl, ?_⟩
  refine (stranded_until_released lateUpdate _ rfl 1
    ⟨5, ⟨true, false⟩, ⟨true, false, false, false, false, false⟩⟩ .enableWrite _ rfl rfl rfl
    [.create 2 5, .update 2 .enableRead, .update 2 .enableWrite, .finish] _ ?_ rfl).1
  exact ⟨nofun, fun _ h => Option.some.inj h ▸ ⟨nofun, fun _ h => Option.some.inj h ▸
    ⟨nofun, fun _ h => Option.some.inj h ▸ ⟨nofun, fun _ _ => trivial⟩⟩⟩⟩

end PollLoop

end OnlineJudge.Muduo
