/-
# Switching the release of an inactive connection on and off

`EnableInactiveReleaseInLoop`, `CancelInactiveReleaseInLoop` and `HandleEvent` of a `Connection`
(`net/muduo.hpp`) work on one task in the timer wheel of the loop, which it shares with the other
connections.  A cancelled task stays in the wheel, and in `_timers`, until its slot is cleared; as
long as it is there, switching the release on again refreshes it and does nothing else.

`Inactive` tells what the wheel holds for the connection, without slots and references, and
`Follows.step` that the wheel does so, whatever the other connections do.

* `Inactive.silent_run`: a cancelled task never queues the release.
* `inactive_release_iff`: after the release is switched on, it is queued within 60 quiet seconds
  exactly if it had been queued before or no cancelled task was in the wheel.
-/
import OnlineJudge.Muduo.TimerWheel

namespace OnlineJudge.Muduo

/-! ## 1. The functions of the connection

Three functions of a connection work on the wheel, and other connections work on it as well.  The
flag of the connection and the task in the wheel are changed apart, and need not agree. -/

def TimerWheel.hasTimer (w : TimerWheel) (id : UInt64) : Bool := (w.timers id).isSome

/-- What the functions of the connection use: its flag, and the wheel of its loop. -/
structure InactiveRelease where
  enableInactiveRelease : Bool
  timerWheel : TimerWheel

/-- What happens on the thread of the loop: the two calls, an event of the connection, a second,
and what another connection does to the wheel. -/
inductive InactiveAction
  | enableInactiveRelease (sec : Nat)
  | cancelInactiveRelease
  | handleEvent
  | runTimerTask
  | other (a : TimerAction)
deriving DecidableEq

namespace InactiveRelease

/-- A connection that is new, in a loop that is new. -/
def new : InactiveRelease := ⟨false, .new⟩

def enableInactiveReleaseInLoop (s : InactiveRelease) (id : UInt64) (sec : Nat) :
    InactiveRelease :=
  if s.timerWheel.hasTimer id then ⟨true, s.timerWheel.timerRefresh id⟩
  else ⟨true, s.timerWheel.timerAdd id sec⟩

def cancelInactiveReleaseInLoop (s : InactiveRelease) (id : UInt64) : InactiveRelease :=
  if s.timerWheel.hasTimer id then ⟨false, s.timerWheel.timerCancel id⟩
  else ⟨false, s.timerWheel⟩

/-- `HandleEvent`, as far as the timer goes. -/
def handleEvent (s : InactiveRelease) (id : UInt64) : InactiveRelease :=
  if s.enableInactiveRelease then { s with timerWheel := s.timerWheel.timerRefresh id } else s

def step (id : UInt64) (s : InactiveRelease) : InactiveAction → InactiveRelease
  | .enableInactiveRelease sec => s.enableInactiveReleaseInLoop id sec
  | .cancelInactiveRelease => s.cancelInactiveReleaseInLoop id
  | .handleEvent => s.handleEvent id
  | .runTimerTask => { s with timerWheel := s.timerWheel.runTimerTask }
  | .other a => { s with timerWheel := s.timerWheel.step a }

def run (id : UInt64) (as : List InactiveAction) : InactiveRelease := as.foldl (step id) new

/-- When `Release` has been queued: the callback of the task does nothing else. -/
def queued (s : InactiveRelease) (id : UInt64) : List Nat := s.timerWheel.firedAt id

/-- A task of the connection that has been cancelled is still in the wheel, where a refresh finds
it. -/
def CancelledTask (s : InactiveRelease) (id : UInt64) : Prop :=
  ∃ r task, s.timerWheel.timers id = some r ∧ s.timerWheel.held r ∧
    s.timerWheel.tasks[r]? = some task ∧ task.canceled = true

end InactiveRelease

/-- An action on the wheel that is for another connection. -/
def TimerAction.Elsewhere (id : UInt64) : TimerAction → Prop
  | .timerAdd id' _ => id' ≠ id
  | .timerRefresh id' => id' ≠ id
  | .timerCancel id' => id' ≠ id
  | .runTimerTask => False

/-- What the callers keep to: a number of seconds between 1 and `_capacity`. -/
def InactiveAction.Ok (id : UInt64) : InactiveAction → Prop
  | .enableInactiveRelease sec => 1 ≤ sec ∧ sec ≤ capacity
  | .other a => a.Elsewhere id
  | _ => True

/-- No call of the two: an event or a second, or another connection. -/
def InactiveAction.NoCall : InactiveAction → Prop
  | .enableInactiveRelease _ => False
  | .cancelInactiveRelease => False
  | _ => True

/-- No event either. -/
def InactiveAction.Quiet : InactiveAction → Prop
  | .handleEvent => False
  | a => a.NoCall

/-! ## 2. What the wheel holds for the connection

A machine with one task, or none, and the relation that ties it to a wheel with slots and
references. -/

/-- The task in the wheel: its delay, the second in which it was added or last refreshed, and
whether it has been cancelled. -/
structure Waits where
  delay : Nat
  touched : Nat
  canceled : Bool
deriving DecidableEq

/-- The wheel from the side of one connection. -/
structure Inactive where
  now : Nat
  enabled : Bool
  waits : Option Waits
  queued : List Nat
deriving DecidableEq

namespace Inactive

def new : Inactive := ⟨0, false, none, []⟩

/-- The task is refreshed, if there is one. -/
def refresh (m : Inactive) : Inactive :=
  { m with waits := m.waits.map fun x => { x with touched := m.now } }

def next (m : Inactive) : InactiveAction → Inactive
  | .enableInactiveRelease sec =>
    match m.waits with
    | none => { m with enabled := true, waits := some ⟨sec, m.now, false⟩ }
    | some _ => { m.refresh with enabled := true }
  | .cancelInactiveRelease =>
    { m with enabled := false, waits := m.waits.map fun x => { x with canceled := true } }
  | .handleEvent => if m.enabled then m.refresh else m
  | .runTimerTask =>
    match m.waits with
    | none => { m with now := m.now + 1 }
    | some x =>
      if x.touched + x.delay = m.now + 1 then
        { m with
          now := m.now + 1
          waits := none
          queued := m.queued ++ if x.canceled then [] else [m.now + 1] }
      else { m with now := m.now + 1 }
  | .other _ => m

def run (m : Inactive) (as : List InactiveAction) : Inactive := as.foldl next m

end Inactive

namespace TimerWheel

/-- What holds of the wheel at any time: the hand is where the clock is, and slots and `_timers`
refer to objects that there are, `_timers` to one with the id. -/
structure Sound (w : TimerWheel) : Prop where
  tick : w.tick = slotAt w.now
  known : ∀ p r, r ∈ w.wheel p → r < w.tasks.length
  named : ∀ id r, w.timers id = some r → w.idAt r = some id

/-- The object `r` is the task of the connection, and the only one of this id in the wheel. -/
structure Holds (w : TimerWheel) (id : UInt64) (r : Nat) (x : Waits) : Prop where
  timers : w.timers id = some r
  task : w.tasks[r]? = some ⟨id, x.delay, x.canceled⟩
  waiting : w.Waiting r x.delay x.touched
  only : ∀ r', w.idAt r' = some id → w.held r' → r' = r

/-- What the wheel holds for the connection. -/
def Shows (w : TimerWheel) (id : UInt64) : Option Waits → Prop
  | none => w.timers id = none ∧ ∀ r, w.idAt r = some id → ¬ w.held r
  | some x => ∃ r, w.Holds id r x

variable {w w' : TimerWheel} {id : UInt64}

theorem sound_new : new.Sound where
  tick := rfl
  known := by simp [new]
  named := by simp [new]

theorem shows_new (id : UInt64) : new.Shows id none := by
  refine ⟨rfl, ?_⟩
  rintro r - ⟨p, hp⟩
  cases hp

theorem firedAt_congr (h : w'.fired = w.fired) (id : UInt64) : w'.firedAt id = w.firedAt id := by
  rw [firedAt, h, firedAt]

theorem lt_of_idAt {r : Nat} (h : w.idAt r = some id) : r < w.tasks.length := by
  obtain ⟨task, htask, -⟩ := idAt_eq_some.mp h
  exact (List.getElem?_eq_some_iff.mp htask).1

theorem Holds.idAt {r : Nat} {x : Waits} (h : w.Holds id r x) : w.idAt r = some id :=
  idAt_eq_some.mpr ⟨_, h.task, rfl⟩

theorem Shows.hasTimer {waits : Option Waits} (h : w.Shows id waits) :
    w.hasTimer id = waits.isSome := by
  cases waits with
  | none => rw [TimerWheel.hasTimer, h.1]; rfl
  | some x =>
    obtain ⟨r, hr⟩ := h
    rw [TimerWheel.hasTimer, hr.timers]
    rfl

/-- What is done to objects of other connections changes nothing for this one. -/
theorem Shows.congr {waits : Option Waits} (h : w.Shows id waits)
    (htimers : w'.timers id = w.timers id) (hnow : w'.now = w.now)
    (hidAt : ∀ r, w'.idAt r = some id → w.idAt r = some id)
    (hsame : ∀ r, w.idAt r = some id →
      w'.tasks[r]? = w.tasks[r]? ∧ ∀ p, r ∈ w'.wheel p ↔ r ∈ w.wheel p) :
    w'.Shows id waits := by
  have hheld : ∀ r, w.idAt r = some id → w'.held r → w.held r := by
    rintro r hr ⟨p, hp⟩
    exact ⟨p, ((hsame r hr).2 p).mp hp⟩
  cases waits with
  | none =>
    refine ⟨htimers.trans h.1, ?_⟩
    intro r hr hheld'
    exact h.2 r (hidAt r hr) (hheld r (hidAt r hr) hheld')
  | some x =>
    obtain ⟨r, hr⟩ := h
    obtain ⟨htask, hwheel⟩ := hsame r hr.idAt
    refine ⟨r, htimers.trans hr.timers, htask.trans hr.task, hr.waiting.congr hwheel hnow, ?_⟩
    intro r' hr' hheld'
    exact hr.only r' (hidAt r' hr') (hheld r' (hidAt r' hr') hheld')

/-! ## 3. What is done to the wheel

One lemma for each operation, by whether it is for this connection or for another.  The other's
leave what is shown alone. -/

theorem Sound.timerAdd (h : w.Sound) (id : UInt64) (delay : Nat) : (w.timerAdd id delay).Sound := by
  have hlen : (w.timerAdd id delay).tasks.length = w.tasks.length + 1 := by
    simp [TimerWheel.timerAdd]
  refine ⟨h.tick, ?_, ?_⟩
  · intro p r hr
    rw [hlen]
    rcases (mem_wheel_timerAdd h.tick).mp hr with hr | ⟨-, rfl⟩
    · exact Nat.lt_succ_of_lt (h.known p r hr)
    · exact Nat.lt_succ_self _
  · intro id' r hr
    rw [idAt_timerAdd]
    by_cases hid : id' = id
    · subst hid
      have hlast : (w.timerAdd id' delay).timers id' = some w.tasks.length := by
        simp [TimerWheel.timerAdd]
      rw [hlast, Option.some.injEq] at hr
      exact Or.inr ⟨hr.symm, rfl⟩
    · have hother : (w.timerAdd id delay).timers id' = w.timers id' := by
        simp [TimerWheel.timerAdd, hid]
      exact Or.inl (h.named id' r (hother ▸ hr))

theorem Sound.timerRefresh (h : w.Sound) (id : UInt64) : (w.timerRefresh id).Sound := by
  cases hr : w.timers id with
  | none =>
    rw [TimerWheel.timerRefresh, hr]
    exact h
  | some r =>
    obtain ⟨task, htask, -⟩ := idAt_eq_some.mp (h.named id r hr)
    by_cases hheld : w.held r
    · rw [timerRefresh_eq h.tick hr hheld htask]
      refine ⟨h.tick, ?_, h.named⟩
      intro p r' hr'
      rcases mem_wheel_pushBack.mp hr' with hr' | ⟨-, rfl⟩
      · exact h.known p r' hr'
      · exact (List.getElem?_eq_some_iff.mp htask).1
    · simp only [TimerWheel.timerRefresh, hr, if_neg hheld]
      refine ⟨h.tick, h.known, ?_⟩
      intro id' r' hr'
      by_cases hid : id' = id
      · simp [hid] at hr'
      · exact h.named id' r' (by simpa [hid] using hr')

theorem Sound.timerCancel (h : w.Sound) (id : UInt64) : (w.timerCancel id).Sound := by
  have hidAt := w.idAt_timerCancel id
  cases hr : w.timers id with
  | none =>
    simp only [TimerWheel.timerCancel, hr]
    exact h
  | some r =>
    by_cases hheld : w.held r
    · rw [timerCancel_eq hr hheld] at hidAt ⊢
      refine ⟨h.tick, ?_, ?_⟩
      · intro p r' hr'
        rw [List.length_modify]
        exact h.known p r' hr'
      · intro id' r' hr'
        rw [hidAt]
        exact h.named id' r' hr'
    · simp only [TimerWheel.timerCancel, hr, if_neg hheld]
      exact h

theorem Sound.runTimerTask (h : w.Sound) : w.runTimerTask.Sound := by
  obtain ⟨hwheel, htasks, htick, -⟩ := runTimerTask_same h.tick
  refine ⟨htick, ?_, ?_⟩
  · intro p r hr
    rw [hwheel, mem_wheel_advance h.tick] at hr
    rw [htasks]
    exact h.known p r hr.2
  · intro id r hr
    have htimers : w.advance.timers id = w.timers id := rfl
    rw [runTimerTask_eq h.tick, timers_foldl_destroy, htimers] at hr
    split at hr
    · cases hr
    · rw [TimerWheel.idAt, htasks]
      exact h.named id r hr

/-- **The wheel stays sound**, whoever works on it: the hand goes with the clock, and nothing refers
to an object that is not there. -/
theorem Sound.step (h : w.Sound) (a : TimerAction) : (w.step a).Sound := by
  cases a with
  | timerAdd id delay => exact h.timerAdd id delay
  | timerRefresh id => exact h.timerRefresh id
  | timerCancel id => exact h.timerCancel id
  | runTimerTask => exact h.runTimerTask

theorem Sound.timerAdd_other (h : w.Sound) {waits : Option Waits} (hshows : w.Shows id waits)
    {id' : UInt64} (hne : id' ≠ id) (delay : Nat) : (w.timerAdd id' delay).Shows id waits := by
  refine hshows.congr ?_ rfl ?_ ?_
  · simp [TimerWheel.timerAdd, Ne.symm hne]
  · intro r hr
    rcases idAt_timerAdd.mp hr with hr | ⟨-, hid⟩
    · exact hr
    · exact absurd hid.symm hne
  · intro r hr
    have hlt := lt_of_idAt hr
    refine ⟨List.getElem?_append_left hlt, ?_⟩
    intro p
    refine (mem_wheel_timerAdd h.tick).trans (or_iff_left ?_)
    rintro ⟨-, hlast⟩
    omega

theorem Sound.timerRefresh_other (h : w.Sound) {waits : Option Waits} (hshows : w.Shows id waits)
    {id' : UInt64} (hne : id' ≠ id) :
    (w.timerRefresh id').Shows id waits ∧ (w.timerRefresh id').now = w.now ∧
      (w.timerRefresh id').fired = w.fired := by
  cases hr : w.timers id' with
  | none =>
    simp only [TimerWheel.timerRefresh, hr]
    exact ⟨hshows, trivial, trivial⟩
  | some r =>
    obtain ⟨task, htask, -⟩ := idAt_eq_some.mp (h.named id' r hr)
    by_cases hheld : w.held r
    · rw [timerRefresh_eq h.tick hr hheld htask]
      refine ⟨hshows.congr rfl rfl (fun r' hr' => hr') ?_, rfl, rfl⟩
      intro r' hr'
      refine ⟨rfl, ?_⟩
      intro p
      refine mem_wheel_pushBack.trans (or_iff_left ?_)
      rintro ⟨-, rfl⟩
      exact hne (Option.some.inj ((h.named id' r' hr).symm.trans hr'))
    · simp only [TimerWheel.timerRefresh, hr, if_neg hheld]
      refine ⟨hshows.congr ?_ rfl (fun r' hr' => hr') fun _ _ => ⟨rfl, fun _ => Iff.rfl⟩,
        trivial, trivial⟩
      simp [Ne.symm hne]

theorem Sound.timerCancel_other (h : w.Sound) {waits : Option Waits} (hshows : w.Shows id waits)
    {id' : UInt64} (hne : id' ≠ id) :
    (w.timerCancel id').Shows id waits ∧ (w.timerCancel id').now = w.now ∧
      (w.timerCancel id').fired = w.fired := by
  have hidAt := w.idAt_timerCancel id'
  cases hr : w.timers id' with
  | none =>
    simp only [TimerWheel.timerCancel, hr]
    exact ⟨hshows, trivial, trivial⟩
  | some r =>
    by_cases hheld : w.held r
    · rw [timerCancel_eq hr hheld] at hidAt ⊢
      refine ⟨hshows.congr rfl rfl (fun r' hr' => by rwa [hidAt] at hr') ?_, rfl, rfl⟩
      intro r' hr'
      refine ⟨?_, fun _ => Iff.rfl⟩
      have hother : r ≠ r' := by
        rintro rfl
        exact hne (Option.some.inj ((h.named id' r hr).symm.trans hr'))
      exact List.getElem?_modify_ne _ _ hother
    · simp only [TimerWheel.timerCancel, hr, if_neg hheld]
      exact ⟨hshows, trivial, trivial⟩

/-- **What another connection does** changes nothing for this one. -/
theorem Sound.elsewhere (h : w.Sound) {waits : Option Waits} (hshows : w.Shows id waits)
    {a : TimerAction} (ha : a.Elsewhere id) :
    (w.step a).Shows id waits ∧ (w.step a).now = w.now ∧ (w.step a).fired = w.fired := by
  cases a with
  | timerAdd id' delay => exact ⟨h.timerAdd_other hshows ha delay, rfl, rfl⟩
  | timerRefresh id' => exact h.timerRefresh_other hshows ha
  | timerCancel id' => exact h.timerCancel_other hshows ha
  | runTimerTask => exact ha.elim

theorem Sound.shows_timerAdd (h : w.Sound) (hshows : w.Shows id none) {delay : Nat}
    (hpos : 1 ≤ delay) (hle : delay ≤ capacity) :
    (w.timerAdd id delay).Shows id (some ⟨delay, w.now, false⟩) := by
  refine ⟨w.tasks.length, ?_, ?_, waiting_timerAdd h.tick h.known id hpos hle, ?_⟩
  · simp [TimerWheel.timerAdd]
  · simp [TimerWheel.timerAdd]
  · rintro r hr ⟨p, hp⟩
    rcases idAt_timerAdd.mp hr with hr | ⟨hr, -⟩
    · rcases (mem_wheel_timerAdd h.tick).mp hp with hp | ⟨-, hlast⟩
      · exact absurd ⟨p, hp⟩ (hshows.2 r hr)
      · exact hlast
    · exact hr

/-- The connection refreshes its task, if there is one. -/
theorem Sound.shows_timerRefresh (h : w.Sound) {waits : Option Waits}
    (hshows : w.Shows id waits) :
    (w.timerRefresh id).Shows id (waits.map fun x => { x with touched := w.now }) ∧
      (w.timerRefresh id).now = w.now ∧ (w.timerRefresh id).fired = w.fired := by
  cases waits with
  | none =>
    rw [TimerWheel.timerRefresh, hshows.1]
    exact ⟨hshows, rfl, rfl⟩
  | some x =>
    obtain ⟨r, hr⟩ := hshows
    rw [timerRefresh_eq h.tick hr.timers hr.waiting.held hr.task]
    refine ⟨⟨r, hr.timers, hr.task, hr.waiting.pushBack, ?_⟩, rfl, rfl⟩
    rintro r' hr' ⟨p, hp⟩
    rcases mem_wheel_pushBack.mp hp with hp | ⟨-, hlast⟩
    · exact hr.only r' hr' ⟨p, hp⟩
    · exact hlast

/-- The connection cancels its task, if there is one. -/
theorem shows_timerCancel {waits : Option Waits} (hshows : w.Shows id waits) :
    (w.timerCancel id).Shows id (waits.map fun x => { x with canceled := true }) ∧
      (w.timerCancel id).now = w.now ∧ (w.timerCancel id).fired = w.fired := by
  have hidAt := w.idAt_timerCancel id
  cases waits with
  | none =>
    simp only [TimerWheel.timerCancel, hshows.1]
    exact ⟨hshows, trivial, trivial⟩
  | some x =>
    obtain ⟨r, hr⟩ := hshows
    rw [timerCancel_eq hr.timers hr.waiting.held] at hidAt ⊢
    have htask : (w.tasks.modify r fun task => { task with canceled := true })[r]? =
        some ⟨id, x.delay, true⟩ := by
      rw [List.getElem?_modify_eq, hr.task]
      rfl
    refine ⟨⟨r, hr.timers, htask, hr.waiting.congr (fun _ => Iff.rfl) rfl, ?_⟩, rfl, rfl⟩
    intro r' hr' hheld
    rw [hidAt] at hr'
    exact hr.only r' hr' hheld

/-- The callbacks of the next second are those of the object in the wheel. -/
theorem Holds.firedAt_runTimerTask (h : w.Sound) {r : Nat} {x : Waits} (hr : w.Holds id r x) :
    w.runTimerTask.firedAt id = w.firedAt id ++
      if x.touched + x.delay = w.now + 1 then (if x.canceled then [] else [w.now + 1]) else [] := by
  have hfired : w.advance.firedAt id = w.firedAt id := rfl
  have hcalls : w.advance.calls id = w.calls id := rfl
  have hnow : w.advance.now = w.now + 1 := rfl
  -- of the objects of this id only `r` can be among those that are destroyed
  have hfilter : w.dying.filter (w.calls id) =
      w.dying.filter fun a => w.calls id a && a == r := by
    refine List.filter_congr ?_
    intro a ha
    by_cases hcall : w.calls id a = true
    · obtain ⟨task, htask, hid, -⟩ := calls_eq_true.mp hcall
      have hsame := hr.only a (idAt_eq_some.mpr ⟨task, htask, hid⟩) ⟨_, (mem_doomed.mp ha).1⟩
      simp [hsame]
    · simp [Bool.eq_false_iff.mpr hcall]
  have hunique : ∀ a, (w.calls id a && a == r) = true → a = r := by
    intro a ha
    exact beq_iff_eq.mp (Bool.and_eq_true_iff.mp ha).2
  have hcall : (w.calls id r && r == r) = !x.canceled := by
    rw [beq_self_eq_true, Bool.and_true, calls, hr.task]
    simp
  rw [runTimerTask_eq h.tick, firedAt_foldl_destroy, hfired, hcalls, hnow, hfilter,
    filter_eq_of_unique w.nodup_dying hunique, hcall]
  have hdying := hr.waiting.mem_dying h.tick
  by_cases hdue : x.touched + x.delay = w.now + 1
  · have hmem := hdying.mpr hdue
    cases x.canceled <;> simp [hdue, hmem]
  · have hstays : r ∉ w.dying := fun hmem => hdue (hdying.mp hmem)
    simp [hdue, hstays]

/-- A second passes for a connection without a task. -/
theorem Sound.shows_none_runTimerTask (h : w.Sound) (hshows : w.Shows id none) :
    w.runTimerTask.Shows id none ∧ w.runTimerTask.firedAt id = w.firedAt id := by
  obtain ⟨hwheel, htasks, -, -⟩ := runTimerTask_same h.tick
  have hfree : ∀ r ∈ w.dying, w.idAt r ≠ some id := by
    intro r hr hid
    exact hshows.2 r hid ⟨_, (mem_doomed.mp hr).1⟩
  refine ⟨⟨?_, ?_⟩, ?_⟩
  · have htimers : w.advance.timers id = none := hshows.1
    rw [runTimerTask_eq h.tick, timers_foldl_destroy, htimers, ite_self]
  · rintro r hr ⟨p, hp⟩
    rw [TimerWheel.idAt, htasks] at hr
    rw [hwheel, mem_wheel_advance h.tick] at hp
    exact hshows.2 r hr ⟨p, hp.2⟩
  · have hfired : w.advance.firedAt id = w.firedAt id := rfl
    have hnone : w.dying.filter (w.advance.calls id) = [] := by
      refine List.filter_eq_nil_iff.mpr ?_
      intro r hr hcall
      obtain ⟨task, htask, hid, -⟩ := calls_eq_true.mp hcall
      exact hfree r hr (idAt_eq_some.mpr ⟨task, htask, hid⟩)
    rw [runTimerTask_eq h.tick, firedAt_foldl_destroy, hfired, hnone, List.map_nil,
      List.append_nil]

/-- A second passes for a connection with a task. -/
theorem Sound.shows_some_runTimerTask (h : w.Sound) {x : Waits} (hshows : w.Shows id (some x)) :
    w.runTimerTask.Shows id (if x.touched + x.delay = w.now + 1 then none else some x) ∧
      w.runTimerTask.firedAt id = w.firedAt id ++
        if x.touched + x.delay = w.now + 1 then (if x.canceled then [] else [w.now + 1])
        else [] := by
  obtain ⟨r, hr⟩ := hshows
  refine ⟨?_, hr.firedAt_runTimerTask h⟩
  obtain ⟨hwheel, htasks, -, hnow⟩ := runTimerTask_same h.tick
  have hheld : ∀ r', w.runTimerTask.held r' → w.held r' := by
    rintro r' ⟨p, hp⟩
    rw [hwheel, mem_wheel_advance h.tick] at hp
    exact ⟨p, hp.2⟩
  have hidAt : w.runTimerTask.idAt = w.idAt := by
    funext r'
    rw [TimerWheel.idAt, htasks, TimerWheel.idAt]
  have htimers : w.runTimerTask.timers id =
      if ∃ r ∈ w.dying, w.idAt r = some id then none else w.timers id := by
    rw [runTimerTask_eq h.tick, timers_foldl_destroy]
    rfl
  have hdying := hr.waiting.mem_dying h.tick
  by_cases hdue : x.touched + x.delay = w.now + 1
  · rw [if_pos hdue]
    refine ⟨?_, ?_⟩
    · rw [htimers, if_pos ⟨r, hdying.mpr hdue, hr.idAt⟩]
    · intro r' hr' hheld'
      rw [hidAt] at hr'
      obtain rfl := hr.only r' hr' (hheld r' hheld')
      refine (mem_doomed.mp (hdying.mpr hdue)).2 ?_
      obtain ⟨p, hp⟩ := hheld'
      exact ⟨p, hwheel ▸ hp⟩
  · rw [if_neg hdue]
    have hstays : ¬ ∃ r ∈ w.dying, w.idAt r = some id := by
      rintro ⟨r', hr', hid⟩
      obtain rfl := hr.only r' hid ⟨_, (mem_doomed.mp hr').1⟩
      exact hdue (hdying.mp hr')
    have hwait := hr.waiting.advance h.tick hdue
    refine ⟨r, ?_, ?_, hwait.congr (fun p => by rw [hwheel]) hnow, ?_⟩
    · rw [htimers, if_neg hstays]
      exact hr.timers
    · rw [htasks]
      exact hr.task
    · intro r' hr' hheld'
      rw [hidAt] at hr'
      exact hr.only r' hr' (hheld r' hheld')

end TimerWheel

/-! ## 4. The connection follows the machine

Every action of the connection and of others is a step of the machine, so a run of the code is a run
of the machine. -/

/-- The connection and its wheel are what the machine says, so that a statement about the one can be
proved of the other. -/
structure InactiveRelease.Follows (s : InactiveRelease) (id : UInt64) (m : Inactive) : Prop where
  sound : s.timerWheel.Sound
  now : s.timerWheel.now = m.now
  enabled : s.enableInactiveRelease = m.enabled
  shows : s.timerWheel.Shows id m.waits
  queued : s.queued id = m.queued

namespace InactiveRelease

variable {s : InactiveRelease} {id : UInt64} {m : Inactive}

theorem follows_new (id : UInt64) : new.Follows id .new where
  sound := TimerWheel.sound_new
  now := rfl
  enabled := rfl
  shows := TimerWheel.shows_new id
  queued := rfl

theorem Follows.refresh (h : s.Follows id m) (flag : Bool) :
    Follows ⟨flag, s.timerWheel.timerRefresh id⟩ id { m.refresh with enabled := flag } := by
  obtain ⟨hshows, hnow, hfired⟩ := h.sound.shows_timerRefresh h.shows
  refine ⟨h.sound.timerRefresh id, hnow.trans h.now, rfl, ?_, ?_⟩
  · rw [h.now] at hshows
    exact hshows
  · exact (TimerWheel.firedAt_congr hfired id).trans h.queued

theorem Follows.enable (h : s.Follows id m) {sec : Nat} (hpos : 1 ≤ sec) (hle : sec ≤ capacity) :
    (s.enableInactiveReleaseInLoop id sec).Follows id (m.next (.enableInactiveRelease sec)) := by
  have htimer := h.shows.hasTimer
  cases hwaits : m.waits with
  | none =>
    rw [hwaits] at htimer
    have hnone : s.timerWheel.Shows id none := hwaits ▸ h.shows
    rw [enableInactiveReleaseInLoop, htimer, if_neg (by simp), Inactive.next, hwaits]
    refine ⟨h.sound.timerAdd id sec, h.now, rfl, ?_, h.queued⟩
    have hshows := h.sound.shows_timerAdd hnone hpos hle
    rw [h.now] at hshows
    exact hshows
  | some x =>
    rw [hwaits] at htimer
    rw [enableInactiveReleaseInLoop, htimer, if_pos (by rfl), Inactive.next, hwaits]
    exact h.refresh true

theorem Follows.cancel (h : s.Follows id m) :
    (s.cancelInactiveReleaseInLoop id).Follows id (m.next .cancelInactiveRelease) := by
  have htimer := h.shows.hasTimer
  obtain ⟨hshows, hnow, hfired⟩ := TimerWheel.shows_timerCancel h.shows
  rw [cancelInactiveReleaseInLoop, htimer]
  cases hwaits : m.waits with
  | none =>
    rw [if_neg (by simp)]
    refine ⟨h.sound, h.now, rfl, ?_, h.queued⟩
    have hnone : s.timerWheel.Shows id none := hwaits ▸ h.shows
    rw [Inactive.next, hwaits]
    exact hnone
  | some x =>
    rw [if_pos (by rfl)]
    exact ⟨h.sound.timerCancel id, hnow.trans h.now, rfl, hshows,
      (TimerWheel.firedAt_congr hfired id).trans h.queued⟩

theorem Follows.event (h : s.Follows id m) :
    (s.handleEvent id).Follows id (m.next .handleEvent) := by
  have hflag := h.enabled
  rw [handleEvent, Inactive.next]
  cases hm : m.enabled with
  | false =>
    rw [hm] at hflag
    rw [hflag]
    exact h
  | true =>
    rw [hm] at hflag
    have hrefresh := h.refresh true
    rw [← hm] at hrefresh
    rw [hflag, if_pos rfl, if_pos rfl]
    rw [← hflag, hflag.trans hm.symm]
    exact hrefresh

theorem Follows.second (h : s.Follows id m) :
    Follows { s with timerWheel := s.timerWheel.runTimerTask } id (m.next .runTimerTask) := by
  obtain ⟨-, -, -, hnow⟩ := TimerWheel.runTimerTask_same h.sound.tick
  rw [h.now] at hnow
  have hqueued : s.timerWheel.firedAt id = m.queued := h.queued
  rw [Inactive.next]
  cases hwaits : m.waits with
  | none =>
    have hnone : s.timerWheel.Shows id none := hwaits ▸ h.shows
    obtain ⟨hshows, hfired⟩ := h.sound.shows_none_runTimerTask hnone
    rw [hqueued] at hfired
    exact ⟨h.sound.runTimerTask, hnow, h.enabled, hshows, hfired⟩
  | some x =>
    have hsome : s.timerWheel.Shows id (some x) := hwaits ▸ h.shows
    obtain ⟨hshows, hfired⟩ := h.sound.shows_some_runTimerTask hsome
    rw [hqueued, h.now] at hfired
    rw [h.now] at hshows
    by_cases hdue : x.touched + x.delay = m.now + 1
    · simp only [if_pos hdue] at hshows hfired ⊢
      exact ⟨h.sound.runTimerTask, hnow, h.enabled, hshows, hfired⟩
    · simp only [if_neg hdue, List.append_nil] at hshows hfired ⊢
      exact ⟨h.sound.runTimerTask, hnow, h.enabled, hshows, hfired⟩

/-- **The step lemma**: an action on the connection and its wheel is the machine's action of the
same name, and one for another connection is none. -/
theorem Follows.step (h : s.Follows id m) {a : InactiveAction} (ha : a.Ok id) :
    (step id s a).Follows id (m.next a) := by
  cases a with
  | enableInactiveRelease sec => exact h.enable ha.1 ha.2
  | cancelInactiveRelease => exact h.cancel
  | handleEvent => exact h.event
  | runTimerTask => exact h.second
  | other a =>
    obtain ⟨hshows, hnow, hfired⟩ := h.sound.elsewhere h.shows ha
    exact ⟨h.sound.step a, hnow.trans h.now, h.enabled, hshows,
      (TimerWheel.firedAt_congr hfired id).trans h.queued⟩

/-- **The run lemma**, by induction on the actions. -/
theorem Follows.foldl (h : s.Follows id m) {as : List InactiveAction} (has : ∀ a ∈ as, a.Ok id) :
    (as.foldl (InactiveRelease.step id) s).Follows id (m.run as) := by
  induction as generalizing s m with
  | nil => exact h
  | cons a as ih =>
    obtain ⟨ha, has⟩ := List.forall_mem_cons.mp has
    exact ih (h.step ha) has

theorem follows_run {as : List InactiveAction} (has : ∀ a ∈ as, a.Ok id) :
    (run id as).Follows id (Inactive.new.run as) :=
  (follows_new id).foldl has

/-- The cancelled task of the connection is that of the machine. -/
theorem Follows.cancelledTask_iff (h : s.Follows id m) :
    s.CancelledTask id ↔ ∃ x, m.waits = some x ∧ x.canceled = true := by
  have hshows := h.shows
  cases hwaits : m.waits with
  | none =>
    rw [hwaits] at hshows
    refine iff_of_false ?_ (by simp)
    rintro ⟨r, task, hr, -⟩
    rw [hshows.1] at hr
    cases hr
  | some x =>
    rw [hwaits] at hshows
    obtain ⟨r, hr⟩ := hshows
    constructor
    · rintro ⟨r', task, htimers, -, htask, hcanceled⟩
      obtain rfl := Option.some.inj (hr.timers.symm.trans htimers)
      rw [← Option.some.inj (hr.task.symm.trans htask)] at hcanceled
      exact ⟨x, rfl, hcanceled⟩
    · rintro ⟨x', hx', hcanceled⟩
      obtain rfl := Option.some.inj hx'
      exact ⟨r, _, hr.timers, hr.waiting.held, hr.task, hcanceled⟩

end InactiveRelease

/-! ## 5. What the machine comes to

On the machine the argument is short: a cancelled task leaves without a call, however often it is
refreshed, and a task that is left alone queues the release in time. -/

namespace Inactive

variable {m : Inactive} {as : List InactiveAction}

theorem run_append (m : Inactive) (as bs : List InactiveAction) :
    m.run (as ++ bs) = (m.run as).run bs :=
  List.foldl_append

/-- No task in the wheel will queue the release: there is none, or it has been cancelled. -/
def Silent (m : Inactive) : Prop := ∀ x, m.waits = some x → x.canceled = true

/-- Refreshing a cancelled task leaves it cancelled. -/
theorem Silent.refresh (h : m.Silent) : m.refresh.Silent := by
  intro x hx
  obtain ⟨y, hy, rfl⟩ := Option.map_eq_some_iff.mp hx
  exact h y hy

theorem Silent.next (h : m.Silent) {a : InactiveAction} (ha : a.NoCall) :
    (m.next a).Silent ∧ (m.next a).queued = m.queued := by
  cases a with
  | enableInactiveRelease sec => exact ha.elim
  | cancelInactiveRelease => exact ha.elim
  | handleEvent =>
    rw [Inactive.next]
    split
    · exact ⟨h.refresh, rfl⟩
    · exact ⟨h, rfl⟩
  | runTimerTask =>
    rw [Inactive.next]
    cases hwaits : m.waits with
    | none =>
      refine ⟨?_, rfl⟩
      intro x hx
      cases hx
    | some x =>
      simp only [h x hwaits]
      split
      · refine ⟨?_, List.append_nil _⟩
        intro y hy
        cases hy
      · refine ⟨?_, rfl⟩
        intro y hy
        obtain rfl := Option.some.inj hy
        exact h x hwaits
  | other a => exact ⟨h, rfl⟩

/-- **A cancelled task never queues the release**, whatever events and seconds follow. -/
theorem silent_run (h : m.Silent) (has : ∀ a ∈ as, a.NoCall) : (m.run as).queued = m.queued := by
  induction as generalizing m with
  | nil => rfl
  | cons a as ih =>
    obtain ⟨ha, has⟩ := List.forall_mem_cons.mp has
    obtain ⟨hsilent, hqueued⟩ := h.next ha
    exact (ih hsilent has).trans hqueued

theorem queued_next (h : m.queued ≠ []) (a : InactiveAction) : (m.next a).queued ≠ [] := by
  cases a with
  | enableInactiveRelease sec =>
    rw [next]
    split <;> exact h
  | handleEvent =>
    rw [next]
    split <;> exact h
  | runTimerTask =>
    rw [next]
    split
    · exact h
    · split
      · simp [h]
      · exact h
  | cancelInactiveRelease => exact h
  | other a => exact h

/-- A task waits that has not been cancelled, and its time has not come.  The bounds are those that
the wheel has slots for. -/
structure Pending (m : Inactive) (x : Waits) : Prop where
  waits : m.waits = some x
  live : x.canceled = false
  delay_pos : 1 ≤ x.delay
  delay_le : x.delay ≤ capacity
  touched_le : x.touched ≤ m.now
  lt_due : m.now < x.touched + x.delay

theorem Pending.refresh {x : Waits} (h : m.Pending x) :
    m.refresh.Pending { x with touched := m.now } where
  waits := by rw [Inactive.refresh, h.waits]; rfl
  live := h.live
  delay_pos := h.delay_pos
  delay_le := h.delay_le
  touched_le := Nat.le_refl m.now
  lt_due := Nat.lt_add_of_pos_right h.delay_pos

/-- A second later the task still waits, or the release is queued. -/
theorem Pending.second {x : Waits} (h : m.Pending x) :
    (m.next .runTimerTask).queued ≠ [] ∨
      (m.next .runTimerTask).Pending x ∧ (m.next .runTimerTask).now = m.now + 1 := by
  rw [next, h.waits]
  by_cases hdue : x.touched + x.delay = m.now + 1
  · left
    simp [hdue, h.live]
  · right
    simp only [if_neg hdue]
    have hlt := h.lt_due
    have hle := h.touched_le
    refine ⟨⟨rfl, h.live, h.delay_pos, h.delay_le, ?_, ?_⟩, trivial⟩ <;> simp only <;> omega

/-- The release is queued, or a task waits for it.  From here sixty quiet seconds are enough,
whatever the delay. -/
def Armed (m : Inactive) : Prop := m.queued ≠ [] ∨ ∃ x, m.Pending x

theorem Armed.next (h : m.Armed) {a : InactiveAction} (ha : a.NoCall) : (m.next a).Armed := by
  rcases h with hqueued | ⟨x, hx⟩
  · exact Or.inl (queued_next hqueued a)
  · cases a with
    | enableInactiveRelease sec => exact ha.elim
    | cancelInactiveRelease => exact ha.elim
    | handleEvent =>
      rw [Inactive.next]
      split
      · exact Or.inr ⟨_, hx.refresh⟩
      · exact Or.inr ⟨x, hx⟩
    | runTimerTask =>
      rcases hx.second with hqueued | ⟨hpending, -⟩
      · exact Or.inl hqueued
      · exact Or.inr ⟨x, hpending⟩
    | other a => exact Or.inr ⟨x, hx⟩

theorem armed_run (h : m.Armed) (has : ∀ a ∈ as, a.NoCall) : (m.run as).Armed := by
  induction as generalizing m with
  | nil => exact h
  | cons a as ih =>
    obtain ⟨ha, has⟩ := List.forall_mem_cons.mp has
    exact ih (h.next ha) has

theorem queued_run (h : m.queued ≠ []) (as : List InactiveAction) : (m.run as).queued ≠ [] := by
  induction as generalizing m with
  | nil => exact h
  | cons a as ih => exact ih (queued_next h a)

/-- A task that is left alone queues the release when its second has come. -/
theorem Pending.quiet_run {x : Waits} (h : m.Pending x) (has : ∀ a ∈ as, a.Quiet)
    (hdue : x.touched + x.delay ≤ m.now + as.count .runTimerTask) : (m.run as).queued ≠ [] := by
  induction as generalizing m with
  | nil =>
    have := h.lt_due
    simp only [List.count_nil] at hdue
    omega
  | cons a as ih =>
    obtain ⟨ha, hrest⟩ := List.forall_mem_cons.mp has
    cases a with
    | enableInactiveRelease sec => exact ha.elim
    | cancelInactiveRelease => exact ha.elim
    | handleEvent => exact ha.elim
    | runTimerTask =>
      rw [List.count_cons_self] at hdue
      rcases h.second with hqueued | ⟨hpending, hnow⟩
      · exact queued_run hqueued as
      · refine ih hpending hrest ?_
        rw [hnow]
        omega
    | other a =>
      rw [List.count_cons_of_ne (by simp)] at hdue
      exact ih h hrest hdue

/-- **Sixty quiet seconds are enough**: an armed connection that nobody touches has queued its
release by then. -/
theorem Armed.quiet_run (h : m.Armed) (has : ∀ a ∈ as, a.Quiet)
    (hseconds : capacity ≤ as.count .runTimerTask) : (m.run as).queued ≠ [] := by
  rcases h with hqueued | ⟨x, hx⟩
  · exact queued_run hqueued as
  · refine hx.quiet_run has ?_
    have := hx.delay_le
    have := hx.touched_le
    omega

/-- Switching the release off leaves no task that would queue it. -/
theorem silent_cancel (m : Inactive) : (m.next .cancelInactiveRelease).Silent := by
  intro x hx
  obtain ⟨y, -, rfl⟩ := Option.map_eq_some_iff.mp hx
  rfl

/-- Switching it on refreshes a cancelled task, and arms the machine otherwise. -/
theorem enable_cases (m : Inactive) {sec : Nat} (hpos : 1 ≤ sec) (hle : sec ≤ capacity)
    (hdelay : ∀ x, m.waits = some x → 1 ≤ x.delay ∧ x.delay ≤ capacity) :
    (∃ x, m.waits = some x ∧ x.canceled = true) ∧
        (m.next (.enableInactiveRelease sec)).Silent ∨
      (¬ ∃ x, m.waits = some x ∧ x.canceled = true) ∧
        (m.next (.enableInactiveRelease sec)).Armed := by
  rw [next]
  cases hwaits : m.waits with
  | none =>
    refine Or.inr ⟨by simp, Or.inr ⟨⟨sec, m.now, false⟩, ?_⟩⟩
    exact ⟨rfl, rfl, hpos, hle, Nat.le_refl m.now, Nat.lt_add_of_pos_right hpos⟩
  | some x =>
    obtain ⟨hxpos, hxle⟩ := hdelay x hwaits
    have hrefresh : m.refresh.waits = some { x with touched := m.now } := by
      rw [refresh, hwaits]
      rfl
    cases hcanceled : x.canceled with
    | true =>
      refine Or.inl ⟨⟨x, rfl, hcanceled⟩, ?_⟩
      intro y hy
      obtain rfl := Option.some.inj (hrefresh.symm.trans hy)
      exact hcanceled
    | false =>
      refine Or.inr ⟨?_, Or.inr ⟨{ x with touched := m.now }, ?_⟩⟩
      · rintro ⟨y, hy, hy'⟩
        obtain rfl := Option.some.inj hy
        rw [hcanceled] at hy'
        cases hy'
      · exact ⟨hrefresh, hcanceled, hxpos, hxle, Nat.le_refl m.now,
          Nat.lt_add_of_pos_right hxpos⟩

end Inactive

/-! ## 6. Every run

The result on the machine, read off the connection that follows it. -/

namespace InactiveRelease

variable {id : UInt64}

/-- The delays of the tasks in the wheel are those that were asked for. -/
theorem Follows.delay {s : InactiveRelease} {m : Inactive} (h : s.Follows id m) {x : Waits}
    (hx : m.waits = some x) : 1 ≤ x.delay ∧ x.delay ≤ capacity := by
  have hshows := h.shows
  rw [hx] at hshows
  obtain ⟨r, hr⟩ := hshows
  exact ⟨hr.waiting.delay_pos, hr.waiting.delay_le⟩

/-- What follows a part of a run. -/
theorem run_append_cons (id : UInt64) (pre rest : List InactiveAction) (a : InactiveAction) :
    run id (pre ++ a :: rest) = rest.foldl (step id) (step id (run id pre) a) := by
  rw [run, List.foldl_append, List.foldl_cons, ← run]

/-- **Switching the release on and off.**  Over every run, with whatever other connections do to
the wheel: after the release is switched on and events of any number, it has been queued by the end
of 60 quiet seconds if and only if it had been queued before, or no cancelled task of the
connection was in the wheel when it was switched on.  After it is switched off nothing queues it. -/
theorem inactive_release_iff (id : UInt64) :
    (∀ (pre mid quiet : List InactiveAction) (sec : Nat),
      (∀ a ∈ pre ++ .enableInactiveRelease sec :: (mid ++ quiet), a.Ok id) →
      (∀ a ∈ mid, a.NoCall) → (∀ a ∈ quiet, a.Quiet) →
      60 ≤ quiet.count .runTimerTask →
        ((run id (pre ++ .enableInactiveRelease sec :: (mid ++ quiet))).queued id ≠ [] ↔
          (run id pre).queued id ≠ [] ∨ ¬ (run id pre).CancelledTask id)) ∧
    ∀ pre mid : List InactiveAction,
      (∀ a ∈ pre ++ .cancelInactiveRelease :: mid, a.Ok id) → (∀ a ∈ mid, a.NoCall) →
        (run id (pre ++ .cancelInactiveRelease :: mid)).queued id = (run id pre).queued id := by
  constructor
  · intro pre mid quiet sec hok hmid hquiet hseconds
    obtain ⟨hpre, hrest⟩ := List.forall_mem_append.mp hok
    obtain ⟨hsec, hrest⟩ := List.forall_mem_cons.mp hrest
    have hbefore := follows_run hpre
    have hcall := hbefore.step hsec
    have hafter := hcall.foldl hrest
    have hnoCall : ∀ a ∈ mid ++ quiet, a.NoCall := by
      refine List.forall_mem_append.mpr ⟨hmid, ?_⟩
      intro a ha
      have := hquiet a ha
      cases a with
      | handleEvent => exact this.elim
      | _ => exact this
    rw [run_append_cons, hafter.queued, hbefore.queued, hbefore.cancelledTask_iff]
    rcases Inactive.enable_cases _ hsec.1 hsec.2 (fun x hx => hbefore.delay hx) with
      ⟨hcancelled, hsilent⟩ | ⟨hnot, harmed⟩
    · have hsame : ((Inactive.new.run pre).next (.enableInactiveRelease sec)).queued =
          (Inactive.new.run pre).queued := by
        rw [Inactive.next]
        split <;> rfl
      rw [Inactive.silent_run hsilent hnoCall, hsame]
      exact (or_iff_left (not_not_intro hcancelled)).symm
    · refine iff_of_true ?_ (Or.inr hnot)
      rw [Inactive.run_append]
      exact (Inactive.armed_run harmed hmid).quiet_run hquiet hseconds
  · intro pre mid hok hmid
    obtain ⟨hpre, hrest⟩ := List.forall_mem_append.mp hok
    obtain ⟨hcancel, hrest⟩ := List.forall_mem_cons.mp hrest
    have hbefore := follows_run hpre
    have hafter := (hbefore.step hcancel).foldl hrest
    rw [run_append_cons, hafter.queued, hbefore.queued,
      Inactive.silent_run (Inactive.silent_cancel _) hmid]
    rfl

/-- On, off, and on again once the cancelled task has left the wheel; and on and off. -/
theorem inactive_release_iff_later :
    (run 1 ([.enableInactiveRelease 10, .cancelInactiveRelease] ++
        List.replicate 10 .runTimerTask ++ .enableInactiveRelease 10 ::
          ([.handleEvent] ++ List.replicate 60 .runTimerTask))).queued 1 ≠ [] ∧
    (run 1 ([.enableInactiveRelease 10] ++
        .cancelInactiveRelease :: List.replicate 60 .runTimerTask)).queued 1 =
      (run 1 [.enableInactiveRelease 10]).queued 1 := by
  constructor
  · have hok : ∀ a ∈ [.enableInactiveRelease 10, .cancelInactiveRelease] ++
        List.replicate 10 .runTimerTask, InactiveAction.Ok 1 a := by
      simp [InactiveAction.Ok, capacity]
    refine ((inactive_release_iff 1).1 _ [.handleEvent] _ 10 ?_ ?_ ?_ (by decide)).mpr (Or.inr ?_)
    · simp [InactiveAction.Ok, capacity]
    · simp [InactiveAction.NoCall]
    · simp [InactiveAction.Quiet, InactiveAction.NoCall]
    · have hnone : (Inactive.new.run ([.enableInactiveRelease 10, .cancelInactiveRelease] ++
          List.replicate 10 .runTimerTask)).waits = none := by decide
      rw [(follows_run hok).cancelledTask_iff, hnone]
      rintro ⟨x, hx, -⟩
      cases hx
  · refine (inactive_release_iff 1).2 [.enableInactiveRelease 10] _ ?_ ?_
    · simp [InactiveAction.Ok, capacity]
    · simp [InactiveAction.NoCall]

/-- Off and on again at once, and a minute later the release has not been queued. -/
theorem enable_after_cancel :
    ¬ ∀ (id : UInt64) (pre mid quiet : List InactiveAction) (sec : Nat),
      (∀ a ∈ pre ++ .enableInactiveRelease sec :: (mid ++ quiet), a.Ok id) →
      (∀ a ∈ mid, a.NoCall) → (∀ a ∈ quiet, a.Quiet) →
      60 ≤ quiet.count .runTimerTask →
        (run id (pre ++ .enableInactiveRelease sec :: (mid ++ quiet))).queued id ≠ [] := by
  intro h
  have hok : ∀ a ∈ [.enableInactiveRelease 10, .cancelInactiveRelease] ++
      .enableInactiveRelease 10 :: ([] ++ List.replicate 60 .runTimerTask),
        InactiveAction.Ok 1 a := by
    simp [InactiveAction.Ok, capacity]
  have hquiet : ∀ a ∈ List.replicate 60 InactiveAction.runTimerTask, a.Quiet := by
    simp [InactiveAction.Quiet, InactiveAction.NoCall]
  refine h 1 _ [] _ 10 hok (by simp) hquiet (by decide) ?_
  rw [(follows_run hok).queued]
  decide

end InactiveRelease

end OnlineJudge.Muduo
