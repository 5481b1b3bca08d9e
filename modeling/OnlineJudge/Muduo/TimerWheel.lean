/-
# The timer wheel

`TimerWheel` (`net/muduo.hpp`) runs a task by destroying it.  A slot of the wheel holds
`shared_ptr`s; `RunTimerTask` clears the next slot every second, and the destructor of a task runs
its callback and takes its id out of `_timers`.  A refresh adds a reference in a later slot and
leaves the old ones where they are, so a task lives until the LAST of its references is dropped.

References are explicit here: a `shared_ptr` is the index of its object in the list of all objects
ever built, an object is alive while its index is in a slot, and clearing a slot drops the
references one by one (`release`).  What a callback does is outside; that it ran is on record in
`fired`.

* `release_eq`: an object is destroyed once, with the last reference to it.
* `Tracks.mem_dying`: it is destroyed in the second in which its task is due, and in no other.
* `timer_wheel`: over every run, the record and `_timers` are what the lives of the tasks
  (`Life`) say.
-/
import Mathlib.Data.Fin.Basic
import Mathlib.Data.List.Dedup
import Mathlib.Logic.Function.Basic
import Mathlib.Tactic.Common
import OnlineJudge.Muduo.TimerLife

namespace OnlineJudge.Muduo

/-! ## 1. The wheel

The functions as they are in the source, with the use count spelled out: it is not a number here,
but the slots that refer to an object. -/

/-- `TimerTask`, without its callbacks: what they do is outside of the wheel. -/
structure TimerTask where
  id : UInt64
  timeout : Nat
  canceled : Bool
deriving DecidableEq

/-- `_capacity`: the number of slots, and the longest delay. -/
abbrev capacity : Nat := 60

/-- The slot of a number of seconds. -/
def slotAt (n : Nat) : Fin capacity := ⟨n % capacity, Nat.mod_lt _ (by decide)⟩

/-- `TimerWheel`.  `tasks` are the objects that have ever been built, and the slots and `_timers`
refer to them by index.  The last two fields are records: the seconds that have passed, and each
call of a callback with its second. -/
structure TimerWheel where
  tick : Fin capacity
  wheel : Fin capacity → List Nat
  timers : UInt64 → Option Nat
  tasks : List TimerTask
  now : Nat
  fired : List (UInt64 × Nat)

namespace TimerWheel

/-- The constructor. -/
def new : TimerWheel where
  tick := slotAt 0
  wheel := fun _ => []
  timers := fun _ => none
  tasks := []
  now := 0
  fired := []

/-- The use count of an object is not 0: some slot refers to it. -/
def held (w : TimerWheel) (r : Nat) : Prop := ∃ p, r ∈ w.wheel p

instance (w : TimerWheel) (r : Nat) : Decidable (w.held r) :=
  inferInstanceAs (Decidable (∃ p, r ∈ w.wheel p))

/-- `_wheel[pos].push_back(pt)`. -/
def pushBack (w : TimerWheel) (pos : Fin capacity) (r : Nat) : TimerWheel :=
  { w with wheel := Function.update w.wheel pos (w.wheel pos ++ [r]) }

/-- `TimerAddInLoop`. -/
def timerAdd (w : TimerWheel) (id : UInt64) (delay : Nat) : TimerWheel :=
  let r := w.tasks.length
  { w.pushBack (slotAt (w.tick + delay)) r with
    tasks := w.tasks ++ [⟨id, delay, false⟩]
    timers := Function.update w.timers id (some r) }

/-- `TimerRefreshInLoop`. -/
def timerRefresh (w : TimerWheel) (id : UInt64) : TimerWheel :=
  match w.timers id with
  | none => w
  | some r =>
    -- `lock()` gives nothing once the object is gone
    if w.held r then
      match w.tasks[r]? with
      | none => w
      | some task => w.pushBack (slotAt (w.tick + task.timeout)) r
    else { w with timers := Function.update w.timers id none }

/-- `TimerCancelInLoop`. -/
def timerCancel (w : TimerWheel) (id : UInt64) : TimerWheel :=
  match w.timers id with
  | none => w
  | some r =>
    if w.held r then
      { w with tasks := w.tasks.modify r fun task => { task with canceled := true } }
    else w

/-- `~TimerTask`, with `RemoveTimer`. -/
def destroy (w : TimerWheel) (r : Nat) : TimerWheel :=
  match w.tasks[r]? with
  | none => w
  | some task =>
    { w with
      fired := if task.canceled then w.fired else w.fired ++ [(task.id, w.now)]
      timers := Function.update w.timers task.id none }

/-- `clear()` of a slot with these references: they are dropped in order, and an object is
destroyed with the last reference to it. -/
def release (w : TimerWheel) : List Nat → TimerWheel
  | [] => w
  | r :: refs => release (if r ∈ refs ∨ w.held r then w else w.destroy r) refs

/-- The next second, with the references of its slot taken out. -/
def advance (w : TimerWheel) : TimerWheel :=
  { w with
    tick := slotAt (w.tick + 1)
    now := w.now + 1
    wheel := Function.update w.wheel (slotAt (w.tick + 1)) [] }

def runTimerTask (w : TimerWheel) : TimerWheel :=
  w.advance.release (w.wheel (slotAt (w.tick + 1)))

end TimerWheel

/-- The id that an action adds. -/
def TimerAction.added : TimerAction → Option UInt64
  | .timerAdd id _ => some id
  | _ => none

namespace TimerWheel

def step (w : TimerWheel) : TimerAction → TimerWheel
  | .timerAdd id delay => w.timerAdd id delay
  | .timerRefresh id => w.timerRefresh id
  | .timerCancel id => w.timerCancel id
  | .runTimerTask => w.runTimerTask

/-- A run from the constructor on. -/
def run (as : List TimerAction) : TimerWheel := as.foldl step new

/-- When the callback of a task has run. -/
def firedAt (w : TimerWheel) (id : UInt64) : List Nat :=
  (w.fired.filter fun e => e.1 = id).map Prod.snd

end TimerWheel

/-- Delays are between 1 and `_capacity`, and no id is added twice.  This is what the callers are to
see to: the wheel does not look. -/
def Proper (as : List TimerAction) : Prop :=
  (∀ id delay, TimerAction.timerAdd id delay ∈ as → 1 ≤ delay ∧ delay ≤ capacity) ∧
    (as.filterMap TimerAction.added).Nodup

/-! ## 2. Slots and references

Clearing a slot drops its references one by one, and an object may have several in it.  It is
destroyed with the last one, wherever that is. -/

theorem slotAt_eq {m n : Nat} : slotAt m = slotAt n ↔ m % capacity = n % capacity := by
  simp [slotAt]

/-- Two seconds in one turn of the wheel have different slots. -/
theorem eq_of_slotAt_eq {now m n : Nat} (h : slotAt m = slotAt n) (hm : now < m)
    (hm' : m ≤ now + capacity) (hn : now < n) (hn' : n ≤ now + capacity) : m = n := by
  rw [slotAt_eq] at h
  unfold capacity at *
  omega

theorem slotAt_val_add (m n : Nat) : slotAt ((slotAt m : Fin capacity) + n) = slotAt (m + n) := by
  rw [slotAt_eq]
  exact Nat.mod_add_mod m capacity n

namespace TimerWheel

@[simp] theorem mem_wheel_pushBack {w : TimerWheel} {pos p : Fin capacity} {r r' : Nat} :
    r' ∈ (w.pushBack pos r).wheel p ↔ r' ∈ w.wheel p ∨ (p = pos ∧ r' = r) := by
  by_cases hp : p = pos
  · subst hp
    simp [pushBack]
  · simp [pushBack, hp]

/-- The objects that are destroyed when a slot with these references is cleared. -/
def doomed (w : TimerWheel) (refs : List Nat) : List Nat :=
  refs.dedup.filter fun r => ¬ w.held r

theorem mem_doomed {w : TimerWheel} {refs : List Nat} {r : Nat} :
    r ∈ w.doomed refs ↔ r ∈ refs ∧ ¬ w.held r := by
  simp [doomed]

@[simp] theorem wheel_destroy (w : TimerWheel) (r : Nat) : (w.destroy r).wheel = w.wheel := by
  unfold destroy
  split <;> rfl

@[simp] theorem tasks_destroy (w : TimerWheel) (r : Nat) : (w.destroy r).tasks = w.tasks := by
  unfold destroy
  split <;> rfl

@[simp] theorem tick_destroy (w : TimerWheel) (r : Nat) : (w.destroy r).tick = w.tick := by
  unfold destroy
  split <;> rfl

@[simp] theorem now_destroy (w : TimerWheel) (r : Nat) : (w.destroy r).now = w.now := by
  unfold destroy
  split <;> rfl

theorem held_destroy (w : TimerWheel) (r r' : Nat) : (w.destroy r).held r' ↔ w.held r' := by
  rw [held, wheel_destroy, held]

/-- **An object is destroyed once**, with the last reference to it. -/
theorem release_eq (w : TimerWheel) (refs : List Nat) :
    w.release refs = (w.doomed refs).foldl destroy w := by
  induction refs generalizing w with
  | nil => rfl
  | cons r refs ih =>
    have hdoomed : ∀ w' : TimerWheel, (∀ r', w'.held r' ↔ w.held r') →
        w'.doomed refs = w.doomed refs := by
      intro w' hheld
      simp only [doomed, hheld]
    by_cases hmem : r ∈ refs
    · rw [release, if_pos (Or.inl hmem), ih, doomed, doomed, List.dedup_cons_of_mem hmem]
    · by_cases hheld : w.held r
      · rw [release, if_pos (Or.inr hheld), ih, doomed, doomed, List.dedup_cons_of_notMem hmem,
          List.filter_cons_of_neg (by simpa using hheld)]
      · rw [release, if_neg (not_or.mpr ⟨hmem, hheld⟩), ih, hdoomed _ (held_destroy w r), doomed,
          doomed, List.dedup_cons_of_notMem hmem, List.filter_cons_of_pos (by simpa using hheld),
          List.foldl_cons]

/-- The fields that destroying objects leaves alone. -/
theorem foldl_destroy_same (w : TimerWheel) (refs : List Nat) :
    (refs.foldl destroy w).wheel = w.wheel ∧ (refs.foldl destroy w).tasks = w.tasks ∧
      (refs.foldl destroy w).tick = w.tick ∧ (refs.foldl destroy w).now = w.now := by
  induction refs generalizing w with
  | nil => exact ⟨rfl, rfl, rfl, rfl⟩
  | cons r refs ih => simpa using ih (w.destroy r)

/-- The id of an object. -/
def idAt (w : TimerWheel) (r : Nat) : Option UInt64 := w.tasks[r]?.map TimerTask.id

/-- Destroying an object calls the callback of this task. -/
def calls (w : TimerWheel) (id : UInt64) (r : Nat) : Bool :=
  w.tasks[r]?.any fun task => task.id = id && !task.canceled

theorem idAt_destroy (w : TimerWheel) (r : Nat) : (w.destroy r).idAt = w.idAt := by
  funext r'
  rw [idAt, tasks_destroy, idAt]

theorem calls_destroy (w : TimerWheel) (r : Nat) : (w.destroy r).calls = w.calls := by
  funext id r'
  rw [calls, tasks_destroy, calls]

theorem timers_destroy (w : TimerWheel) (r : Nat) (id : UInt64) :
    (w.destroy r).timers id = if w.idAt r = some id then none else w.timers id := by
  unfold destroy idAt
  cases htask : w.tasks[r]? with
  | none => simp
  | some task =>
    by_cases hid : id = task.id
    · simp [hid]
    · simp [hid, Ne.symm hid]

theorem firedAt_destroy (w : TimerWheel) (r : Nat) (id : UInt64) :
    (w.destroy r).firedAt id = w.firedAt id ++ if w.calls id r then [w.now] else [] := by
  unfold destroy calls firedAt
  cases htask : w.tasks[r]? with
  | none => simp
  | some task =>
    cases hcanceled : task.canceled with
    | true => simp [hcanceled]
    | false =>
      by_cases hid : task.id = id
      · simp [hcanceled, hid]
      · simp [hcanceled, hid]

/-- The ids of destroyed objects leave `_timers`. -/
theorem timers_foldl_destroy (w : TimerWheel) (refs : List Nat) (id : UInt64) :
    (refs.foldl destroy w).timers id =
      if ∃ r ∈ refs, w.idAt r = some id then none else w.timers id := by
  induction refs generalizing w with
  | nil => simp
  | cons r refs ih =>
    rw [List.foldl_cons, ih, idAt_destroy, timers_destroy]
    by_cases hr : w.idAt r = some id
    · simp [hr]
    · simp [hr]

theorem firedAt_foldl_destroy (w : TimerWheel) (refs : List Nat) (id : UInt64) :
    (refs.foldl destroy w).firedAt id =
      w.firedAt id ++ (refs.filter (w.calls id)).map fun _ => w.now := by
  induction refs generalizing w with
  | nil => simp
  | cons r refs ih =>
    rw [List.foldl_cons, ih, calls_destroy, now_destroy, firedAt_destroy, List.append_assoc]
    cases hr : w.calls id r <;> simp [hr]

end TimerWheel

/-! ## 3. The wheel follows the lives of its tasks

An object in the wheel has its last reference in the slot in which its task is due.  A refresh puts
one into a later slot, a second clears one slot, and both keep that. -/

theorem getElem?_concat_eq_some {α : Type} {l : List α} {a b : α} {i : Nat} :
    (l ++ [a])[i]? = some b ↔ l[i]? = some b ∨ (i = l.length ∧ b = a) := by
  rcases Nat.lt_trichotomy i l.length with h | h | h
  · rw [List.getElem?_append_left h]
    simp [h.ne]
  · subst h
    simp [eq_comm]
  · rw [List.getElem?_append_right h.le, List.getElem?_eq_none h.le, List.getElem?_eq_none]
    · simp [h.ne']
    · rw [List.length_singleton]
      omega

namespace TimerWheel

/-- An object that is in the wheel: it has a reference in the slot in which it is due, and every
reference to it is in a slot that is cleared by then. -/
structure Waiting (w : TimerWheel) (r delay touched : Nat) : Prop where
  delay_pos : 1 ≤ delay
  delay_le : delay ≤ capacity
  touched_le : touched ≤ w.now
  lt_due : w.now < touched + delay
  mem_due : r ∈ w.wheel (slotAt (touched + delay))
  slots : ∀ p, r ∈ w.wheel p → ∃ x, w.now < x ∧ x ≤ touched + delay ∧ p = slotAt x

theorem Waiting.held {w : TimerWheel} {r delay touched : Nat} (h : w.Waiting r delay touched) :
    w.held r := ⟨_, h.mem_due⟩

theorem Waiting.congr {w w' : TimerWheel} {r delay touched : Nat} (h : w.Waiting r delay touched)
    (hwheel : ∀ p, r ∈ w'.wheel p ↔ r ∈ w.wheel p) (hnow : w'.now = w.now) :
    w'.Waiting r delay touched := by
  refine ⟨h.delay_pos, h.delay_le, ?_, ?_, (hwheel _).mpr h.mem_due, ?_⟩
  · rw [hnow]
    exact h.touched_le
  · rw [hnow]
    exact h.lt_due
  · intro p hp
    rw [hnow]
    exact h.slots p ((hwheel p).mp hp)

/-- What an object is like at this point of its task's life. -/
def Fits (w : TimerWheel) (r : Nat) (task : TimerTask) : Life → Prop
  | .unborn => False
  | .pending delay touched canceled =>
    task.timeout = delay ∧ task.canceled = canceled ∧ w.Waiting r delay touched
  | .left _ => ¬ w.held r

/-- An object whose references stay does not notice. -/
theorem Fits.congr {w w' : TimerWheel} {r : Nat} {task : TimerTask} {life : Life}
    (h : w.Fits r task life) (hwheel : ∀ p, r ∈ w'.wheel p ↔ r ∈ w.wheel p)
    (hnow : w'.now = w.now) : w'.Fits r task life := by
  cases life with
  | unborn => exact h
  | pending delay touched canceled =>
    obtain ⟨htimeout, hcanceled, hwait⟩ := h
    exact ⟨htimeout, hcanceled, hwait.congr hwheel hnow⟩
  | left =>
    rintro ⟨p, hp⟩
    exact h ⟨p, (hwheel p).mp hp⟩

/-- The wheel is what the lives of the tasks say.  The slots are described by `Fits`, task by task,
and the calls are those that the lives have had. -/
structure Tracks (w : TimerWheel) (lives : UInt64 → Life) : Prop where
  tick : w.tick = slotAt w.now
  known : ∀ p r, r ∈ w.wheel p → r < w.tasks.length
  ids : (w.tasks.map TimerTask.id).Nodup
  born : ∀ id, lives id ≠ .unborn ↔ ∃ r, w.idAt r = some id
  timers : ∀ id r, w.timers id = some r ↔ (lives id).isPending = true ∧ w.idAt r = some id
  fits : ∀ r task, w.tasks[r]? = some task → w.Fits r task (lives task.id)
  calls : ∀ id, w.firedAt id = (lives id).calls

theorem idAt_eq_some {w : TimerWheel} {r : Nat} {id : UInt64} :
    w.idAt r = some id ↔ ∃ task, w.tasks[r]? = some task ∧ task.id = id :=
  Option.map_eq_some_iff

variable {w : TimerWheel} {lives : UInt64 → Life}

theorem Tracks.idAt_inj (h : w.Tracks lives) {r r' : Nat} {id : UInt64} (hr : w.idAt r = some id)
    (hr' : w.idAt r' = some id) : r = r' := by
  rw [idAt, ← List.getElem?_map] at hr hr'
  have hlt : r < (w.tasks.map TimerTask.id).length := (List.getElem?_eq_some_iff.mp hr).1
  exact (List.getElem?_inj hlt h.ids).mp (hr.trans hr'.symm)

/-- What is looked up in `_timers` is alive. -/
theorem Tracks.waiting (h : w.Tracks lives) {id : UInt64} {r : Nat} (hr : w.timers id = some r) :
    ∃ task delay touched canceled, w.tasks[r]? = some task ∧ task.id = id ∧
      lives id = .pending delay touched canceled ∧ task.timeout = delay ∧
      task.canceled = canceled ∧ w.Waiting r delay touched := by
  obtain ⟨hpending, hid⟩ := (h.timers id r).mp hr
  obtain ⟨task, htask, rfl⟩ := idAt_eq_some.mp hid
  have hfits := h.fits r task htask
  cases hlife : lives task.id with
  | unborn => simp [hlife, Life.isPending] at hpending
  | left => simp [hlife, Life.isPending] at hpending
  | pending delay touched canceled =>
    rw [hlife] at hfits
    exact ⟨task, delay, touched, canceled, htask, rfl, rfl, hfits.1, hfits.2.1, hfits.2.2⟩

theorem tracks_new : new.Tracks fun _ => .unborn where
  tick := rfl
  known := nofun
  ids := List.nodup_nil
  born := by simp [new, idAt]
  timers := by simp [new, Life.isPending]
  fits := by simp [new]
  calls := by simp [new, firedAt, Life.calls]

theorem idAt_timerAdd {id id' : UInt64} {delay r : Nat} :
    (w.timerAdd id delay).idAt r = some id' ↔
      w.idAt r = some id' ∨ (r = w.tasks.length ∧ id' = id) := by
  rw [idAt_eq_some, idAt_eq_some]
  simp only [timerAdd, getElem?_concat_eq_some]
  constructor
  · rintro ⟨task, htask | ⟨hr, rfl⟩, rfl⟩
    · exact Or.inl ⟨task, htask, rfl⟩
    · exact Or.inr ⟨hr, rfl⟩
  · rintro (⟨task, htask, rfl⟩ | ⟨hr, rfl⟩)
    · exact ⟨task, Or.inl htask, rfl⟩
    · exact ⟨_, Or.inr ⟨hr, rfl⟩, rfl⟩

theorem mem_wheel_timerAdd (htick : w.tick = slotAt w.now) {id : UInt64} {delay r : Nat}
    {p : Fin capacity} :
    r ∈ (w.timerAdd id delay).wheel p ↔
      r ∈ w.wheel p ∨ (p = slotAt (w.now + delay) ∧ r = w.tasks.length) := by
  have hslot : slotAt (w.tick + delay) = slotAt (w.now + delay) := by
    rw [htick, slotAt_val_add]
  rw [← hslot]
  exact mem_wheel_pushBack

/-- An id that is new makes no two objects of one id. -/
theorem Tracks.nodup_timerAdd (h : w.Tracks lives) {id : UInt64} (hfresh : lives id = .unborn)
    (delay : Nat) : ((w.timerAdd id delay).tasks.map TimerTask.id).Nodup := by
  rw [timerAdd, List.map_append, List.map_singleton]
  refine h.ids.append (List.nodup_singleton _) ?_
  rw [List.disjoint_singleton]
  intro hmem
  obtain ⟨r, hr⟩ := List.mem_iff_getElem?.mp hmem
  rw [List.getElem?_map] at hr
  exact (h.born id).mpr ⟨r, hr⟩ hfresh

/-- The object of a task that is added has one reference. -/
theorem waiting_timerAdd (htick : w.tick = slotAt w.now)
    (hknown : ∀ p r, r ∈ w.wheel p → r < w.tasks.length) (id : UInt64) {delay : Nat}
    (hpos : 1 ≤ delay) (hle : delay ≤ capacity) :
    (w.timerAdd id delay).Waiting w.tasks.length delay w.now := by
  refine ⟨hpos, hle, le_refl _, Nat.lt_add_of_pos_right hpos, ?_, ?_⟩
  · exact (mem_wheel_timerAdd htick).mpr (Or.inr ⟨rfl, rfl⟩)
  · intro p hp
    rcases (mem_wheel_timerAdd htick).mp hp with hp | ⟨rfl, -⟩
    · exact absurd (hknown p _ hp) (lt_irrefl _)
    · exact ⟨w.now + delay, Nat.lt_add_of_pos_right hpos, le_refl _, rfl⟩

theorem Tracks.timerAdd (h : w.Tracks lives) {id : UInt64} {delay : Nat} (hpos : 1 ≤ delay)
    (hle : delay ≤ capacity) (hfresh : lives id = .unborn) :
    (w.timerAdd id delay).Tracks fun id' => (lives id').next id' w.now (.timerAdd id delay) := by
  have hnew : ∀ r, w.idAt r ≠ some id := fun r hr => (h.born id).mpr ⟨r, hr⟩ hfresh
  have hlives : ∀ id', id' ≠ id → (lives id').next id' w.now (.timerAdd id delay) = lives id' :=
    fun id' hne => Life.next_timerAdd_of_ne hne.symm _ _ _
  have hself : (lives id).next id w.now (.timerAdd id delay) = .pending delay w.now false := by
    simp [hfresh, Life.next]
  refine ⟨h.tick, ?_, h.nodup_timerAdd hfresh delay, ?_, ?_, ?_, ?_⟩
  · intro p r hr
    rcases (mem_wheel_timerAdd h.tick).mp hr with hr | ⟨-, rfl⟩
    · have hlt := h.known p r hr
      simp only [TimerWheel.timerAdd, List.length_append]
      omega
    · simp [TimerWheel.timerAdd]
  · intro id'
    by_cases hid : id' = id
    · subst hid
      have hborn : ∃ r, (w.timerAdd id' delay).idAt r = some id' :=
        ⟨w.tasks.length, idAt_timerAdd.mpr (Or.inr ⟨rfl, rfl⟩)⟩
      exact iff_of_true (by simp [hself]) hborn
    · rw [hlives id' hid, h.born id']
      simp only [idAt_timerAdd, hid, and_false, or_false]
  · intro id' r
    by_cases hid : id' = id
    · subst hid
      have htimers : (w.timerAdd id' delay).timers id' = some w.tasks.length := by
        simp [TimerWheel.timerAdd]
      rw [htimers, idAt_timerAdd, hself]
      simp only [Option.some.injEq, Life.isPending, true_and, and_true, hnew r, false_or, eq_comm]
    · have htimers : (w.timerAdd id delay).timers id' = w.timers id' := by
        simp [TimerWheel.timerAdd, hid]
      rw [htimers, idAt_timerAdd, hlives id' hid, h.timers]
      simp only [hid, and_false, or_false]
  · intro r task htask
    rcases getElem?_concat_eq_some.mp htask with htask | ⟨hr, rfl⟩
    · have hlt : r < w.tasks.length := (List.getElem?_eq_some_iff.mp htask).1
      have hid : task.id ≠ id := fun hid => hnew r (idAt_eq_some.mpr ⟨task, htask, hid⟩)
      rw [hlives _ hid]
      refine (h.fits r task htask).congr (fun p => ?_) rfl
      rw [mem_wheel_timerAdd h.tick]
      simp only [hlt.ne, and_false, or_false]
    · subst hr
      rw [hself]
      exact ⟨rfl, rfl, waiting_timerAdd h.tick h.known id hpos hle⟩
  · intro id'
    have hfired : (w.timerAdd id delay).firedAt id' = w.firedAt id' := rfl
    rw [hfired, h.calls]
    by_cases hid : id' = id
    · subst hid
      rw [hself, hfresh]
      rfl
    · rw [hlives id' hid]

/-- What is not in `_timers` is not in the wheel. -/
theorem Tracks.not_pending (h : w.Tracks lives) {id : UInt64} (hnone : w.timers id = none) :
    (lives id).isPending = false := by
  by_contra hpending
  rw [Bool.not_eq_false] at hpending
  obtain ⟨r, hr⟩ := (h.born id).mp (Life.born_of_pending hpending)
  have hsome := (h.timers id r).mpr ⟨hpending, hr⟩
  rw [hnone] at hsome
  cases hsome

/-- What is done to a task that is not in `_timers` changes no life. -/
theorem Tracks.next_eq_lives (h : w.Tracks lives) {id : UInt64} (hnone : w.timers id = none)
    {a : TimerAction} (hadd : ∀ id delay, a ≠ .timerAdd id delay)
    (hother : ∀ id', id' ≠ id → (lives id').next id' w.now a = lives id') :
    (fun id' => (lives id').next id' w.now a) = lives := by
  funext id'
  by_cases hid : id' = id
  · subst hid
    exact Life.next_of_not_pending (h.not_pending hnone) hadd _ _
  · exact hother id' hid

/-- A task that is in the wheel stays there, and nothing happens to the others: the objects keep
their ids, and `_timers` and the record stay. -/
theorem Tracks.of_stays (h : w.Tracks lives) {w' : TimerWheel} {lives' : UInt64 → Life}
    {id : UInt64} (hother : ∀ id', id' ≠ id → lives' id' = lives id')
    (hbefore : (lives id).isPending = true) (hafter : (lives' id).isPending = true)
    (htick : w'.tick = w.tick) (hnow : w'.now = w.now) (hidAt : w'.idAt = w.idAt)
    (htimers : w'.timers = w.timers) (hfired : w'.fired = w.fired)
    (hknown : ∀ p r, r ∈ w'.wheel p → r < w.tasks.length)
    (hfits : ∀ r task, w'.tasks[r]? = some task → w'.Fits r task (lives' task.id)) :
    w'.Tracks lives' := by
  have hids : w'.tasks.map TimerTask.id = w.tasks.map TimerTask.id := by
    refine List.ext_getElem? fun r => ?_
    rw [List.getElem?_map, List.getElem?_map]
    exact congrFun hidAt r
  have hlength : w'.tasks.length = w.tasks.length := by
    rw [← List.length_map TimerTask.id, hids, List.length_map]
  refine ⟨?_, ?_, hids ▸ h.ids, ?_, ?_, hfits, ?_⟩
  · rw [htick, hnow]
    exact h.tick
  · intro p r hr
    rw [hlength]
    exact hknown p r hr
  · intro id'
    rw [hidAt, ← h.born id']
    by_cases hid : id' = id
    · subst hid
      exact iff_of_true (Life.born_of_pending hafter) (Life.born_of_pending hbefore)
    · rw [hother id' hid]
  · intro id' r
    rw [htimers, hidAt, h.timers]
    by_cases hid : id' = id
    · subst hid
      rw [hbefore, hafter]
    · rw [hother id' hid]
  · intro id'
    rw [firedAt, hfired, ← firedAt, h.calls]
    by_cases hid : id' = id
    · subst hid
      rw [Life.calls_of_pending hbefore, Life.calls_of_pending hafter]
    · rw [hother id' hid]

/-- One more reference, in the slot of the new second: the object waits from now on. -/
theorem Waiting.pushBack {r delay touched : Nat} (hwait : w.Waiting r delay touched) :
    (w.pushBack (slotAt (w.now + delay)) r).Waiting r delay w.now := by
  have hpos : 0 < delay := hwait.delay_pos
  have hlater : touched + delay ≤ w.now + delay := Nat.add_le_add_right hwait.touched_le delay
  refine ⟨hwait.delay_pos, hwait.delay_le, le_refl _, Nat.lt_add_of_pos_right hpos, ?_, ?_⟩
  · exact mem_wheel_pushBack.mpr (Or.inr ⟨rfl, rfl⟩)
  · -- the old references are cleared before the new one
    intro p hp
    rcases mem_wheel_pushBack.mp hp with hp | ⟨rfl, -⟩
    · obtain ⟨x, hlt, hle, hslot⟩ := hwait.slots p hp
      exact ⟨x, hlt, hle.trans hlater, hslot⟩
    · exact ⟨w.now + delay, Nat.lt_add_of_pos_right hpos, le_refl _, rfl⟩

/-- Refreshing an object that is alive adds a reference. -/
theorem timerRefresh_eq (htick : w.tick = slotAt w.now) {id : UInt64} {r : Nat} {task : TimerTask}
    (hr : w.timers id = some r) (hheld : w.held r) (htask : w.tasks[r]? = some task) :
    w.timerRefresh id = w.pushBack (slotAt (w.now + task.timeout)) r := by
  simp only [TimerWheel.timerRefresh, hr, if_pos hheld, htask, htick, slotAt_val_add]

/-- A task is refreshed: one more reference, in the slot of the new second. -/
theorem Tracks.timerRefresh (h : w.Tracks lives) (id : UInt64) :
    (w.timerRefresh id).Tracks fun id' => (lives id').next id' w.now (.timerRefresh id) := by
  have hlives : ∀ id', id' ≠ id → (lives id').next id' w.now (.timerRefresh id) = lives id' :=
    fun id' hne => Life.next_timerRefresh_of_ne hne.symm _ _
  cases hr : w.timers id with
  | none =>
    rw [h.next_eq_lives hr (fun _ _ => TimerAction.noConfusion) hlives, TimerWheel.timerRefresh, hr]
    exact h
  | some r =>
    obtain ⟨task, delay, touched, canceled, htask, rfl, hlife, htimeout, hcanceled, hwait⟩ :=
      h.waiting hr
    have hself : (lives task.id).next task.id w.now (.timerRefresh task.id) =
        .pending delay w.now canceled := by
      simp [hlife, Life.next]
    rw [timerRefresh_eq h.tick hr hwait.held htask, htimeout]
    refine h.of_stays hlives (by rw [hlife]; rfl) (by rw [hself]; rfl) rfl rfl rfl rfl rfl ?_ ?_
    · intro p r' hmem
      rcases mem_wheel_pushBack.mp hmem with hmem | ⟨-, rfl⟩
      · exact h.known p r' hmem
      · exact (List.getElem?_eq_some_iff.mp htask).1
    · intro r' task' htask'
      by_cases hid : task'.id = task.id
      · obtain rfl : r' = r := h.idAt_inj (idAt_eq_some.mpr ⟨task', htask', hid⟩)
          (idAt_eq_some.mpr ⟨task, htask, rfl⟩)
        obtain rfl : task = task' := Option.some.inj (htask.symm.trans htask')
        rw [hself]
        exact ⟨htimeout, hcanceled, hwait.pushBack⟩
      · rw [hlives _ hid]
        have hne : r' ≠ r := by
          rintro rfl
          exact hid (congrArg TimerTask.id (Option.some.inj (htask'.symm.trans htask)))
        refine (h.fits r' task' htask').congr (fun p => ?_) rfl
        rw [mem_wheel_pushBack]
        simp only [hne, and_false, or_false]

/-- Cancelling an object that is alive marks it. -/
theorem timerCancel_eq {id : UInt64} {r : Nat} (hr : w.timers id = some r) (hheld : w.held r) :
    w.timerCancel id =
      { w with tasks := w.tasks.modify r fun task => { task with canceled := true } } := by
  simp only [TimerWheel.timerCancel, hr, if_pos hheld]

theorem idAt_timerCancel (w : TimerWheel) (id : UInt64) : (w.timerCancel id).idAt = w.idAt := by
  cases hr : w.timers id with
  | none => simp only [TimerWheel.timerCancel, hr]
  | some r =>
    by_cases hheld : w.held r
    · rw [timerCancel_eq hr hheld]
      funext j
      rw [idAt, List.getElem?_modify, idAt]
      cases w.tasks[j]? with
      | none => rfl
      | some other =>
        simp only [Option.map_eq_map, Option.map_some]
        split <;> rfl
    · simp only [TimerWheel.timerCancel, hr, if_neg hheld]

/-- A task is cancelled: it stays where it is. -/
theorem Tracks.timerCancel (h : w.Tracks lives) (id : UInt64) :
    (w.timerCancel id).Tracks fun id' => (lives id').next id' w.now (.timerCancel id) := by
  have hlives : ∀ id', id' ≠ id → (lives id').next id' w.now (.timerCancel id) = lives id' :=
    fun id' hne => Life.next_timerCancel_of_ne hne.symm _ _
  cases hr : w.timers id with
  | none =>
    rw [h.next_eq_lives hr (fun _ _ => TimerAction.noConfusion) hlives, TimerWheel.timerCancel, hr]
    exact h
  | some r =>
    obtain ⟨task, delay, touched, canceled, htask, rfl, hlife, htimeout, -, hwait⟩ := h.waiting hr
    have hself : (lives task.id).next task.id w.now (.timerCancel task.id) =
        .pending delay touched true := by
      simp [hlife, Life.next]
    have hidAt := w.idAt_timerCancel task.id
    rw [timerCancel_eq hr hwait.held] at hidAt ⊢
    refine h.of_stays hlives (by rw [hlife]; rfl) (by rw [hself]; rfl) rfl rfl hidAt rfl rfl
      h.known ?_
    intro r' task' htask'
    rw [List.getElem?_modify] at htask'
    obtain ⟨old, hold, rfl⟩ := Option.map_eq_some_iff.mp htask'
    by_cases hr' : r = r'
    · subst hr'
      obtain rfl : task = old := Option.some.inj (htask.symm.trans hold)
      rw [if_pos rfl, hself]
      have hbefore : w.Fits r { task with canceled := true } (.pending delay touched true) :=
        ⟨htimeout, rfl, hwait⟩
      exact hbefore.congr (fun _ => Iff.rfl) rfl
    · have hid : old.id ≠ task.id := fun hid =>
        hr' (h.idAt_inj (idAt_eq_some.mpr ⟨task, htask, rfl⟩)
          (idAt_eq_some.mpr ⟨old, hold, hid⟩))
      rw [if_neg hr', hlives _ hid]
      exact (h.fits r' old hold).congr (fun _ => Iff.rfl) rfl

/-- In the next second, a slot has the references it had before, unless it is the slot of that
second. -/
theorem mem_wheel_advance (htick : w.tick = slotAt w.now) {p : Fin capacity} {r : Nat} :
    r ∈ w.advance.wheel p ↔ p ≠ slotAt (w.now + 1) ∧ r ∈ w.wheel p := by
  rw [advance, htick, slotAt_val_add]
  by_cases hp : p = slotAt (w.now + 1)
  · simp [hp]
  · simp [hp]

/-- An object that is not due has its last slot elsewhere. -/
theorem Waiting.slot_ne {r delay touched : Nat} (hwait : w.Waiting r delay touched)
    (hlater : touched + delay ≠ w.now + 1) : slotAt (touched + delay) ≠ slotAt (w.now + 1) := by
  intro hslot
  have hturn : touched + delay ≤ w.now + capacity :=
    Nat.add_le_add hwait.touched_le hwait.delay_le
  exact hlater (eq_of_slotAt_eq hslot hwait.lt_due hturn (Nat.lt_succ_self _)
    (Nat.add_le_add_left (by decide) _))

/-- The objects that are destroyed in the next second. -/
def dying (w : TimerWheel) : List Nat := w.advance.doomed (w.wheel (slotAt (w.now + 1)))

theorem runTimerTask_eq (htick : w.tick = slotAt w.now) :
    w.runTimerTask = w.dying.foldl destroy w.advance := by
  rw [TimerWheel.runTimerTask, htick, slotAt_val_add, release_eq, dying]

/-- What a second leaves alone: the wheel is that of `advance`, no task is added, and the tick keeps
its slot. -/
theorem runTimerTask_same (htick : w.tick = slotAt w.now) :
    w.runTimerTask.wheel = w.advance.wheel ∧ w.runTimerTask.tasks = w.tasks ∧
      w.runTimerTask.tick = slotAt w.runTimerTask.now ∧ w.runTimerTask.now = w.now + 1 := by
  obtain ⟨hwheel, htasks, htick', hnow⟩ := foldl_destroy_same w.advance w.dying
  rw [← runTimerTask_eq htick] at hwheel htasks htick' hnow
  refine ⟨hwheel, htasks, ?_, hnow⟩
  have hadvance : w.advance.tick = slotAt (w.tick + 1) := rfl
  rw [htick', hnow, hadvance, htick, slotAt_val_add]
  rfl

/-- An object is destroyed in the second in which it is due. -/
theorem Waiting.mem_dying (htick : w.tick = slotAt w.now) {r delay touched : Nat}
    (hwait : w.Waiting r delay touched) : r ∈ w.dying ↔ touched + delay = w.now + 1 := by
  rw [dying, mem_doomed]
  constructor
  · rintro ⟨-, hheld⟩
    by_contra hlater
    exact hheld ⟨_, (mem_wheel_advance htick).mpr ⟨hwait.slot_ne hlater, hwait.mem_due⟩⟩
  · intro hdue
    refine ⟨hdue ▸ hwait.mem_due, ?_⟩
    rintro ⟨p, hp⟩
    obtain ⟨hne, hp⟩ := (mem_wheel_advance htick).mp hp
    obtain ⟨x, hlt, hle, rfl⟩ := hwait.slots p hp
    exact hne (congrArg slotAt (by omega))

/-- **An object is destroyed in the second in which its task is due**, and in no other. -/
theorem Tracks.mem_dying (h : w.Tracks lives) {r : Nat} {task : TimerTask}
    (htask : w.tasks[r]? = some task) : r ∈ w.dying ↔ (lives task.id).leaves w.now := by
  have hfits := h.fits r task htask
  cases hlife : lives task.id with
  | unborn =>
    rw [hlife] at hfits
    exact hfits.elim
  | left =>
    rw [hlife] at hfits
    exact iff_of_false (fun hr => hfits ⟨_, (mem_doomed.mp hr).1⟩) id
  | pending delay touched canceled =>
    rw [hlife] at hfits
    obtain ⟨-, -, hwait⟩ := hfits
    exact hwait.mem_dying h.tick

/-- An object whose task is not due stays. -/
theorem Waiting.advance (htick : w.tick = slotAt w.now) {r delay touched : Nat}
    (hwait : w.Waiting r delay touched) (hlater : touched + delay ≠ w.now + 1) :
    w.advance.Waiting r delay touched := by
  have hlt : w.now + 1 < touched + delay := by
    have := hwait.lt_due
    omega
  refine ⟨hwait.delay_pos, hwait.delay_le, Nat.le_succ_of_le hwait.touched_le, hlt,
    (mem_wheel_advance htick).mpr ⟨hwait.slot_ne hlater, hwait.mem_due⟩, ?_⟩
  intro p hp
  obtain ⟨hne, hp⟩ := (mem_wheel_advance htick).mp hp
  obtain ⟨x, hltx, hle, rfl⟩ := hwait.slots p hp
  have hnex : x ≠ w.now + 1 := fun hx => hne (congrArg slotAt hx)
  have hnow : w.advance.now = w.now + 1 := rfl
  exact ⟨x, by omega, hle, rfl⟩

theorem nodup_dying (w : TimerWheel) : w.dying.Nodup := (List.nodup_dedup _).filter _

/-- At most one entry of a list without repetitions is `r`. -/
theorem filter_eq_of_unique {l : List Nat} (hl : l.Nodup) {p : Nat → Bool} {r : Nat}
    (hp : ∀ a, p a = true → a = r) : l.filter p = if r ∈ l ∧ p r = true then [r] else [] := by
  have hcongr : l.filter p = (l.filter (· == r)).filter fun _ => p r := by
    rw [List.filter_filter]
    refine List.filter_congr fun a _ => ?_
    by_cases ha : a = r
    · simp [ha]
    · have hpa : p a = false := by
        by_contra hpa
        exact ha (hp a (by simpa using hpa))
      simp [ha, hpa]
  rw [hcongr, List.filter_beq]
  by_cases hr : r ∈ l
  · rw [List.count_eq_one_of_mem hl hr]
    cases p r <;> simp [hr]
  · rw [List.count_eq_zero.mpr hr]
    simp [hr]

theorem calls_eq_true {id : UInt64} {r : Nat} :
    w.calls id r = true ↔
      ∃ task, w.tasks[r]? = some task ∧ task.id = id ∧ task.canceled = false := by
  simp [calls, Option.any_eq_true]

theorem Tracks.calls_runTimerTask (h : w.Tracks lives) (id : UInt64) :
    w.runTimerTask.firedAt id = ((lives id).next id w.now .runTimerTask).calls := by
  have hfired : w.advance.firedAt id = w.firedAt id := rfl
  have hcalls : w.advance.calls id = w.calls id := rfl
  have hnow : w.advance.now = w.now + 1 := rfl
  rw [runTimerTask_eq h.tick, firedAt_foldl_destroy, hfired, hcalls, hnow, h.calls]
  by_cases hborn : ∃ r, w.idAt r = some id
  · obtain ⟨r, hr⟩ := hborn
    obtain ⟨task, htask, rfl⟩ := idAt_eq_some.mp hr
    have hunique : ∀ a, w.calls task.id a = true → a = r := by
      intro a ha
      obtain ⟨other, hother, hid, -⟩ := calls_eq_true.mp ha
      exact h.idAt_inj (idAt_eq_some.mpr ⟨other, hother, hid⟩) hr
    rw [filter_eq_of_unique w.nodup_dying hunique]
    have hdying := h.mem_dying htask
    have hfits := h.fits r task htask
    cases hlife : lives task.id with
    | unborn =>
      rw [hlife] at hfits
      exact hfits.elim
    | left =>
      rw [hlife] at hdying
      have hstays : r ∉ w.dying := fun hr => hdying.mp hr
      rw [if_neg fun hr => hstays hr.1]
      exact List.append_nil _
    | pending delay touched canceled =>
      rw [hlife] at hdying hfits
      have hcancel : w.calls task.id r = true ↔ canceled = false := by
        rw [calls_eq_true]
        constructor
        · rintro ⟨other, hother, -, hother'⟩
          obtain rfl : task = other := Option.some.inj (htask.symm.trans hother)
          exact hfits.2.1.symm.trans hother'
        · intro hcanceled
          exact ⟨task, htask, rfl, hfits.2.1.trans hcanceled⟩
      by_cases hdue : touched + delay = w.now + 1
      · have hmem : r ∈ w.dying := hdying.mpr hdue
        rw [Life.next, if_pos hdue]
        cases canceled with
        | true => simp [hcancel, Life.calls]
        | false => simp [hcancel, hmem, Life.calls]
      · have hstays : r ∉ w.dying := fun hr => hdue (hdying.mp hr)
        rw [if_neg fun hr => hstays hr.1, Life.next, if_neg hdue]
        exact List.append_nil _
  · have hnone : w.dying.filter (w.calls id) = [] := by
      refine List.filter_eq_nil_iff.mpr fun r _ hcall => ?_
      obtain ⟨task, htask, hid, -⟩ := calls_eq_true.mp hcall
      exact hborn ⟨r, idAt_eq_some.mpr ⟨task, htask, hid⟩⟩
    have hunborn : lives id = .unborn := by
      by_contra hlife
      exact hborn ((h.born id).mp hlife)
    rw [hnone, hunborn]
    rfl

/-- The ids whose tasks are due leave `_timers`, and no others. -/
theorem Tracks.timers_runTimerTask (h : w.Tracks lives) (id : UInt64) (r : Nat) :
    w.runTimerTask.timers id = some r ↔
      ((lives id).next id w.now .runTimerTask).isPending = true ∧ w.idAt r = some id := by
  have htimers : w.advance.timers id = w.timers id := rfl
  have hidAt : w.advance.idAt = w.idAt := rfl
  rw [runTimerTask_eq h.tick, timers_foldl_destroy, htimers, hidAt]
  by_cases hleaves : (lives id).leaves w.now
  · have hborn : lives id ≠ .unborn := by
      intro hlife
      rw [hlife] at hleaves
      exact hleaves
    obtain ⟨r₀, hr₀⟩ := (h.born id).mp hborn
    obtain ⟨task, htask, rfl⟩ := idAt_eq_some.mp hr₀
    rw [if_pos ⟨r₀, (h.mem_dying htask).mpr hleaves, hr₀⟩, Life.isPending_next_of_leaves hleaves]
    simp
  · have hnone : ¬ ∃ r ∈ w.dying, w.idAt r = some id := by
      rintro ⟨r', hr', hid⟩
      obtain ⟨task, htask, rfl⟩ := idAt_eq_some.mp hid
      exact hleaves ((h.mem_dying htask).mp hr')
    rw [if_neg hnone, Life.next_runTimerTask_of_not_leaves hleaves, h.timers]

/-- An object whose task is due is gone after the next second, and the others wait on. -/
theorem Tracks.fits_advance (h : w.Tracks lives) {r : Nat} {task : TimerTask}
    (htask : w.tasks[r]? = some task) :
    w.advance.Fits r task ((lives task.id).next task.id w.now .runTimerTask) := by
  have hdying := h.mem_dying htask
  have hfits := h.fits r task htask
  cases hlife : lives task.id with
  | unborn =>
    rw [hlife] at hfits
    exact hfits.elim
  | left =>
    rw [hlife] at hfits
    rintro ⟨p, hp⟩
    exact hfits ⟨p, ((mem_wheel_advance h.tick).mp hp).2⟩
  | pending delay touched canceled =>
    rw [hlife] at hfits hdying
    rw [Life.next]
    by_cases hdue : touched + delay = w.now + 1
    · rw [if_pos hdue]
      exact (mem_doomed.mp (hdying.mpr hdue)).2
    · rw [if_neg hdue]
      exact ⟨hfits.1, hfits.2.1, hfits.2.2.advance h.tick hdue⟩

/-- A second passes: the tasks whose second it is leave, the others stay. -/
theorem Tracks.runTimerTask (h : w.Tracks lives) :
    w.runTimerTask.Tracks fun id => (lives id).next id w.now .runTimerTask := by
  obtain ⟨hwheel, htasks, htick, hnow⟩ := runTimerTask_same h.tick
  have hidAt : w.runTimerTask.idAt = w.idAt := by
    funext r
    rw [idAt, htasks, idAt]
  have hborn : ∀ id, (lives id).next id w.now .runTimerTask ≠ .unborn ↔ lives id ≠ .unborn := by
    intro id
    cases lives id with
    | pending delay touched canceled =>
      refine iff_of_true ?_ (by simp)
      rw [Life.next]
      split <;> simp
    | _ => rfl
  refine ⟨htick, ?_, htasks ▸ h.ids, ?_, ?_, ?_, h.calls_runTimerTask⟩
  · intro p r hr
    rw [htasks]
    rw [hwheel] at hr
    exact h.known p r ((mem_wheel_advance h.tick).mp hr).2
  · intro id
    rw [hborn, h.born, hidAt]
  · intro id r
    rw [hidAt]
    exact h.timers_runTimerTask id r
  · intro r task htask
    rw [htasks] at htask
    exact (h.fits_advance htask).congr (fun p => by rw [hwheel]) hnow

/-! ## 4. Over a run

One step and then all of them, and at the end the lives say when each callback has run. -/

/-- What an action asks for: a delay between 1 and `_capacity`, and an id that is new. -/
def Asks (lives : UInt64 → Life) : TimerAction → Prop
  | .timerAdd id delay => 1 ≤ delay ∧ delay ≤ capacity ∧ lives id = .unborn
  | _ => True

/-- **The step lemma**: one action on the wheel, and the life of each task goes on by that action.
-/
theorem Tracks.step (h : w.Tracks lives) {a : TimerAction} (ha : Asks lives a) :
    (w.step a).Tracks fun id => (lives id).next id w.now a := by
  cases a with
  | timerAdd id delay => exact h.timerAdd ha.1 ha.2.1 ha.2.2
  | timerRefresh id => exact h.timerRefresh id
  | timerCancel id => exact h.timerCancel id
  | runTimerTask => exact h.runTimerTask

theorem now_step (w : TimerWheel) (a : TimerAction) :
    (w.step a).now = if a = .runTimerTask then w.now + 1 else w.now := by
  cases a with
  | timerAdd => rfl
  | timerRefresh id =>
    simp only [TimerWheel.step, TimerWheel.timerRefresh]
    split
    · rfl
    · split
      · split <;> rfl
      · rfl
  | timerCancel id =>
    simp only [TimerWheel.step, TimerWheel.timerCancel]
    split
    · rfl
    · split <;> rfl
  | runTimerTask =>
    rw [TimerWheel.step, TimerWheel.runTimerTask, release_eq]
    exact (foldl_destroy_same _ _).2.2.2

/-- **The run lemma**, by induction on the actions. -/
theorem Tracks.foldl {as : List TimerAction} {w : TimerWheel} {lives : UInt64 → Life}
    (h : w.Tracks lives)
    (hdelay : ∀ id delay, TimerAction.timerAdd id delay ∈ as → 1 ≤ delay ∧ delay ≤ capacity)
    (hnodup : (as.filterMap TimerAction.added).Nodup)
    (hfresh : ∀ id ∈ as.filterMap TimerAction.added, lives id = .unborn) :
    (as.foldl TimerWheel.step w).Tracks fun id => Life.after id w.now (lives id) as := by
  induction as generalizing w lives with
  | nil => exact h
  | cons a as ih =>
    have ha : Asks lives a := by
      cases a with
      | timerAdd id delay =>
        obtain ⟨hpos, hle⟩ := hdelay id delay List.mem_cons_self
        exact ⟨hpos, hle, hfresh id (by simp [TimerAction.added])⟩
      | _ => trivial
    have hrest := ih (h.step ha)
      (fun id delay hmem => hdelay id delay (List.mem_cons_of_mem _ hmem)) ?_ ?_
    · rw [now_step] at hrest
      exact hrest
    · cases a with
      | timerAdd id delay => exact (List.nodup_cons.mp hnodup).2
      | _ => exact hnodup
    · intro id hid
      have hunborn : lives id = .unborn := hfresh id (by
        cases a with
        | timerAdd id' delay => exact List.mem_cons_of_mem _ hid
        | _ => exact hid)
      cases a with
      | timerAdd id' delay =>
        have hne : id' ≠ id := by
          rintro rfl
          exact (List.nodup_cons.mp hnodup).1 hid
        rw [Life.next_timerAdd_of_ne hne]
        exact hunborn
      | _ => rw [hunborn]; rfl

/-- **The timer wheel fires each task exactly once and on time.**  In every run in which delays
are between 1 and `_capacity` and no id is added twice, the calls of a task's callback are those
of its life: one call, in the second that is its delay after the second in which it was added or
last refreshed while it was in the wheel, and none if it was cancelled before; and `_timers` has
exactly the ids of the tasks that have not left the wheel. -/
theorem timer_wheel (as : List TimerAction) (h : Proper as) (id : UInt64) :
    (run as).firedAt id = (life id as).calls ∧
      (((run as).timers id).isSome = true ↔ (life id as).isPending = true) := by
  have htracks : (run as).Tracks fun id => life id as :=
    tracks_new.foldl h.1 h.2 fun _ _ => rfl
  refine ⟨htracks.calls id, ?_⟩
  constructor
  · intro hsome
    obtain ⟨r, hr⟩ := Option.isSome_iff_exists.mp hsome
    exact ((htracks.timers id r).mp hr).1
  · intro hpending
    by_contra hnone
    rw [Option.not_isSome_iff_eq_none] at hnone
    rw [htracks.not_pending hnone] at hpending
    cases hpending
/-- A task is added, refreshed after a second, and runs two seconds after that; a second task is
cancelled in time. -/
theorem timer_wheel_two_tasks :
    (run [.timerAdd 1 2, .timerAdd 2 1, .timerCancel 2, .runTimerTask, .timerRefresh 1,
      .runTimerTask, .runTimerTask]).firedAt 1 = [3] ∧
    (run [.timerAdd 1 2, .timerAdd 2 1, .timerCancel 2, .runTimerTask, .timerRefresh 1,
      .runTimerTask, .runTimerTask]).firedAt 2 = [] := by
  have hproper : Proper [.timerAdd 1 2, .timerAdd 2 1, .timerCancel 2, .runTimerTask,
      .timerRefresh 1, .runTimerTask, .runTimerTask] := by
    refine ⟨?_, by decide⟩
    intro id delay hmem
    simp only [List.mem_cons, TimerAction.timerAdd.injEq, reduceCtorEq, List.not_mem_nil,
      or_false] at hmem
    rcases hmem with ⟨-, rfl⟩ | ⟨-, rfl⟩ <;> decide
  exact ⟨(timer_wheel _ hproper 1).1.trans (by decide),
    (timer_wheel _ hproper 2).1.trans (by decide)⟩

end TimerWheel

end OnlineJudge.Muduo
