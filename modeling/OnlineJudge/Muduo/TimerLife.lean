/-
# What the timer wheel is for

A timer task is added with a delay, may be refreshed and cancelled while it is waiting, and runs
when its delay has passed since it was last touched.  That is the whole contract of `TimerWheel`
(`net/muduo.hpp`), told here of one task, as a state machine over the actions on the wheel and
without slots and references: `Life`.

* `life_of_last_touch`: what the machine comes to.  A task that is no longer refreshed leaves its
  delay after it was last touched, and its callback runs then unless it has been cancelled.

The machine is the specification of the wheel, written without a look at its slots.  What the wheel
does is compared with it in `Muduo.TimerWheel`, and what a connection makes of its one task is told
in the same words in `Muduo.InactiveRelease`.
-/
import Mathlib.Data.List.Count
import Mathlib.Tactic.Common

namespace OnlineJudge.Muduo

/-! ## 1. The life of a task

One task is looked at, and an action for another one means nothing to it.  A second is an action as
well, so the clock of a run is the number of them. -/

/-- What is done to the wheel in the thread of its loop. -/
inductive TimerAction
  | timerAdd (id : UInt64) (delay : Nat)
  | timerRefresh (id : UInt64)
  | timerCancel (id : UInt64)
  | runTimerTask
deriving DecidableEq

/-- The life of one task.  While it is in the wheel: its delay, the second in which it was added
or last refreshed, and whether it has been cancelled.  After that: the second in which its
callback ran, if it did. -/
inductive Life
  | unborn
  | pending (delay touched : Nat) (canceled : Bool)
  | left (firedAt : Option Nat)
deriving DecidableEq

namespace Life

/-- What an action in second `now` means for the task `id`. -/
def next (id : UInt64) (now : Nat) : Life → TimerAction → Life
  | .unborn, .timerAdd id' delay => if id' = id then .pending delay now false else .unborn
  | .pending delay touched canceled, .timerRefresh id' =>
    .pending delay (if id' = id then now else touched) canceled
  | .pending delay touched canceled, .timerCancel id' =>
    .pending delay touched (if id' = id then true else canceled)
  | .pending delay touched canceled, .runTimerTask =>
    if touched + delay = now + 1 then .left (if canceled then none else some (now + 1))
    else .pending delay touched canceled
  | life, _ => life

/-- The calls of the callback so far. -/
def calls : Life → List Nat
  | .left (some t) => [t]
  | _ => []

/-- The task is in the wheel. -/
def isPending : Life → Bool
  | .pending _ _ _ => true
  | _ => false

end Life

/-- The seconds that a run takes. -/
def seconds (as : List TimerAction) : Nat := as.count .runTimerTask

/-- The life of a task in a run that starts in second `now`. -/
def Life.after (id : UInt64) : Nat → Life → List TimerAction → Life
  | _, life, [] => life
  | now, life, a :: as =>
    Life.after id (if a = .runTimerTask then now + 1 else now) (life.next id now a) as

/-- The life of a task in a run. -/
def life (id : UInt64) (as : List TimerAction) : Life := Life.after id 0 .unborn as

/-! ## 2. What an action means

The cases of the machine as equations, by whether the task is waiting and whether the action is for
it. -/

namespace Life

theorem next_timerAdd_of_ne {id id' : UInt64} (h : id' ≠ id) (now : Nat) (life : Life)
    (delay : Nat) : life.next id now (.timerAdd id' delay) = life := by
  cases life <;> simp [next, h]

theorem next_timerRefresh_of_ne {id id' : UInt64} (h : id' ≠ id) (now : Nat) (life : Life) :
    life.next id now (.timerRefresh id') = life := by
  cases life <;> simp [next, h]

/-- The task leaves the wheel in the second after `now`. -/
def leaves (now : Nat) : Life → Prop
  | .pending delay touched _ => touched + delay = now + 1
  | _ => False

/-- A second passes for a task that stays where it is. -/
theorem next_runTimerTask_of_not_leaves {life : Life} {now : Nat} (h : ¬ life.leaves now)
    (id : UInt64) : life.next id now .runTimerTask = life := by
  cases life with
  | pending delay touched canceled => simp [next, show touched + delay ≠ now + 1 from h]
  | _ => rfl

theorem isPending_next_of_leaves {life : Life} {now : Nat} (h : life.leaves now) (id : UInt64) :
    (life.next id now .runTimerTask).isPending = false := by
  cases life with
  | pending delay touched canceled =>
    have hdue : touched + delay = now + 1 := h
    rw [next, if_pos hdue]
    rfl
  | _ => exact h.elim

theorem born_of_pending {life : Life} (h : life.isPending = true) : life ≠ .unborn := by
  rintro rfl
  cases h

theorem calls_of_pending {life : Life} (h : life.isPending = true) : life.calls = [] := by
  cases life with
  | pending => rfl
  | _ => cases h

/-- A task that is not in the wheel can only be added. -/
theorem next_of_not_pending {life : Life} (h : life.isPending = false) {a : TimerAction}
    (hadd : ∀ id delay, a ≠ .timerAdd id delay) (id : UInt64) (now : Nat) :
    life.next id now a = life := by
  cases life with
  | pending => simp [isPending] at h
  | left => cases a <;> rfl
  | unborn =>
    cases a with
    | timerAdd id' delay => exact absurd rfl (hadd id' delay)
    | _ => rfl

theorem next_timerCancel_of_ne {id id' : UInt64} (h : id' ≠ id) (now : Nat) (life : Life) :
    life.next id now (.timerCancel id') = life := by
  cases life <;> simp [next, h]

end Life

/-! ## 3. What a life comes to

A task that is left alone is followed from its last touch on, second by second, to the one in which
it is due. -/

namespace Life

theorem after_append (id : UInt64) (now : Nat) (life : Life) (as bs : List TimerAction) :
    after id now life (as ++ bs) = after id (now + seconds as) (after id now life as) bs := by
  induction as generalizing now life with
  | nil => rfl
  | cons a as ih =>
    rw [List.cons_append, after, after, ih]
    by_cases ha : a = .runTimerTask
    · simp [ha, seconds, Nat.add_assoc, Nat.add_comm 1]
    · simp [ha, seconds]

theorem after_left (id : UInt64) (now : Nat) (firedAt : Option Nat) (as : List TimerAction) :
    after id now (.left firedAt) as = .left firedAt := by
  induction as generalizing now with
  | nil => rfl
  | cons a as ih => exact ih _

/-- An action that is no refresh of a task that is not due. -/
theorem next_pending {id : UInt64} {now delay touched : Nat} (canceled : Bool) {a : TimerAction}
    (hquiet : a ≠ .timerRefresh id) (hearly : a = .runTimerTask → touched + delay ≠ now + 1) :
    next id now (.pending delay touched canceled) a =
      .pending delay touched (canceled || a = .timerCancel id) := by
  cases a with
  | timerAdd id' delay' => simp [next]
  | timerRefresh id' =>
    have hne : id' ≠ id := fun hid => hquiet (congrArg _ hid)
    simp [next, hne]
  | timerCancel id' =>
    by_cases hid : id' = id <;> simp [next, hid]
  | runTimerTask => simp [next, hearly rfl]

/-- A task that is not refreshed stays until it is due. -/
theorem after_pending {id : UInt64} {now delay touched : Nat} {canceled : Bool}
    {as : List TimerAction} (hquiet : TimerAction.timerRefresh id ∉ as)
    (hearly : now + seconds as < touched + delay) :
    after id now (.pending delay touched canceled) as =
      .pending delay touched (canceled || as.contains (.timerCancel id)) := by
  induction as generalizing now canceled with
  | nil => simp [after]
  | cons a as ih =>
    obtain ⟨hne, hquiet⟩ := List.ne_and_not_mem_of_not_mem_cons hquiet
    have hcount : seconds (a :: as) = seconds as + if a = .runTimerTask then 1 else 0 := by
      simp [seconds, List.count_cons]
    rw [hcount] at hearly
    have hcontains : (a :: as).contains (.timerCancel id) =
        (decide (a = .timerCancel id) || as.contains (.timerCancel id)) := by
      rw [List.contains_cons, Bool.beq_eq_decide_eq, decide_eq_decide.mpr eq_comm]
    rw [after, next_pending canceled hne.symm, ih hquiet, hcontains, Bool.or_assoc]
    · split at hearly
      · rename_i htick
        rw [if_pos htick]
        omega
      · rename_i htick
        rw [if_neg htick]
        exact hearly
    · rintro rfl
      rw [if_pos rfl] at hearly
      omega

end Life

/-- **What a life comes to.**  Let `pre` end with the action that adds or last refreshes a task.
If it is not refreshed in what follows, it leaves in the second that is its delay later, and its
callback runs then unless it has been cancelled. -/
theorem life_of_last_touch {id : UInt64} {delay : Nat} {canceled : Bool}
    {pre mid : List TimerAction} (htouch : life id pre = .pending delay (seconds pre) canceled)
    (hquiet : TimerAction.timerRefresh id ∉ mid) (hdue : seconds mid + 1 = delay)
    (rest : List TimerAction) :
    life id (pre ++ (mid ++ .runTimerTask :: rest)) =
      .left (if canceled || mid.contains (.timerCancel id) then none
        else some (seconds pre + delay)) := by
  have hbefore : Life.after id (seconds pre) (.pending delay (seconds pre) canceled) mid =
      .pending delay (seconds pre) (canceled || mid.contains (.timerCancel id)) :=
    Life.after_pending hquiet (by omega)
  have hsecond : seconds pre + delay = seconds pre + seconds mid + 1 := by omega
  rw [life, Life.after_append, ← life, htouch, Nat.zero_add, Life.after_append, hbefore, Life.after,
    Life.next, if_pos hsecond, Life.after_left, hsecond]

end OnlineJudge.Muduo
