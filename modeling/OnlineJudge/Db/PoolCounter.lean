/-
# The counter of the pool

`total_` is a `size_t`.  `Release` looks at it before it decrements it; the two decrements of
`Acquire` do not, and they stand behind a stretch without the lock, in which `Shutdown` may set the
counter to zero.

* `total_step`: what an action that is no decrement of `Acquire` does to the counter.
* `total_never_wraps_iff`: in a run the counter is decremented only when it is positive if and only
  if no `Acquire` comes to its decrement after `Shutdown`.

After it has wrapped the counter is `2 ^ 64 - 1`, and a pool that looked at it would make no
connection any more.  It is shut down then, so nobody looks; what remains is that the counter does
not count.
-/
import OnlineJudge.Db.MySqlPool

namespace OnlineJudge.Db

/-- The second lock section of `Acquire`: after a dead connection, or in the `catch` block. -/
def PoolAction.uncharges : PoolAction → Bool
  | .drop _ | .undo _ => true
  | _ => false

namespace MySqlPool

/-! ## 1. What the actions do to the counter

Every action is looked at once.  The two decrements of `Acquire` are told apart from everything
else, since they are the ones without a test. -/

/-- A handle decrements the counter only when it is positive, and not after shutdown. -/
theorem total_releaseHandle (p : MySqlPool) (n : Nat) (alive : Bool) :
    (p.releaseHandle n alive).shutdown = p.shutdown ∧
      ((p.releaseHandle n alive).total = p.total ∨ p.shutdown = false ∧ 0 < p.total) := by
  unfold releaseHandle
  split
  · unfold release
    split
    · exact ⟨rfl, Or.inl rfl⟩
    · rename_i hopen
      split
      · exact ⟨rfl, Or.inl rfl⟩
      · refine ⟨rfl, ?_⟩
        by_cases hpos : p.total > 0
        · exact Or.inr ⟨Bool.not_eq_true _ ▸ hopen, hpos⟩
        · exact Or.inl (if_neg hpos)
  · exact ⟨rfl, Or.inl rfl⟩

/-- **The actions that are no decrement of `Acquire`.**  They leave the counter alone, or the
pool is open and they increment it or found it positive, or they shut the pool down and set it
to zero. -/
theorem total_step {p p' : MySqlPool} {a : PoolAction} (ha : a.uncharges = false)
    (hstep : p.step a = some p') :
    (p'.shutdown = p.shutdown ∧ p'.total = p.total) ∨
      (p'.shutdown = false ∧ p.shutdown = false ∧ (p'.total = p.total + 1 ∨ 0 < p.total)) ∨
      (p'.shutdown = true ∧ p'.total = 0) := by
  cases a with
  | drop i | undo i => cases ha
  | acquire | construct =>
    obtain rfl := Option.some.inj hstep
    exact Or.inl ⟨rfl, rfl⟩
  | moveConstruct src =>
    obtain ⟨conn, -, rfl⟩ := Option.map_eq_some_iff.mp hstep
    exact Or.inl ⟨rfl, rfl⟩
  | shutdown =>
    obtain rfl := Option.some.inj hstep
    unfold shutdownLocked
    split
    · exact Or.inl ⟨rfl, rfl⟩
    · exact Or.inr (Or.inr ⟨rfl, rfl⟩)
  | ping i alive =>
    simp only [step] at hstep
    split at hstep
    · obtain rfl := Option.some.inj hstep
      cases alive <;> exact Or.inl ⟨rfl, rfl⟩
    · cases hstep
  | connect i result =>
    simp only [step] at hstep
    split at hstep
    · obtain rfl := Option.some.inj hstep
      cases result <;> exact Or.inl ⟨rfl, rfl⟩
    · cases hstep
  | lock i =>
    have hlocked : p' = p.acquireLocked i := by
      simp only [step] at hstep
      split at hstep
      · exact (Option.some.inj hstep).symm
      · exact (Option.some.inj hstep).symm
      · cases hstep
    subst hlocked
    unfold acquireLocked
    split
    · exact Or.inl ⟨rfl, rfl⟩
    · rename_i hopen
      have hopen' : p.shutdown = false := Bool.not_eq_true _ ▸ hopen
      split
      · exact Or.inl ⟨rfl, rfl⟩
      · split
        · exact Or.inl ⟨rfl, rfl⟩
        · exact Or.inr (Or.inl ⟨hopen', hopen', Or.inl rfl⟩)
  | destroy n alive =>
    obtain ⟨conn, -, rfl⟩ := Option.map_eq_some_iff.mp hstep
    obtain ⟨hshut, htotal | ⟨hopen, hpos⟩⟩ := total_releaseHandle p n alive
    · exact Or.inl ⟨hshut, htotal⟩
    · exact Or.inr (Or.inl ⟨hshut.trans hopen, hopen, Or.inr hpos⟩)
  | moveAssign dst src alive =>
    simp only [step] at hstep
    split at hstep
    · split at hstep
      · obtain rfl := Option.some.inj hstep
        exact Or.inl ⟨rfl, rfl⟩
      · obtain rfl := Option.some.inj hstep
        obtain ⟨hshut, htotal | ⟨hopen, hpos⟩⟩ := total_releaseHandle p dst alive
        · exact Or.inl ⟨hshut, htotal⟩
        · exact Or.inr (Or.inl ⟨hshut.trans hopen, hopen, Or.inr hpos⟩)
    · cases hstep

/-- The decrements of `Acquire`.  The call that makes one is in transit. -/
theorem total_uncharge {p p' : MySqlPool} {a : PoolAction} (ha : a.uncharges = true)
    (hstep : p.step a = some p') :
    p'.shutdown = p.shutdown ∧ p'.total = p.total - 1 ∧ 0 < p.inTransit := by
  cases a with
  | drop i | undo i =>
    simp only [step] at hstep
    split at hstep
    · rename_i hcall
      obtain rfl := Option.some.inj hstep
      exact ⟨rfl, rfl, List.countP_pos_iff.mpr ⟨_, List.mem_of_getElem? hcall, rfl⟩⟩
    · cases hstep
  | _ => cases ha

/-! ## 2. Runs

A decrement at zero needs the pool to be shut down, and once it is, the counter stays zero until
such a decrement.  So the first one is the one that wraps. -/

/-- If this action makes the counter one less, in the arithmetic of `size_t`, then the counter
was positive. -/
def CounterStep (p : MySqlPool) (a : PoolAction) : Prop :=
  ∀ p' ∈ p.step a, p'.total = p.total - 1 → 0 < p.total

instance (p : MySqlPool) (a : PoolAction) : Decidable (p.CounterStep a) :=
  inferInstanceAs (Decidable (∀ p' ∈ p.step a, p'.total = p.total - 1 → 0 < p.total))

/-- No `Acquire` comes to its decrement once the pool is shut down.  `Shutdown` sets the counter to
0, and a decrement after that wraps around. -/
def UnchargesInTime (p : MySqlPool) (a : PoolAction) : Prop :=
  a.uncharges = true → (p.step a).isSome = true → p.shutdown = false

theorem sub_one_ne (x : UInt64) : x ≠ x - 1 ∧ x + 1 ≠ x - 1 := by
  constructor <;> grind

theorem zero_lt_of_zero_eq_sub_one {x : UInt64} (h : 0 = x - 1) : 0 < x := by
  grind

/-- The other actions decrement a positive counter only. -/
theorem counterStep_of_not_uncharges (p : MySqlPool) {a : PoolAction} (ha : a.uncharges = false) :
    p.CounterStep a := by
  intro p' hstep htotal
  rcases total_step ha hstep with ⟨-, hsame⟩ | ⟨-, -, hmore | hpos⟩ | ⟨-, hzero⟩
  · exact absurd (hsame.symm.trans htotal) (sub_one_ne p.total).1
  · exact absurd (hmore.symm.trans htotal) (sub_one_ne p.total).2
  · exact hpos
  · exact zero_lt_of_zero_eq_sub_one (hzero.symm.trans htotal)

/-- While the pool is open the counter counts the call that decrements it. -/
theorem Inv.counterStep {p : MySqlPool} (h : p.Inv) {a : PoolAction} (ha : p.UnchargesInTime a) :
    p.CounterStep a := by
  cases huncharges : a.uncharges with
  | false => exact counterStep_of_not_uncharges p huncharges
  | true =>
    intro p' hstep _
    have htransit := (total_uncharge huncharges hstep).2.2
    have hopen := ha huncharges (Option.isSome_iff_exists.mpr ⟨p', hstep⟩)
    have hcharged := (h.total hopen).1
    rw [UInt64.lt_iff_toNat_lt, UInt64.toNat_zero]
    omega

/-- The counter of a pool that is shut down is 0, as `Shutdown` has left it. -/
def Zeroed (p : MySqlPool) : Prop := p.shutdown = true → p.total = 0

/-- At zero every decrement of `Acquire` wraps. -/
theorem Zeroed.unchargesInTime {p : MySqlPool} (h : p.Zeroed) {a : PoolAction}
    (hcounter : p.CounterStep a) : p.UnchargesInTime a := by
  intro huncharges henabled
  obtain ⟨p', hstep⟩ := Option.isSome_iff_exists.mp henabled
  by_contra hshut
  have hpos := hcounter p' hstep (total_uncharge huncharges hstep).2.1
  rw [h (Bool.not_eq_false _ ▸ hshut)] at hpos
  exact absurd hpos (by decide)

/-- After shutdown the counter stays zero, unless it is decremented there. -/
theorem Zeroed.step {p p' : MySqlPool} {a : PoolAction} (h : p.Zeroed)
    (hcounter : p.CounterStep a) (hstep : p.step a = some p') : p'.Zeroed := by
  intro hshut
  cases huncharges : a.uncharges with
  | false =>
    rcases total_step huncharges hstep with ⟨hsame, htotal⟩ | ⟨hopen, -, -⟩ | ⟨-, hzero⟩
    · exact htotal.trans (h (hsame.symm.trans hshut))
    · exact absurd (hopen.symm.trans hshut) Bool.false_ne_true
    · exact hzero
  | true =>
    have henabled : (p.step a).isSome = true := Option.isSome_iff_exists.mpr ⟨p', hstep⟩
    have hopen := h.unchargesInTime hcounter huncharges henabled
    rw [(total_uncharge huncharges hstep).1, hopen] at hshut
    cases hshut

/-- **When the counter never wraps.**  In a run of any number of `Acquire` calls, handles and
`Shutdown`, with any answers of the client library, every decrement finds `total_` positive if
and only if no `Acquire` comes to its decrement after shutdown. -/
theorem total_never_wraps_iff (maxConnections : UInt64) (as : List PoolAction) :
    Transition.Along step CounterStep (new maxConnections) as ↔
      Transition.Along step UnchargesInTime (new maxConnections) as := by
  constructor
  · intro h
    have hzeroed : (new maxConnections).Zeroed := fun _ => rfl
    exact Transition.along_of_invariant (fun _ _ _ hq hc hstep => hq.step hc hstep)
      (fun _ _ hq hc => hq.unchargesInTime hc) hzeroed h
  · intro h
    exact Transition.along_of_invariant (fun _ _ _ hq _ hstep => hq.step hstep)
      (fun _ _ hq hc => hq.counterStep hc) (inv_new maxConnections) h

/-- Shutdown falls between the charge of an `Acquire` and its failure to connect. -/
def lateFailureRun : List PoolAction :=
  [.acquire, .lock 0, .shutdown, .connect 0 .connectFailed, .undo 0]

/-- A connect that fails after shutdown wraps the counter. -/
theorem total_wraps :
    ¬ ∀ (maxConnections : UInt64) (as : List PoolAction) (p : MySqlPool),
      Transition.exec step (new maxConnections) as = some p →
        Transition.Along step CounterStep (new maxConnections) as := by
  intro h
  exact absurd (h 10 lateFailureRun _ rfl) (by decide)

example : (Transition.exec step (new 10) lateFailureRun).map total = some (0 - 1) := by decide

end MySqlPool

end OnlineJudge.Db
