/-
# Updates that count changed rows

`UPDATE t SET .. WHERE key = k` on a table, by a database that counts a row as affected only if one
of the values it is given differs from the one it has.  A row that is not affected stays as it is,
its time of update too.

* `affected_update`: right after an update, the same update affects no row.
* `affected_of_absent`: nor does an update of a key that no row has.
* `update_of_affected_eq_zero`: and what affects nothing changes nothing.

So the count does not tell the two apart, and a caller who takes 0 for "there is no such row" is
wrong about the update that is made twice.  The rows, the keys and the values are any types; what a
statement does to a row is an `Assignment`.
-/
import Mathlib.Data.List.Basic
import Mathlib.Tactic.Common

/-- A statement on rows `ρ`: the column `key` it looks at, the columns `values` it sets, and the row
it makes at some time.  The two laws say that the key stays and that the values are set. -/
structure Assignment (ρ κ υ τ : Type) where
  key : ρ → κ
  values : ρ → υ
  assign : τ → υ → ρ → ρ
  key_assign : ∀ time v row, key (assign time v row) = key row
  values_assign : ∀ time v row, values (assign time v row) = v

namespace Assignment

variable {ρ κ υ τ : Type} [DecidableEq κ] [DecidableEq υ] (a : Assignment ρ κ υ τ)

/-- The statement changes this row: it is looked at, and one of its values is another. -/
def changes (k : κ) (v : υ) (row : ρ) : Bool := decide (a.key row = k ∧ a.values row ≠ v)

/-- The table after the statement. -/
def update (time : τ) (rows : List ρ) (k : κ) (v : υ) : List ρ :=
  rows.map fun row => if a.changes k v row then a.assign time v row else row

/-- How many rows the statement affects. -/
def affected (rows : List ρ) (k : κ) (v : υ) : Nat := rows.countP (a.changes k v)

variable {a} {rows : List ρ} {k : κ} {v : υ}

/-- A row that has been updated is not changed by the same values. -/
theorem changes_of_mem_update {time : τ} {row : ρ} (h : row ∈ a.update time rows k v) :
    a.changes k v row = false := by
  obtain ⟨old, -, rfl⟩ := List.mem_map.mp h
  by_cases hchange : a.changes k v old = true
  · rw [if_pos hchange]
    simp [changes, a.values_assign]
  · rw [if_neg hchange]
    exact Bool.not_eq_true _ ▸ hchange

/-- **The same update again affects nothing**: the rows of the key have its values already. -/
theorem affected_update (time : τ) : a.affected (a.update time rows k v) k v = 0 := by
  rw [affected, List.countP_eq_zero]
  intro row hrow
  rw [changes_of_mem_update hrow]
  exact Bool.false_ne_true

/-- **An update of a row that is not there affects nothing.** -/
theorem affected_of_absent (h : ∀ row ∈ rows, a.key row ≠ k) : a.affected rows k v = 0 := by
  rw [affected, List.countP_eq_zero]
  intro row hrow
  simp [changes, h row hrow]

theorem update_of_affected_eq_zero (h : a.affected rows k v = 0) (time : τ) :
    a.update time rows k v = rows := by
  rw [affected, List.countP_eq_zero] at h
  refine (List.map_congr_left fun row hrow => ?_).trans (List.map_id rows)
  rw [if_neg (h row hrow)]
  rfl

theorem exists_key_update {time : τ} :
    (∃ row ∈ a.update time rows k v, a.key row = k) ↔ ∃ row ∈ rows, a.key row = k := by
  have hkey : ∀ row : ρ,
      a.key (if a.changes k v row then a.assign time v row else row) = a.key row := by
    intro row
    split
    · exact a.key_assign time v row
    · rfl
  constructor
  · rintro ⟨_, hrow, hk⟩
    obtain ⟨old, hold, rfl⟩ := List.mem_map.mp hrow
    exact ⟨old, hold, (hkey old).symm.trans hk⟩
  · rintro ⟨old, hold, hk⟩
    exact ⟨_, List.mem_map.mpr ⟨old, hold, rfl⟩, (hkey old).trans hk⟩

end Assignment

/-- A table of rows `ρ` in a database `σ`, with the laws of reading and storing that hold of a field
of a record. -/
structure Table (σ ρ : Type) where
  rows : σ → List ρ
  store : σ → List ρ → σ
  rows_store : ∀ db table, rows (store db table) = table
  store_rows : ∀ db, store db (rows db) = db
  store_store : ∀ db table table', store (store db table) table' = store db table'
