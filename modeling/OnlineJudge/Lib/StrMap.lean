/-
# Maps with string keys

A map from byte strings, as a list of entries with distinct keys.  The order of the entries is that
of the insertions; a program that iterates an unordered map does not see it, and nothing here
depends on it.

Two ways of putting an entry in: `insert` keeps an entry that is there already, `set` replaces it.
They differ as soon as a key comes twice, and then the one keeps what came first and the other what
came last.

* `find?_foldl_insert`: behind a list of insertions a key has the value it was given first.
* `find?_foldl_set`: behind a list of assignments it has the one it was given last.
* `entries_foldl_insert`: a list with distinct keys, inserted entry by entry, is the list of
  entries.
-/
import Mathlib.Data.List.Nodup
import OnlineJudge.Lib.ByteString

/-- A map from strings.  No key has two entries, which is a field of the map, so `find?` is never a
choice. -/
structure StrMap (β : Type*) where
  entries : List (Bytes × β)
  nodup : (entries.map Prod.fst).Nodup
deriving DecidableEq

namespace StrMap

variable {β : Type*}

def empty : StrMap β := ⟨[], List.nodup_nil⟩

/-- `find(key)`. -/
def find? (m : StrMap β) (key : Bytes) : Option β := m.entries.lookup key

theorem find?_eq_none {m : StrMap β} {key : Bytes} :
    m.find? key = none ↔ key ∉ m.entries.map Prod.fst := by
  rw [find?, List.lookup_eq_none_iff]
  simp only [List.mem_map, not_exists, not_and]
  constructor
  · intro h p hp hkey
    have := h p hp
    simp [hkey] at this
  · intro h p hp
    have hne : ¬ p.1 = key := fun hkey => h p hp hkey
    rw [bne_iff_ne]
    exact fun hkey => hne hkey.symm

/-- `insert(make_pair(key, val))`: an entry that is there already stays. -/
def insert (m : StrMap β) (key : Bytes) (val : β) : StrMap β :=
  if h : m.find? key = none then
    ⟨m.entries ++ [(key, val)], by
      rw [List.map_append, List.map_singleton, List.nodup_append]
      refine ⟨m.nodup, List.nodup_singleton _, fun a ha b hb => ?_⟩
      obtain rfl := List.mem_singleton.mp hb
      exact fun hab => find?_eq_none.mp h (hab ▸ ha)⟩
  else m

/-- `m[key] = val`. -/
def set (m : StrMap β) (key : Bytes) (val : β) : StrMap β :=
  if m.find? key = none then m.insert key val
  else
    ⟨m.entries.map fun p => if p.1 = key then (p.1, val) else p, by
      have hkeys : (m.entries.map fun p => if p.1 = key then (p.1, val) else p).map Prod.fst =
          m.entries.map Prod.fst := by
        rw [List.map_map]
        refine List.map_congr_left fun p _ => ?_
        by_cases hp : p.1 = key <;> simp [hp]
      rw [hkeys]
      exact m.nodup⟩

@[ext] theorem ext {m m' : StrMap β} (h : m.entries = m'.entries) : m = m' := by
  cases m
  cases m'
  congr

theorem insert_of_new {m : StrMap β} {key : Bytes} (h : m.find? key = none) (val : β) :
    (m.insert key val).entries = m.entries ++ [(key, val)] := by
  rw [insert, dif_pos h]

/-- **A list with distinct keys, inserted entry by entry, is the map's list of entries.** -/
theorem entries_foldl_insert (kvs : List (Bytes × β)) (m : StrMap β)
    (h : ((m.entries ++ kvs).map Prod.fst).Nodup) :
    (kvs.foldl (fun m p => m.insert p.1 p.2) m).entries = m.entries ++ kvs := by
  induction kvs generalizing m with
  | nil => simp
  | cons p kvs ih =>
    have hnew : m.find? p.1 = none := by
      rw [find?_eq_none]
      rw [List.map_append, List.nodup_append] at h
      exact fun hmem => h.2.2 _ hmem p.1 (by simp) rfl
    have hins := insert_of_new hnew p.2
    rw [List.foldl_cons, ih _ (by simpa [hins] using h), hins]
    simp

theorem find?_insert {m : StrMap β} {key : Bytes} (h : m.find? key = none) (val : β) (k : Bytes) :
    (m.insert key val).find? k = if k = key then some val else m.find? k := by
  have happend : (m.insert key val).find? k = (m.find? k).or (List.lookup k [(key, val)]) := by
    rw [find?, insert_of_new h, List.lookup_append]
    rfl
  rw [happend, List.lookup_cons]
  by_cases hk : k = key
  · subst hk
    rw [if_pos rfl, h]
    simp
  · have hbeq : (k == key) = false := beq_eq_false_iff_ne.mpr hk
    rw [if_neg hk, hbeq]
    simp

/-- Behind a list of insertions a key has the value it was given first. -/
theorem find?_foldl_insert (kvs : List (Bytes × β)) (m : StrMap β) (k : Bytes) :
    (kvs.foldl (fun m p => m.insert p.1 p.2) m).find? k = (m.find? k).or (kvs.lookup k) := by
  induction kvs generalizing m with
  | nil => simp
  | cons p kvs ih =>
    obtain ⟨key, val⟩ := p
    rw [List.foldl_cons, ih, List.lookup_cons]
    by_cases hnew : m.find? key = none
    · rw [find?_insert hnew]
      by_cases hk : k = key
      · rw [if_pos hk, hk, hnew, beq_self_eq_true]
        rfl
      · rw [if_neg hk, beq_eq_false_iff_ne.mpr hk]
    · rw [insert, dif_neg hnew]
      by_cases hk : k = key
      · obtain ⟨old, hold⟩ := Option.ne_none_iff_exists'.mp hnew
        rw [hk, hold, Option.some_or, Option.some_or]
      · rw [beq_eq_false_iff_ne.mpr hk]

theorem lookup_replace (entries : List (Bytes × β)) (key : Bytes) (val : β) (k : Bytes) :
    (entries.map fun p => if p.1 = key then (p.1, val) else p).lookup k =
      if k = key then (entries.lookup key).map fun _ => val else entries.lookup k := by
  induction entries with
  | nil => simp
  | cons p entries ih =>
    obtain ⟨a, b⟩ := p
    rw [List.map_cons, List.lookup_cons, List.lookup_cons, List.lookup_cons, ih]
    by_cases ha : a = key
    · subst ha
      by_cases hk : k = a
      · simp [hk]
      · simp [hk, beq_eq_false_iff_ne.mpr hk]
    · by_cases hk : k = key
      · subst hk
        have hne : (k == a) = false := beq_eq_false_iff_ne.mpr (Ne.symm ha)
        simp [ha, hne]
      · simp [ha, hk]

theorem find?_set (m : StrMap β) (key : Bytes) (val : β) (k : Bytes) :
    (m.set key val).find? k = if k = key then some val else m.find? k := by
  unfold set
  split
  · rename_i hnew
    exact find?_insert hnew val k
  · rename_i hold
    obtain ⟨old, hkey⟩ := Option.ne_none_iff_exists'.mp hold
    rw [find?, lookup_replace]
    rw [find?] at hkey
    rw [hkey]
    rfl

/-- Behind a list of assignments a key has the value it was given last. -/
theorem find?_foldl_set {α : Type*} (name : α → Bytes) (val : α → β) (xs : List α) (m : StrMap β)
    (k : Bytes) :
    (xs.foldl (fun m x => m.set (name x) (val x)) m).find? k =
      ((xs.reverse.find? fun x => name x == k).map val).or (m.find? k) := by
  induction xs generalizing m with
  | nil => simp
  | cons x xs ih =>
    rw [List.foldl_cons, ih, find?_set, List.reverse_cons, List.find?_append]
    cases hfind : xs.reverse.find? fun x => name x == k with
    | some y => simp
    | none =>
      by_cases hk : k = name x
      · simp [hk]
      · have hbeq : (name x == k) = false := beq_eq_false_iff_ne.mpr (Ne.symm hk)
        simp [hk, hbeq]

end StrMap
