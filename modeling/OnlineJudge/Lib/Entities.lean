/-
# Escaping by entities

A text is escaped by writing an entity for each special character.  All entities begin with the same
character, which is special itself, and no special character stands anywhere else in one.

* `chain_eq_escape`: replacing one character after the other in the whole text, the common one
  first, does the same as writing each character of the text by itself.
* `escape_clean`: in what is written a special character is the beginning of an entity.
* `decode_escape`: reading the entities gives the text back.

Nothing here is about a certain table: the four laws of `Table` are what the argument needs, and
they can be decided for a table that is given.
-/
import Mathlib.Data.List.Basic
import Mathlib.Tactic.Common

namespace Entities

variable {α : Type*} [DecidableEq α]

/-! ## 1. Tables

The laws are about the entries only.  That no entity is the beginning of another makes reading
unambiguous, and that the common character comes first makes the passes independent of one another.
-/

/-- The special characters with their entities, in the order in which they are replaced. -/
structure Table (α : Type*) where
  amp : α
  entries : List (α × List α)
  amp_first : (entries.map Prod.fst).head? = some amp
  keys_nodup : (entries.map Prod.fst).Nodup
  begins : ∀ e ∈ entries, e.2.head? = some amp
  bodies : ∀ e ∈ entries, ∀ f ∈ entries, f.1 ∉ e.2.tail
  prefix_free : ∀ e ∈ entries, ∀ f ∈ entries, e.2 <+: f.2 → e = f

/-- What is written for a character. -/
def write : List (α × List α) → α → List α
  | [], x => [x]
  | entry :: entries, x => if x = entry.1 then entry.2 else write entries x

def writeAll (entries : List (α × List α)) (s : List α) : List α := s.flatMap (write entries)

/-- One pass over the whole text, for one character, as a replacement of all its occurrences does
it. -/
def onePass (entry : α × List α) (s : List α) : List α := writeAll [entry] s

/-- A pass for each entry, one after the other. -/
def chain (entries : List (α × List α)) (s : List α) : List α :=
  entries.foldl (fun text entry => onePass entry text) s

/-- Reading the entities of a text; the first `skip` characters belong to one that has been
read. -/
def decodeFrom (entries : List (α × List α)) : Nat → List α → List α
  | _, [] => []
  | skip + 1, _ :: s => decodeFrom entries skip s
  | 0, c :: s =>
    match entries.find? fun entry => entry.2.isPrefixOf (c :: s) with
    | some entry => entry.1 :: decodeFrom entries (entry.2.length - 1) s
    | none => c :: decodeFrom entries 0 s

namespace Table

/-- The special characters: those that the table has an entity for. -/
def Special (t : Table α) (c : α) : Prop := c ∈ t.entries.map Prod.fst

/-- A special character of the text is the beginning of an entity.  So a reader that knows the table
takes nothing in it for markup. -/
def Clean (t : Table α) (text : List α) : Prop :=
  ∀ before c behind, text = before ++ c :: behind → t.Special c →
    c = t.amp ∧ ∃ e ∈ t.entries, e.2 <+: c :: behind

/-- The text with its special characters escaped. -/
def escape (t : Table α) (s : List α) : List α := writeAll t.entries s

/-- The text with its entities read. -/
def decode (t : Table α) (s : List α) : List α := decodeFrom t.entries 0 s

end Table

@[simp] theorem writeAll_nil (entries : List (α × List α)) : writeAll entries [] = [] := rfl

@[simp] theorem writeAll_cons (entries : List (α × List α)) (x : α) (s : List α) :
    writeAll entries (x :: s) = write entries x ++ writeAll entries s := rfl

theorem writeAll_append (entries : List (α × List α)) (s s' : List α) :
    writeAll entries (s ++ s') = writeAll entries s ++ writeAll entries s' :=
  List.flatMap_append

/-- A character is written as an entity, or as itself. -/
theorem write_cases (entries : List (α × List α)) (x : α) :
    (∃ entry ∈ entries, entry.1 = x ∧ write entries x = entry.2) ∨
      x ∉ entries.map Prod.fst ∧ write entries x = [x] := by
  induction entries with
  | nil => exact Or.inr ⟨List.not_mem_nil, rfl⟩
  | cons entry entries ih =>
    by_cases hx : x = entry.1
    · exact Or.inl ⟨entry, List.mem_cons_self, hx.symm, by rw [write, if_pos hx]⟩
    · rw [write, if_neg hx]
      rcases ih with ⟨other, hother, hkey, hwrite⟩ | ⟨hnone, hwrite⟩
      · exact Or.inl ⟨other, List.mem_cons_of_mem entry hother, hkey, hwrite⟩
      · refine Or.inr ⟨?_, hwrite⟩
        rw [List.map_cons, List.mem_cons]
        rintro (h | h)
        · exact hx h
        · exact hnone h

/-! ## 2. Pass after pass

A pass goes through everything the passes before it have written.  It would replace the beginnings
of their entities too, if the common character did not come first. -/

/-- A character that does not occur is not replaced. -/
theorem onePass_of_not_mem {entry : α × List α} {s : List α} (h : entry.1 ∉ s) :
    onePass entry s = s := by
  induction s with
  | nil => rfl
  | cons x s ih =>
    rw [List.mem_cons, not_or] at h
    rw [onePass, writeAll_cons, write, if_neg (Ne.symm h.1)]
    exact congrArg (x :: ·) (ih h.2)

/-- What the entries at the end of a list add. -/
theorem write_append {done : List (α × List α)} {entries : List (α × List α)} {x : α} :
    write (done ++ entries) x =
      if x ∈ done.map Prod.fst then write done x else write entries x := by
  induction done with
  | nil => rw [List.nil_append, List.map_nil, if_neg List.not_mem_nil]
  | cons entry done ih =>
    rw [List.cons_append, write, write, ih]
    by_cases hx : x = entry.1
    · rw [if_pos hx, if_pos hx, if_pos (by simp [hx])]
    · rw [if_neg hx, if_neg hx]
      refine if_congr ?_ rfl rfl
      rw [List.map_cons, List.mem_cons, or_iff_right hx]

/-- **One more pass** is one more entry, if its character stands in no entity written so far. -/
theorem onePass_writeAll {done : List (α × List α)} {entry : α × List α}
    (hclean : ∀ e ∈ done, entry.1 ∉ e.2) (s : List α) :
    onePass entry (writeAll done s) = writeAll (done ++ [entry]) s := by
  induction s with
  | nil => rfl
  | cons x s ih =>
    rw [writeAll_cons, writeAll_cons, onePass, writeAll_append, write_append]
    refine congrArg₂ (· ++ ·) ?_ ih
    rcases write_cases done x with ⟨e, he, rfl, hwrite⟩ | ⟨hnone, hwrite⟩
    · rw [if_pos (List.mem_map_of_mem he), hwrite]
      exact onePass_of_not_mem (hclean e he)
    · rw [if_neg hnone, hwrite, writeAll_cons, writeAll_nil, List.append_nil]

theorem chain_writeAll {entries done : List (α × List α)}
    (hdone : ∀ e ∈ done, ∀ entry ∈ entries, entry.1 ∉ e.2)
    (hentries : entries.Pairwise fun e entry => entry.1 ∉ e.2) (s : List α) :
    chain entries (writeAll done s) = writeAll (done ++ entries) s := by
  induction entries generalizing done with
  | nil => rw [List.append_nil]; rfl
  | cons entry entries ih =>
    obtain ⟨hfirst, hrest⟩ := List.pairwise_cons.mp hentries
    have hpass := onePass_writeAll (fun e he => hdone e he entry List.mem_cons_self) s
    rw [chain, List.foldl_cons, hpass, ← chain, ih ?_ hrest, List.append_assoc,
      List.singleton_append]
    intro e he other hother
    rcases List.mem_append.mp he with he | he
    · exact hdone e he other (List.mem_cons_of_mem entry hother)
    · obtain rfl := List.mem_singleton.mp he
      exact hfirst other hother

namespace Table

variable (t : Table α)

omit [DecidableEq α] in
/-- An entity is the common character and its body. -/
theorem eq_amp_cons {e : α × List α} (he : e ∈ t.entries) : e.2 = t.amp :: e.2.tail :=
  (List.cons_head?_tail (t.begins e he)).symm

omit [DecidableEq α] in
/-- No later character stands in an entity, since the common one is the first. -/
theorem pairwise_clean : t.entries.Pairwise fun e entry => entry.1 ∉ e.2 := by
  have hkeys : t.entries.Pairwise fun e entry => e.1 ≠ entry.1 :=
    List.pairwise_map.mp t.keys_nodup
  cases hentries : t.entries with
  | nil => exact List.Pairwise.nil
  | cons first rest =>
    have hamp : first.1 = t.amp := by
      have h := t.amp_first
      rw [hentries] at h
      exact Option.some.inj h
    rw [hentries] at hkeys
    have hlater : ∀ entry ∈ rest, entry.1 ≠ t.amp := by
      intro entry hentry h
      exact (List.pairwise_cons.mp hkeys).1 entry hentry (hamp.trans h.symm)
    have hclean : ∀ e ∈ t.entries, ∀ entry ∈ rest, entry.1 ∉ e.2 := by
      intro e he entry hentry
      rw [t.eq_amp_cons he, List.mem_cons, not_or]
      exact ⟨hlater entry hentry,
        t.bodies e he entry (hentries ▸ List.mem_cons_of_mem first hentry)⟩
    refine List.pairwise_cons.mpr ⟨hclean first (hentries ▸ List.mem_cons_self), ?_⟩
    refine List.pairwise_of_forall_mem_list ?_
    intro e he entry hentry
    exact hclean e (hentries ▸ List.mem_cons_of_mem first he) entry hentry

/-- **The passes together** write each character by itself: a later pass finds no special character
of its own in what an earlier one has written. -/
theorem chain_eq_escape (s : List α) : chain t.entries s = t.escape s := by
  have hnone : writeAll ([] : List (α × List α)) s = s := by
    rw [writeAll]
    exact List.flatMap_singleton' s
  have hempty : ∀ e ∈ ([] : List (α × List α)), ∀ entry ∈ t.entries, entry.1 ∉ e.2 :=
    fun e he => absurd he List.not_mem_nil
  have h := chain_writeAll hempty t.pairwise_clean s
  rwa [hnone, List.nil_append] at h

/-! ## 3. What is written

A text in which every special character begins an entity can be put where special characters have a
meaning of their own, which is what escaping is for. -/

/-- **Nothing special is left** but what begins an entity. -/
theorem escape_clean (s : List α) : t.Clean (t.escape s) := by
  intro before c behind h hc
  induction s generalizing before with
  | nil => simp [escape] at h
  | cons x s ih =>
    change write t.entries x ++ t.escape s = _ at h
    rcases List.append_eq_append_iff.mp h with ⟨before', rfl, hs⟩ | ⟨rest, hx, hrest⟩
    · exact ih before' hs
    · cases rest with
      | nil => exact ih [] (by rw [List.nil_append] at hrest ⊢; exact hrest.symm)
      | cons c' rest =>
        obtain ⟨rfl, rfl⟩ := List.cons.inj hrest
        rcases write_cases t.entries x with ⟨e, he, rfl, hwrite⟩ | ⟨hnone, hwrite⟩
        · rw [hwrite] at hx
          obtain ⟨f, hf, rfl⟩ := List.mem_map.mp hc
          have hbody := t.bodies e he f hf
          have hamp := t.begins e he
          -- inside an entity a special character can only be the first
          cases before with
          | nil =>
            rw [hx] at hamp
            refine ⟨Option.some.inj hamp, e, he, ?_⟩
            rw [hx]
            exact List.prefix_append _ _
          | cons b before => simp [hx] at hbody
        · rw [hwrite] at hx
          have hone : x = c := by
            cases before with
            | nil => exact (List.cons.inj hx).1
            | cons b before => simp at hx
          exact absurd (hone ▸ hc) hnone

/-! ## 4. Reading the entities

Reading goes from the left, one entity or one character at a time. -/

theorem decodeFrom_skip (entries : List (α × List α)) (body s : List α) :
    decodeFrom entries body.length (body ++ s) = decodeFrom entries 0 s := by
  induction body with
  | nil => rfl
  | cons b body ih =>
    rw [List.length_cons, List.cons_append, decodeFrom]
    exact ih

/-- At an entity its own entry is found, since no entity is the beginning of another. -/
theorem find_entity {e : α × List α} (he : e ∈ t.entries) (s : List α) :
    (t.entries.find? fun entry => entry.2.isPrefixOf (e.2 ++ s)) = some e := by
  cases hfind : t.entries.find? fun entry => entry.2.isPrefixOf (e.2 ++ s) with
  | none =>
    have hnot := List.find?_eq_none.mp hfind e he
    rw [List.isPrefixOf_iff_prefix] at hnot
    exact absurd (List.prefix_append e.2 s) hnot
  | some f =>
    have hf := List.mem_of_find?_eq_some hfind
    have hfound : f.2.isPrefixOf (e.2 ++ s) = true := by
      have h := List.find?_some hfind
      exact h
    have hpre : f.2 <+: e.2 ++ s := List.isPrefixOf_iff_prefix.mp hfound
    have heq : f = e := by
      rcases List.prefix_or_prefix_of_prefix hpre (List.prefix_append e.2 s) with h | h
      · exact t.prefix_free f hf e he h
      · exact (t.prefix_free e he f hf h).symm
    rw [heq]

/-- At a character that is not special no entity begins. -/
theorem find_plain {x : α} (hx : ¬ t.Special x) (s : List α) :
    (t.entries.find? fun entry => entry.2.isPrefixOf (x :: s)) = none := by
  rw [List.find?_eq_none]
  intro e he hpre
  have hamp : t.amp = x := by
    rw [t.eq_amp_cons he, List.isPrefixOf_iff_prefix, List.cons_prefix_cons] at hpre
    exact hpre.1
  refine hx ?_
  rw [← hamp]
  exact List.mem_of_head? t.amp_first

/-- **Reading the entities gives the text back.**  No entity is the beginning of another one, so
there is one way to read. -/
theorem decode_escape (s : List α) : t.decode (t.escape s) = s := by
  induction s with
  | nil => rfl
  | cons x s ih =>
    change decodeFrom t.entries 0 (write t.entries x ++ t.escape s) = x :: s
    rcases write_cases t.entries x with ⟨e, he, rfl, hwrite⟩ | ⟨hnone, hwrite⟩
    · have hfind := t.find_entity he (t.escape s)
      rw [hwrite]
      rw [t.eq_amp_cons he, List.cons_append] at hfind ⊢
      rw [decodeFrom, hfind]
      have htail : e.2.length - 1 = e.2.tail.length := List.length_tail.symm
      simp only [htail, decodeFrom_skip]
      exact congrArg (e.1 :: ·) ih
    · rw [hwrite, List.singleton_append, decodeFrom, t.find_plain hnone]
      exact congrArg (x :: ·) ih

end Table

end Entities
