/-
# Patterns of letters and runs

The regular expressions of a route table are of one simple kind: letters that stand for themselves,
and groups `(x+)` of letters of one class, which are captured.  For patterns in which the letter
behind a group is not of the class, a text can be taken apart in one way only; so the search needs
no backtracking, and a table of such patterns can be checked for overlaps once and for all.

This module has these patterns over any alphabet and any class of letters.

* `Matches` is what a pattern means, and `capture_eq_some_iff` that one pass from the left finds it.
* `not_matches_of_apart`: a test on two patterns after which no text matches both.
* `lookup_eq_some_iff`: in a table whose patterns are pairwise apart the first match is the only
  one, so the order of the rows is of no matter (`lookup_perm`).
-/
import Mathlib.Data.List.Basic
import Mathlib.Data.List.TakeWhile
import Mathlib.Tactic.Common

namespace RunPattern

/-! ## 1. Patterns

What a pattern means is a relation between a text and the captures.  The search is a function, and
under `delimited` the two agree: a group takes all it can, and could not have taken less. -/

/-- A letter, or a captured run. -/
inductive Token (α : Type*)
  | letter (a : α)
  | run
deriving DecidableEq, Repr

/-- A pattern: letters and groups, one behind the other. -/
abbrev Pattern (α : Type*) := List (Token α)

variable {α β : Type*} (cls : α → Bool)

/-- The text is of the pattern, with these captures. -/
inductive Matches : Pattern α → List α → List (List α) → Prop
  | nil : Matches [] [] []
  | letter {pat s captures} (a : α) (h : Matches pat s captures) :
      Matches (.letter a :: pat) (a :: s) captures
  | run {pat s captures} (xs : List α) (hne : xs ≠ []) (hall : ∀ a ∈ xs, cls a = true)
      (h : Matches pat s captures) : Matches (.run :: pat) (xs ++ s) (xs :: captures)

/-- No run can go on behind its group. -/
def delimited : Pattern α → Bool
  | [] => true
  | .letter _ :: pat => delimited pat
  | .run :: [] => true
  | .run :: .letter a :: pat => !cls a && delimited pat
  | .run :: .run :: _ => false

variable [DecidableEq α]

/-- One pass from the left, in which a group takes the longest run there is. -/
def capture : Pattern α → List α → Option (List (List α))
  | [], [] => some []
  | [], _ :: _ => none
  | .letter _ :: _, [] => none
  | .letter a :: pat, b :: s => if a = b then capture pat s else none
  | .run :: pat, s =>
    if s.takeWhile cls = [] then none
    else (capture pat (s.dropWhile cls)).map (s.takeWhile cls :: ·)

variable {cls} {pat pat' : Pattern α} {s : List α} {captures captures' : List (List α)}

omit [DecidableEq α] in
theorem delimited_tail {t : Token α} (h : delimited cls (t :: pat) = true) :
    delimited cls pat = true := by
  cases t with
  | letter a => exact h
  | run =>
    cases pat with
    | nil => rfl
    | cons t' pat =>
      cases t' with
      | letter a =>
        rw [delimited, Bool.and_eq_true] at h
        exact h.2
      | run => cases h

omit [DecidableEq α] in
/-- Behind a group the text does not go on with its class. -/
theorem head_of_delimited (hdel : delimited cls (.run :: pat) = true)
    (h : Matches cls pat s captures) : ∀ a ∈ s.head?, cls a = false := by
  cases h with
  | nil => exact nofun
  | letter a h =>
    rw [delimited, Bool.and_eq_true, Bool.not_eq_true'] at hdel
    intro b hb
    obtain rfl := Option.some.inj hb
    exact hdel.1
  | run => cases hdel

omit [DecidableEq α] in
/-- **The whole run is the group**, for what stands behind it in the pattern cannot begin within the
run. -/
theorem takeWhile_run {xs : List α} (hall : ∀ a ∈ xs, cls a = true)
    (hhead : ∀ a ∈ s.head?, cls a = false) :
    (xs ++ s).takeWhile cls = xs ∧ (xs ++ s).dropWhile cls = s := by
  rw [List.takeWhile_append_of_pos hall, List.dropWhile_append_of_pos hall]
  cases s with
  | nil => exact ⟨List.append_nil xs, rfl⟩
  | cons a s =>
    have ha : ¬ cls a = true := by simp [hhead a rfl]
    rw [List.takeWhile_cons_of_neg ha, List.dropWhile_cons_of_neg ha, List.append_nil]
    exact ⟨rfl, rfl⟩

theorem matches_of_capture : ∀ {pat : Pattern α} {s : List α} {captures : List (List α)},
    capture cls pat s = some captures → Matches cls pat s captures
  | [], [], _, h => by
    obtain rfl := Option.some.inj h
    exact .nil
  | .letter a :: pat, b :: s, captures, h => by
    rw [capture] at h
    split at h
    · rename_i hab
      subst hab
      exact .letter a (matches_of_capture h)
    · cases h
  | .run :: pat, s, captures, h => by
    rw [capture] at h
    split at h
    · cases h
    · rename_i hne
      obtain ⟨rest, hrest, rfl⟩ := Option.map_eq_some_iff.mp h
      have hmatches := Matches.run _ hne (fun a ha => List.mem_takeWhile_imp ha)
        (matches_of_capture hrest)
      rwa [List.takeWhile_append_dropWhile] at hmatches

theorem capture_of_matches (h : Matches cls pat s captures) (hdel : delimited cls pat = true) :
    capture cls pat s = some captures := by
  induction h with
  | nil => rfl
  | letter a h ih =>
    rw [capture, if_pos rfl]
    exact ih (delimited_tail hdel)
  | run xs hne hall h ih =>
    obtain ⟨htake, hdrop⟩ := takeWhile_run hall (head_of_delimited hdel h)
    rw [capture, htake, hdrop, if_neg hne, ih (delimited_tail hdel)]
    rfl

/-- **One pass is enough**: with a literal behind each run that does not begin with a character of
the class, the longest run is the only one that can be right. -/
theorem capture_eq_some_iff (hdel : delimited cls pat = true) :
    capture cls pat s = some captures ↔ Matches cls pat s captures :=
  ⟨matches_of_capture, fun h => capture_of_matches h hdel⟩

/-! ## 2. Patterns that are apart

Two patterns are walked through together.  As soon as a letter stands against another letter, or
against a class it does not belong to, no text is of both. -/

/-- A test that no text is of both patterns; it may fail for patterns that are apart in another way.
-/
def apart (cls : α → Bool) : Pattern α → Pattern α → Bool
  | [], [] => false
  | [], _ :: _ => true
  | _ :: _, [] => true
  | .letter a :: pat, .letter b :: pat' => a ≠ b || apart cls pat pat'
  | .letter a :: _, .run :: _ => !cls a
  | .run :: _, .letter b :: _ => !cls b
  | .run :: pat, .run :: pat' => apart cls pat pat'

omit [DecidableEq α] in
/-- A run starts with a letter of its class. -/
theorem not_letter_run {a : α} {xs : List α} {s' : List α} (hne : xs ≠ [])
    (hall : ∀ a ∈ xs, cls a = true) (ha : cls a = false) : a :: s ≠ xs ++ s' := by
  cases xs with
  | nil => exact absurd rfl hne
  | cons x xs =>
    intro heq
    obtain rfl := (List.cons.inj heq).1
    rw [hall a List.mem_cons_self] at ha
    cases ha

/-- **The test is sound**: two patterns that are apart have no text in common. -/
theorem not_matches_of_apart (h : Matches cls pat s captures) (hdel : delimited cls pat = true)
    (hdel' : delimited cls pat' = true) (hapart : apart cls pat pat' = true) :
    ¬ Matches cls pat' s captures' := by
  induction h generalizing pat' captures' with
  | nil =>
    intro h'
    generalize hs : ([] : List α) = s at h'
    cases h' with
    | nil => cases hapart
    | letter => cases hs
    | run xs hne => exact hne (List.append_eq_nil_iff.mp hs.symm).1
  | @letter pat s captures a h ih =>
    intro h'
    generalize hs : a :: s = s' at h'
    cases h' with
    | nil => cases hs
    | letter b h' =>
      obtain ⟨rfl, rfl⟩ := List.cons.inj hs
      simp only [apart, ne_eq, not_true_eq_false, decide_false, Bool.false_or] at hapart
      exact ih (delimited_tail hdel) (delimited_tail hdel') hapart h'
    | run xs hne hall h' =>
      rw [apart, Bool.not_eq_true'] at hapart
      exact not_letter_run hne hall hapart hs
  | @run pat s captures xs hne hall h ih =>
    intro h'
    generalize hs : xs ++ s = s' at h'
    cases h' with
    | nil => exact hne (List.append_eq_nil_iff.mp hs).1
    | letter b h' =>
      rw [apart, Bool.not_eq_true'] at hapart
      exact not_letter_run hne hall hapart hs.symm
    | run xs' hne' hall' h' =>
      -- Both groups take the whole run.
      obtain ⟨-, hdrop⟩ := takeWhile_run hall (head_of_delimited hdel h)
      obtain ⟨-, hdrop'⟩ := takeWhile_run hall' (head_of_delimited hdel' h')
      rw [hs, hdrop'] at hdrop
      subst hdrop
      exact ih (delimited_tail hdel) (delimited_tail hdel') hapart h'

/-! ## 3. Tables

A table is searched from its first row.  If its rows are apart, what is found depends on the set of
the rows only, so a table may be put together in any order. -/

/-- The first row whose pattern the text is of, with the captures. -/
def lookup (cls : α → Bool) (rows : List (Pattern α × β)) (s : List α) :
    Option (β × List (List α)) :=
  rows.findSome? fun row => (capture cls row.1 s).map fun captures => (row.2, captures)

/-- The rows of the table do not overlap, by a test on each pair of patterns that looks at no text.
-/
def unambiguous (cls : α → Bool) (rows : List (Pattern α × β)) : Prop :=
  (∀ row ∈ rows, delimited cls row.1 = true) ∧
    rows.Pairwise fun row row' => apart cls row.1 row'.1 = true

instance (rows : List (Pattern α × β)) : Decidable (unambiguous cls rows) :=
  inferInstanceAs (Decidable (_ ∧ _))

/-- **A lookup finds the one row there is.** -/
theorem lookup_eq_some_iff {rows : List (Pattern α × β)} (h : unambiguous cls rows) {b : β} :
    lookup cls rows s = some (b, captures) ↔
      ∃ pat, (pat, b) ∈ rows ∧ Matches cls pat s captures := by
  induction rows with
  | nil => simp [lookup]
  | cons row rows ih =>
    obtain ⟨hdel, hpairwise⟩ := h
    rw [List.pairwise_cons] at hpairwise
    have hrest := ih ⟨fun row' hrow' => hdel row' (List.mem_cons_of_mem _ hrow'), hpairwise.2⟩
    have hrow := hdel row List.mem_cons_self
    rw [lookup, List.findSome?_cons]
    cases hcapture : capture cls row.1 s with
    | none =>
      refine hrest.trans ⟨?_, ?_⟩
      · rintro ⟨pat, hmem, hmatches⟩
        exact ⟨pat, List.mem_cons_of_mem _ hmem, hmatches⟩
      · rintro ⟨pat, hmem, hmatches⟩
        rcases List.mem_cons.mp hmem with rfl | hmem
        · cases hcapture.symm.trans (capture_of_matches hmatches hrow)
        · exact ⟨pat, hmem, hmatches⟩
    | some found =>
      have hfound := matches_of_capture hcapture
      simp only [Option.map_some, Option.some.injEq, Prod.mk.injEq]
      constructor
      · rintro ⟨rfl, rfl⟩
        exact ⟨row.1, List.mem_cons_self, hfound⟩
      · rintro ⟨pat, hmem, hmatches⟩
        rcases List.mem_cons.mp hmem with rfl | hmem
        · have hsame := hcapture.symm.trans (capture_of_matches hmatches hrow)
          exact ⟨rfl, Option.some.inj hsame⟩
        · exact absurd hmatches (not_matches_of_apart hfound hrow
            (hdel _ (List.mem_cons_of_mem _ hmem)) (hpairwise.1 _ hmem))

theorem apart_comm : ∀ pat pat' : Pattern α, apart cls pat pat' = apart cls pat' pat
  | [], [] => rfl
  | [], _ :: _ => rfl
  | _ :: _, [] => rfl
  | .letter a :: pat, .letter b :: pat' => by
    rw [apart, apart, apart_comm pat pat', decide_eq_decide.mpr (ne_comm (a := a) (b := b))]
  | .letter _ :: _, .run :: _ => rfl
  | .run :: _, .letter _ :: _ => rfl
  | .run :: pat, .run :: pat' => apart_comm pat pat'

/-- **The order of the rows is of no matter**, as one of them matches at most. -/
theorem lookup_perm {rows rows' : List (Pattern α × β)} (h : unambiguous cls rows)
    (hperm : rows.Perm rows') (s : List α) : lookup cls rows s = lookup cls rows' s := by
  have h' : unambiguous cls rows' := by
    refine ⟨fun row hrow => h.1 row (hperm.mem_iff.mpr hrow), ?_⟩
    exact hperm.pairwise h.2 fun hapart => (apart_comm _ _).trans hapart
  refine Option.ext fun found => ?_
  obtain ⟨b, captures⟩ := found
  rw [lookup_eq_some_iff h, lookup_eq_some_iff h']
  simp only [hperm.mem_iff]

/-- What stands in the rows is handed on. -/
theorem lookup_map {γ : Type*} (f : β → γ) (rows : List (Pattern α × β)) (s : List α) :
    lookup cls (rows.map fun row => (row.1, f row.2)) s =
      (lookup cls rows s).map fun found => (f found.1, found.2) := by
  induction rows with
  | nil => rfl
  | cons row rows ih =>
    rw [List.map_cons, lookup, lookup, List.findSome?_cons, List.findSome?_cons]
    cases capture cls row.1 s with
    | none => exact ih
    | some captures => rfl

/-! ## 4. Filling a pattern in

The way back: from the captures to a text of the pattern, as somebody does who writes an address. -/

/-- The text with these runs in place of the groups. -/
def fill : Pattern α → List (List α) → List α
  | [], _ => []
  | .letter a :: pat, args => a :: fill pat args
  | .run :: pat, [] => fill pat []
  | .run :: pat, arg :: args => arg ++ fill pat args

/-- The number of groups. -/
def groups : Pattern α → Nat
  | [] => 0
  | .letter _ :: pat => groups pat
  | .run :: pat => groups pat + 1

omit [DecidableEq α] in
/-- A match has one capture for each group, and it is a run. -/
theorem captures_of_matches (h : Matches cls pat s captures) :
    captures.length = groups pat ∧ ∀ xs ∈ captures, xs ≠ [] ∧ ∀ a ∈ xs, cls a = true := by
  induction h with
  | nil => exact ⟨rfl, nofun⟩
  | letter a h ih => exact ih
  | run xs hne hall h ih =>
    refine ⟨congrArg Nat.succ ih.1, fun ys hys => ?_⟩
    rcases List.mem_cons.mp hys with rfl | hys
    · exact ⟨hne, hall⟩
    · exact ih.2 ys hys

omit [DecidableEq α] in
/-- **What is filled in is captured**: a run of the class for each group gives a text that has these
groups. -/
theorem matches_fill : ∀ {pat : Pattern α} {args : List (List α)}, args.length = groups pat →
    (∀ arg ∈ args, arg ≠ [] ∧ ∀ a ∈ arg, cls a = true) → Matches cls pat (fill pat args) args
  | [], [], _, _ => .nil
  | .letter a :: pat, args, hlength, hargs => .letter a (matches_fill hlength hargs)
  | .run :: pat, arg :: args, hlength, hargs => by
    obtain ⟨hne, hall⟩ := hargs arg List.mem_cons_self
    exact .run arg hne hall (matches_fill (Nat.succ.inj hlength) fun arg' harg' =>
      hargs arg' (List.mem_cons_of_mem _ harg'))
  | .run :: _, [], hlength, _ => by cases hlength

end RunPattern
