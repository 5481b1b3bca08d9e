/-
# Path names, resolved lexically

A path name is cut at its slashes and resolved component by component: an empty component and
`.` stay, `..` goes up (at the root it stays), and every other component goes down into the
directory of that name.  A name with a slash in front starts at the root, any other name in the
current directory.  Symbolic links are ignored.

A directory is the list of names on the way to it from the root, so a file lies inside a
directory when the directory's list is a prefix of the file's (`Within`).

* `walk_within`: components that never climb above the directory they start in lead to
  something inside it.
* `not_mem_walk`: components that do climb above it leave it for good, if they do not name it
  again.
-/
import Mathlib.Data.List.Infix
import OnlineJudge.Lib.ByteString

namespace LexicalPath

open ByteString

/-! ## 1. Resolution

A walk starts in a directory and enters one component after another.  A component that names nothing
stays where the walk is, so a name with two slashes in a row is no other name. -/

/-- A directory: the names on the way to it from the root. -/
abbrev Dir := List Bytes

/-- The components of a path name, the empty ones with them. -/
def components (name : Bytes) : List Bytes := name.splitOn 47

/-- The components that stay: the empty one and the dot. -/
def Stays (c : Bytes) : Prop := c = [] ∨ c = ascii "."

instance (c : Bytes) : Decidable (Stays c) := inferInstanceAs (Decidable (c = [] ∨ c = ascii "."))

/-- One component: up, down, or no step. -/
def enter (dir : Dir) (c : Bytes) : Dir :=
  if Stays c then dir
  else if c = ascii ".." then dir.dropLast
  else dir ++ [c]

def walk (dir : Dir) (cs : List Bytes) : Dir := cs.foldl enter dir

/-- The file a path name stands for, seen from the current directory. -/
def resolve (cwd : Dir) (name : Bytes) : Dir :=
  walk (if name.head? = some 47 then [] else cwd) (components name)

/-- The file lies inside the directory, or is the directory: its path goes through all of the
components. -/
def Within (dir file : Dir) : Prop := dir <+: file

instance (dir file : Dir) : Decidable (Within dir file) :=
  inferInstanceAs (Decidable (dir <+: file))

@[simp] theorem walk_nil (dir : Dir) : walk dir [] = dir := rfl

theorem walk_cons (dir : Dir) (c : Bytes) (cs : List Bytes) :
    walk dir (c :: cs) = walk (enter dir c) cs := rfl

theorem walk_append (dir : Dir) (cs ds : List Bytes) :
    walk dir (cs ++ ds) = walk (walk dir cs) ds := List.foldl_append

/-- The components of a name and of what is appended to it behind a slash. -/
theorem components_append_slash (name rest : Bytes) :
    components (name ++ 47 :: rest) = components name ++ components rest :=
  List.splitOn_append_cons_self name rest

/-- A name without a slash is its only component. -/
theorem components_of_not_mem {name : Bytes} (h : 47 ∉ name) : components name = [name] :=
  List.splitOn_eq_singleton h

/-- No component is longer than the name.  The induction is on the length of the name, slash by
slash. -/
theorem length_le_of_mem_components {c : Bytes} :
    ∀ {name : Bytes}, c ∈ components name → c.length ≤ name.length := by
  intro name
  induction hn : name.length using Nat.strong_induction_on generalizing name with
  | _ n ih =>
    intro hmem
    rcases not_mem_or_first 47 name with hno | ⟨pre, post, rfl, hpre⟩
    · rw [components_of_not_mem hno, List.mem_singleton] at hmem
      rw [hmem, hn]
    · rw [List.length_append, List.length_cons] at hn
      rw [components_append_slash, components_of_not_mem hpre] at hmem
      rcases List.mem_cons.mp hmem with hc | hc
      · rw [hc]
        omega
      · have hpost := ih post.length (by omega) rfl hc
        omega

/-! ## 2. Climbing

How far down a walk is below the directory it started in is a number; while that number never falls
below 0 the walk is inside.  Once it has been outside, it is inside again only if some component
brings the name of the directory back. -/

/-- From `depth` levels below a directory, the components never climb above it. -/
def staysBelow : Nat → List Bytes → Bool
  | _, [] => true
  | depth, c :: cs =>
    if Stays c then staysBelow depth cs
    else if c = ascii ".." then
      match depth with
      | 0 => false
      | depth + 1 => staysBelow depth cs
    else staysBelow (depth + 1) cs

/-- **Components that never climb above a directory lead inside it.** -/
theorem walk_within {cs : List Bytes} (dir ext : Dir) (h : staysBelow ext.length cs = true) :
    Within dir (walk (dir ++ ext) cs) := by
  induction cs generalizing ext with
  | nil => exact List.prefix_append dir ext
  | cons c cs ih =>
    rw [walk_cons, enter]
    unfold staysBelow at h
    split at h
    · rename_i hstay
      rw [if_pos hstay]
      exact ih ext h
    · rename_i hstay
      rw [if_neg hstay]
      split at h
      · rename_i hup
        rw [if_pos hup]
        rcases List.eq_nil_or_concat ext with rfl | ⟨ext', c', rfl⟩
        · cases h
        · rw [List.concat_eq_append, List.length_append, List.length_singleton] at h
          rw [List.concat_eq_append, ← List.append_assoc, List.dropLast_concat]
          exact ih ext' h
      · rename_i hup
        rw [if_neg hup, List.append_assoc]
        exact ih (ext ++ [c]) (by rwa [List.length_append, List.length_singleton])

/-- What a walk ends with was there or was named. -/
theorem mem_walk {cs : List Bytes} {dir : Dir} {x : Bytes} (h : x ∈ walk dir cs) :
    x ∈ dir ∨ x ∈ cs := by
  induction cs generalizing dir with
  | nil => exact Or.inl h
  | cons c cs ih =>
    rcases ih h with hx | hx
    · unfold enter at hx
      split at hx
      · exact Or.inl hx
      · split at hx
        · exact Or.inl (List.mem_of_mem_dropLast hx)
        · rcases List.mem_append.mp hx with hx | hx
          · exact Or.inl hx
          · exact Or.inr (List.mem_cons.mpr (Or.inl (List.mem_singleton.mp hx)))
    · exact Or.inr (List.mem_cons_of_mem c hx)

/-- **Components that climb above a directory leave it for good**, if they do not name it. -/
theorem not_mem_walk {cs : List Bytes} {top : Bytes} (ext : Dir) (htop : top ∉ cs)
    (hext : top ∉ ext) (h : staysBelow ext.length cs = false) : top ∉ walk (top :: ext) cs := by
  induction cs generalizing ext with
  | nil => cases h
  | cons c cs ih =>
    obtain ⟨hc, hcs⟩ := List.ne_and_not_mem_of_not_mem_cons htop
    rw [walk_cons, enter]
    unfold staysBelow at h
    split at h
    · rename_i hstay
      rw [if_pos hstay]
      exact ih ext hcs hext h
    · rename_i hstay
      rw [if_neg hstay]
      split at h
      · rename_i hup
        rw [if_pos hup]
        rcases List.eq_nil_or_concat ext with rfl | ⟨ext', c', rfl⟩
        · -- the directory itself is left
          intro hmem
          rcases mem_walk hmem with hmem | hmem
          · exact absurd hmem List.not_mem_nil
          · exact hcs hmem
        · rw [List.concat_eq_append, List.length_append, List.length_singleton] at h
          rw [List.concat_eq_append] at hext ⊢
          rw [← List.cons_append, List.dropLast_concat]
          exact ih ext' hcs (fun hmem => hext (List.mem_append_left _ hmem)) h
      · rename_i hup
        rw [if_neg hup, List.cons_append]
        refine ih (ext ++ [c]) hcs ?_ (by rwa [List.length_append, List.length_singleton])
        rw [List.mem_append, List.mem_singleton]
        rintro (hmem | hmem)
        · exact hext hmem
        · exact hc hmem

end LexicalPath
