/-
# References to the environment in the configuration

`ExpandEnvVars` (`utils/config.cpp`) replaces `${VAR}` in the strings of the configuration by
`getenv("VAR")`, or by nothing.  What it ought to do is said without the code: a text is read in one
way as literal bytes and terminated references (`Reads`), and each piece has a value.

`expandEnvVars_iff`: the code does that except for a name with a NUL in it.  `getenv` takes a C
string, so that for such a name it is asked for the part before the NUL.

An unterminated reference is text: it stays in the output as it is, with all that follows it.  The
values are put in once, and a `${` within a value is not looked at again.
-/
import OnlineJudge.Lib.ByteString

namespace OnlineJudge.Utils

open ByteString

/-! ## 1. `ExpandEnvVars`

The loop goes on behind a byte that it has copied, or behind the brace of a reference. -/

/-- The variables of a process.  Their names and values are C strings. -/
structure Environment where
  lookup : Bytes → Option Bytes
  names_ok : ∀ name value, lookup name = some value → 0 ∉ name
  values_ok : ∀ name value, lookup name = some value → 0 ∉ value

/-- `std::getenv(var.c_str())`. -/
def Environment.getenv (env : Environment) (var : Bytes) : Option Bytes := env.lookup (cStr var)

/-- The loop of `ExpandEnvVars` at `i`, for at most `n` rounds; `none` if it has not ended by
then. -/
def expandLoop (env : Environment) (input : Bytes) : Nat → Nat → Bytes → Option Bytes
  | 0, _, _ => none
  | n + 1, i, out =>
    if h : i < input.length then
      if input[i] = 36 ∧ i + 1 < input.length ∧ input[i + 1]? = some 123 then
        match findFrom [125] input (i + 2) with
        | none => some (out ++ input.drop i)
        | some stop =>
          let var := (input.drop (i + 2)).take (stop - (i + 2))
          match env.getenv var with
          | some value => expandLoop env input n (stop + 1) (out ++ value)
          | none => expandLoop env input n (stop + 1) out
      else expandLoop env input n (i + 1) (out ++ [input[i]])
    else some out

/-- `ExpandEnvVars`.  Each round goes on by a byte at least. -/
def expandEnvVars (env : Environment) (input : Bytes) : Option Bytes :=
  expandLoop env input (input.length + 1) 0 []

/-! ## 2. What a text says

A grammar with one rule for each kind of piece.  That every text has a reading, and only one, is
what allows the loop to be compared with it. -/

/-- A piece of a text: a literal byte, a terminated reference, or an unterminated one with all that
follows. -/
inductive Piece
  | lit (c : UInt8)
  | ref (name : Bytes)
  | tail (text : Bytes)

/-- **Reading a text from left to right.**  A `${` opens a reference, and the next `}` ends it. -/
inductive Reads : Bytes → List Piece → Prop
  | nil : Reads [] []
  | ref {name rest : Bytes} {pieces : List Piece} (hname : 125 ∉ name) (hrest : Reads rest pieces) :
      Reads (36 :: 123 :: (name ++ 125 :: rest)) (.ref name :: pieces)
  | tail {rest : Bytes} (hrest : 125 ∉ rest) :
      Reads (36 :: 123 :: rest) [.tail (36 :: 123 :: rest)]
  | lit {c : UInt8} {rest : Bytes} {pieces : List Piece}
      (hlit : ¬ (c = 36 ∧ rest.head? = some 123)) (hrest : Reads rest pieces) :
      Reads (c :: rest) (.lit c :: pieces)

/-- What a piece stands for. -/
def Piece.value (env : Environment) : Piece → Bytes
  | .lit c => [c]
  | .ref name => (env.lookup name).getD []
  | .tail text => text

/-- What a text stands for.  Values are not read again. -/
def meaning (env : Environment) (pieces : List Piece) : Bytes :=
  pieces.flatMap (Piece.value env)

/-- **Every text can be read**: what is no reference is a literal byte, and the last reference may
be unterminated. -/
theorem exists_reads (input : Bytes) : ∃ pieces, Reads input pieces := by
  induction hn : input.length using Nat.strongRecOn generalizing input with
  | ind n ih =>
    cases input with
    | nil => exact ⟨[], Reads.nil⟩
    | cons c rest =>
      by_cases hopen : c = 36 ∧ rest.head? = some 123
      · obtain ⟨rfl, hhead⟩ := hopen
        obtain ⟨rest, rfl⟩ := List.head?_eq_some_iff.mp hhead
        rcases not_mem_or_first 125 rest with hnone | ⟨name, behind, rfl, hname⟩
        · exact ⟨_, Reads.tail hnone⟩
        · have hlt : behind.length < n := by
            rw [← hn]
            simp only [List.length_cons, List.length_append]
            omega
          obtain ⟨pieces, hpieces⟩ := ih behind.length hlt behind rfl
          exact ⟨_, Reads.ref hname hpieces⟩
      · have hlt : rest.length < n := by
          rw [← hn, List.length_cons]
          omega
        obtain ⟨pieces, hpieces⟩ := ih rest.length hlt rest rfl
        exact ⟨_, Reads.lit hopen hpieces⟩

theorem first_unique {name name' rest rest' : Bytes} (h : 125 ∉ name) (h' : 125 ∉ name')
    (heq : name ++ 125 :: rest = name' ++ 125 :: rest') : name = name' ∧ rest = rest' := by
  have hfind := find_singleton_append h rest
  rw [heq, find_singleton_append h' rest', Option.some.injEq] at hfind
  obtain ⟨hname, hrest⟩ := List.append_inj heq hfind.symm
  exact ⟨hname, (List.cons.inj hrest).2⟩

/-- **In one way**: at each byte it is decided which rule applies. -/
theorem Reads.unique {input : Bytes} {pieces pieces' : List Piece} (h : Reads input pieces)
    (h' : Reads input pieces') : pieces = pieces' := by
  induction h generalizing pieces' with
  | nil =>
    cases h'
    rfl
  | @ref name rest pieces hname _ ih =>
    generalize htext : name ++ 125 :: rest = text at h'
    cases h' with
    | @ref name' rest' pieces' hname' hrest' =>
      obtain ⟨rfl, rfl⟩ := first_unique hname hname' htext
      rw [ih hrest']
    | tail hnone =>
      rw [← htext] at hnone
      exact absurd (List.mem_append_right name List.mem_cons_self) hnone
    | lit hlit => exact absurd ⟨rfl, rfl⟩ hlit
  | @tail rest hnone =>
    cases h' with
    | ref => exact absurd (List.mem_append_right _ List.mem_cons_self) hnone
    | tail => rfl
    | lit hlit => exact absurd ⟨rfl, rfl⟩ hlit
  | lit hlit _ ih =>
    cases h' with
    | ref => exact absurd ⟨rfl, rfl⟩ hlit
    | tail => exact absurd ⟨rfl, rfl⟩ hlit
    | lit _ hrest' => rw [ih hrest']

/-! ## 3. What the code makes of it

The loop takes the pieces one after the other, so the induction is on the reading and not on the
text. -/

/-- What the code puts in place of a piece. -/
def Piece.expansion (env : Environment) : Piece → Bytes
  | .lit c => [c]
  | .ref name => (env.getenv name).getD []
  | .tail text => text

/-- The byte behind the one at the end of `before`. -/
theorem getElem?_behind (before rest : Bytes) (c : UInt8) :
    (before ++ c :: rest)[before.length + 1]? = rest.head? := by
  rw [List.getElem?_append_right (by omega), Nat.add_sub_cancel_left, List.getElem?_cons_succ,
    List.head?_eq_getElem?]

/-- A round at a byte that opens no reference. -/
theorem expandLoop_lit {env : Environment} {before rest : Bytes} {c : UInt8}
    (hlit : ¬ (c = 36 ∧ rest.head? = some 123)) (n : Nat) (out : Bytes) :
    expandLoop env (before ++ c :: rest) (n + 1) before.length out =
      expandLoop env (before ++ c :: rest) n (before.length + 1) (out ++ [c]) := by
  have hlt : before.length < (before ++ c :: rest).length := by simp
  have hhere : (before ++ c :: rest)[before.length] = c := by simp
  rw [expandLoop, dif_pos hlt, hhere, getElem?_behind, if_neg]
  rintro ⟨hdollar, -, hbrace⟩
  exact hlit ⟨hdollar, hbrace⟩

theorem expandLoop_open (env : Environment) (before rest : Bytes) (n : Nat) (out : Bytes) :
    expandLoop env (before ++ 36 :: 123 :: rest) (n + 1) before.length out =
      match find [125] rest with
      | none => some (out ++ 36 :: 123 :: rest)
      | some pos =>
        expandLoop env (before ++ 36 :: 123 :: rest) n (before.length + 2 + pos + 1)
          (out ++ (env.getenv (rest.take pos)).getD []) := by
  have hlt : before.length < (before ++ 36 :: 123 :: rest).length := by simp
  have hsplit : before ++ 36 :: 123 :: rest = (before ++ [36, 123]) ++ rest := by simp
  have hlen : before.length + 2 = (before ++ [36, 123]).length := by simp
  have hopen : (before ++ 36 :: 123 :: rest)[before.length] = 36 ∧
      before.length + 1 < (before ++ 36 :: 123 :: rest).length ∧
        (before ++ 36 :: 123 :: rest)[before.length + 1]? = some 123 :=
    ⟨by simp, by simp, getElem?_behind before (123 :: rest) 36⟩
  have hfind : findFrom [125] (before ++ 36 :: 123 :: rest) (before.length + 2) =
      (find [125] rest).map (· + (before.length + 2)) := by
    rw [hsplit, hlen, findFrom_append]
  rw [expandLoop, dif_pos hlt, if_pos hopen, hfind]
  cases find [125] rest with
  | none => simp only [Option.map_none, List.drop_left]
  | some pos =>
    have hdrop : (before ++ 36 :: 123 :: rest).drop (before.length + 2) = rest := by
      rw [hsplit, hlen, List.drop_left]
    simp only [Option.map_some, hdrop, Nat.add_comm pos, Nat.add_sub_cancel_left]
    cases env.getenv (rest.take pos) with
    | none => rw [Option.getD_none, List.append_nil]
    | some value => rfl

/-- **The loop puts the expansion of each piece behind the output**, and ends. -/
theorem expandLoop_reads {env : Environment} {s : Bytes} {pieces : List Piece}
    (h : Reads s pieces) (before : Bytes) {n : Nat} (hn : s.length < n) (out : Bytes) :
    expandLoop env (before ++ s) n before.length out =
      some (out ++ pieces.flatMap (Piece.expansion env)) := by
  induction h generalizing before n out with
  | nil =>
    cases n with
    | zero => omega
    | succ n =>
      rw [expandLoop, dif_neg (by simp), List.flatMap_nil, List.append_nil]
  | @ref name rest pieces hname _ ih =>
    cases n with
    | zero => omega
    | succ n =>
      have hlen : rest.length < n := by
        simp only [List.length_cons, List.length_append] at hn
        omega
      have hsplit : before ++ 36 :: 123 :: (name ++ 125 :: rest) =
          (before ++ 36 :: 123 :: (name ++ [125])) ++ rest := by simp
      have hnext : before.length + 2 + name.length + 1 =
          (before ++ 36 :: 123 :: (name ++ [125])).length := by
        simp only [List.length_append, List.length_cons, List.length_nil]
        omega
      rw [expandLoop_open, find_singleton_append hname]
      simp only [List.take_left, hnext]
      rw [hsplit]
      refine (ih _ hlen _).trans ?_
      rw [List.flatMap_cons, List.append_assoc]
      rfl
  | @tail rest hnone =>
    cases n with
    | zero => omega
    | succ n =>
      rw [expandLoop_open, find_singleton_of_not_mem hnone]
      simp only [List.flatMap_cons, List.flatMap_nil, List.append_nil, Piece.expansion]
  | @lit c rest pieces hlit _ ih =>
    cases n with
    | zero => omega
    | succ n =>
      have hsplit : before ++ c :: rest = (before ++ [c]) ++ rest := by simp
      have hnext : before.length + 1 = (before ++ [c]).length := by simp
      have hlen : rest.length < n := by
        rw [List.length_cons] at hn
        omega
      rw [expandLoop_lit hlit, hsplit, hnext, ih _ hlen, List.flatMap_cons, List.append_assoc]
      rfl

theorem expandEnvVars_eq {env : Environment} {input : Bytes} {pieces : List Piece}
    (h : Reads input pieces) :
    expandEnvVars env input = some (pieces.flatMap (Piece.expansion env)) :=
  expandLoop_reads h [] (Nat.lt_succ_self input.length) []

/-! ## 4. When it is what the text says

A name with a NUL in it is the name of no variable.  What the code puts in is that of another one,
if there is such a variable. -/

/-- No variable of the environment has a NUL in its name. -/
theorem Environment.lookup_of_nul (env : Environment) {name : Bytes} (h : 0 ∈ name) :
    env.lookup name = none := by
  cases hlook : env.lookup name with
  | none => rfl
  | some value => exact absurd h (env.names_ok name value hlook)

/-- A piece is not a reference to a name with a NUL before which a variable is named that is set
and not empty. -/
def Piece.Faithful (env : Environment) (piece : Piece) : Prop :=
  ∀ name, piece = .ref name → 0 ∈ name → (env.getenv name).getD [] = []

theorem Piece.value_prefix (env : Environment) (piece : Piece) :
    piece.value env <+: piece.expansion env ∧
      (piece.value env = piece.expansion env ↔ piece.Faithful env) := by
  cases piece with
  | lit c => exact ⟨List.prefix_rfl, by simp [Piece.Faithful, Piece.value, Piece.expansion]⟩
  | tail text => exact ⟨List.prefix_rfl, by simp [Piece.Faithful, Piece.value, Piece.expansion]⟩
  | ref name =>
    by_cases hnul : 0 ∈ name
    · rw [Piece.value, Piece.expansion, env.lookup_of_nul hnul]
      refine ⟨List.nil_prefix, ?_⟩
      constructor
      · intro h name' hname' _
        obtain rfl := Piece.ref.inj hname'
        exact h.symm
      · intro h
        exact (h name rfl hnul).symm
    · rw [Piece.value, Piece.expansion, Environment.getenv, cStr_of_not_mem hnul]
      refine ⟨List.prefix_rfl, ?_⟩
      refine iff_of_true rfl ?_
      intro name' hname' hnul'
      obtain rfl := Piece.ref.inj hname'
      exact absurd hnul' hnul

/-- The pieces agree together only if each does, since no expansion is shorter than the value. -/
theorem meaning_eq_iff (env : Environment) (pieces : List Piece) :
    pieces.flatMap (Piece.expansion env) = meaning env pieces ↔
      ∀ piece ∈ pieces, piece.Faithful env := by
  have hle : ∀ pieces : List Piece,
      (meaning env pieces).length ≤ (pieces.flatMap (Piece.expansion env)).length := by
    intro pieces
    induction pieces with
    | nil => exact Nat.le_refl 0
    | cons piece pieces ih =>
      have hpiece := (piece.value_prefix env).1.length_le
      rw [meaning, List.flatMap_cons, List.flatMap_cons, List.length_append, List.length_append]
      exact Nat.add_le_add hpiece ih
  induction pieces with
  | nil => simp [meaning]
  | cons piece pieces ih =>
    obtain ⟨hpre, hfaithful⟩ := piece.value_prefix env
    rw [List.forall_mem_cons]
    refine Iff.trans ?_ (and_congr hfaithful ih)
    rw [meaning, List.flatMap_cons, List.flatMap_cons, ← meaning]
    constructor
    · intro h
      have hlen := congrArg List.length h
      rw [List.length_append, List.length_append] at hlen
      have hrest := hle pieces
      have hfirst := hpre.length_le
      have hsame := hpre.eq_of_length (by omega)
      rw [hsame] at h
      exact ⟨hsame, List.append_cancel_left h⟩
    · rintro ⟨hfirst, hrest⟩
      rw [hfirst, hrest]

/-- **When the expansion is what the text says.**  Every text is read in one way, and the code
replaces its references by the values of the variables exactly when no reference has a name with a
NUL in it, before which a variable is named that is set and not empty. -/
theorem expandEnvVars_iff (env : Environment) (input : Bytes) :
    (∃ pieces, Reads input pieces) ∧
      ∀ pieces, Reads input pieces →
        (expandEnvVars env input = some (meaning env pieces) ↔
          ∀ name, Piece.ref name ∈ pieces → 0 ∈ name → (env.getenv name).getD [] = []) := by
  refine ⟨exists_reads input, ?_⟩
  intro pieces hpieces
  rw [expandEnvVars_eq hpieces, Option.some.injEq, meaning_eq_iff]
  constructor
  · intro h name hname
    exact h (.ref name) hname name rfl
  · rintro h piece hpiece name rfl
    exact h name hpiece

/-- One variable. -/
def sampleEnvironment : Environment where
  lookup name := if name = ascii "A" then some (ascii "secret") else none
  names_ok := by
    intro name value h
    split at h
    · rename_i hname
      rw [hname]
      decide
    · cases h
  values_ok := by
    intro name value h
    split at h
    · obtain rfl := Option.some.inj h
      decide
    · cases h

example : expandEnvVars sampleEnvironment (ascii "x$\x7bA\x7d$\x7bB\x7d$$\x7bA") =
    some (ascii "xsecret$$\x7bA") := by decide

/-- A reference to the name `A`, NUL, `B`. -/
theorem reads_nul : Reads [36, 123, 65, 0, 66, 125] [.ref [65, 0, 66]] :=
  @Reads.ref [65, 0, 66] [] [] (by decide) Reads.nil

theorem expandEnvVars_iff_nul :
    expandEnvVars sampleEnvironment [36, 123, 65, 0, 66, 125] =
        some (meaning sampleEnvironment [.ref [65, 0, 66]]) ↔
      ∀ name, Piece.ref name ∈ [Piece.ref [65, 0, 66]] → 0 ∈ name →
        (sampleEnvironment.getenv name).getD [] = [] :=
  (expandEnvVars_iff sampleEnvironment [36, 123, 65, 0, 66, 125]).2 _ reads_nul

/-- It names no variable, and the value of `A` is put in its place. -/
theorem expandEnvVars_not_meaning :
    ¬ ∀ (env : Environment) (input : Bytes) (pieces : List Piece), Reads input pieces →
      expandEnvVars env input = some (meaning env pieces) := by
  intro h
  have hbad := h sampleEnvironment _ _ reads_nul
  revert hbad
  decide

end OnlineJudge.Utils
