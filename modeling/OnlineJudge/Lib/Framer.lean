/-
# Resumable parsers and the framing loop

A connection delivers a byte stream in pieces.  The reader keeps the bytes it could not use yet
and a parser state; each time something arrives it runs a loop: parse what is there, hand over
a message when one is complete, start afresh, and wait for more when the parser asks for it.

What comes out should depend on the stream only, not on where it was cut.  That is a property
of one parser call, and `Resumable` states it: a call that waits would have done, with more
bytes, what its new state does with the bytes it left and the new ones; a call that finishes or
fails does not look at what comes behind.

* `Resumable.seq`: the rule for a parser made of stages that hand over to each other.
* `Framer.feed_eq`: with a resumable parser, any way of cutting a stream gives what the whole
  stream gives in one piece, the events as well as the state and the bytes left over.
-/
import Mathlib.Data.List.Basic
import Mathlib.Tactic.Common

namespace Framer

variable {σ α ε ρ : Type*}

/-! ## 1. Stages -/

/-- What one call of a parser comes to: it needs more elements, it is through, or it gives up.
In the first two cases it leaves a state and the elements it has not consumed. -/
inductive Outcome (σ α ε : Type*)
  | wait (s : σ) (rest : List α)
  | done (s : σ) (rest : List α)
  | fail (e : ε)

/-- A parser, or a part of one: a function of its state and of the elements that have not been read.
-/
abbrev Stage (σ α ε : Type*) := σ → List α → Outcome σ α ε

/-- **A stage that may be called on any prefix of its input**, from the states of `I`.  It
never puts elements back. -/
structure Resumable (I : σ → Prop) (f : Stage σ α ε) : Prop where
  wait : ∀ {s buf s' rest}, I s → f s buf = .wait s' rest →
    I s' ∧ ∀ x, f s (buf ++ x) = f s' (rest ++ x)
  done : ∀ {s buf s' rest}, I s → f s buf = .done s' rest →
    I s' ∧ rest.length ≤ buf.length ∧ ∀ x, f s (buf ++ x) = .done s' (rest ++ x)
  fail : ∀ {s buf e}, I s → f s buf = .fail e → ∀ x, f s (buf ++ x) = .fail e

/-- What a resumable stage can do with a buffer, whatever comes behind it.  If it waits, then to go
on with more bytes comes to the same as having had them at once; if it is done or fails, then more
bytes make no difference. -/
inductive Resumes (I : σ → Prop) (f : Stage σ α ε) (s : σ) (buf : List α) : Prop
  | wait (s' : σ) (rest : List α) (hs' : I s') (hwait : f s buf = .wait s' rest)
      (h : ∀ x, f s (buf ++ x) = f s' (rest ++ x))
  | done (s' : σ) (rest : List α) (hs' : I s') (hle : rest.length ≤ buf.length)
      (h : ∀ x, f s (buf ++ x) = .done s' (rest ++ x))
  | fail (e : ε) (h : ∀ x, f s (buf ++ x) = .fail e)

/-- A stage is resumable if it does one of these with every buffer. -/
theorem Resumable.of_resumes {I : σ → Prop} {f : Stage σ α ε}
    (h : ∀ s buf, I s → Resumes I f s buf) : Resumable I f where
  wait := by
    intro s buf s' rest hs heq
    cases h s buf hs with
    | wait t mid ht hwait happ =>
      obtain ⟨rfl, rfl⟩ := Outcome.wait.inj (heq.symm.trans hwait)
      exact ⟨ht, happ⟩
    | done t mid ht hle happ =>
      have hnil := happ []
      rw [List.append_nil, heq] at hnil
      cases hnil
    | fail e happ =>
      have hnil := happ []
      rw [List.append_nil, heq] at hnil
      cases hnil
  done := by
    intro s buf s' rest hs heq
    cases h s buf hs with
    | wait t mid ht hwait happ => cases heq.symm.trans hwait
    | done t mid ht hle happ =>
      have hnil := happ []
      rw [List.append_nil, List.append_nil, heq] at hnil
      obtain ⟨rfl, rfl⟩ := Outcome.done.inj hnil
      exact ⟨ht, hle, happ⟩
    | fail e happ =>
      have hnil := happ []
      rw [List.append_nil, heq] at hnil
      cases hnil
  fail := by
    intro s buf e hs heq x
    cases h s buf hs with
    | wait t mid ht hwait happ => cases heq.symm.trans hwait
    | done t mid ht hle happ =>
      have hnil := happ []
      rw [List.append_nil, heq] at hnil
      cases hnil
    | fail e' happ =>
      have hnil := happ []
      rw [List.append_nil, heq] at hnil
      rw [happ x, ← Outcome.fail.inj hnil]

theorem Resumable.congr {I : σ → Prop} {f g : Stage σ α ε}
    (h : ∀ s buf, I s → g s buf = f s buf) (hf : Resumable I f) : Resumable I g where
  wait := by
    intro s buf s' rest hs heq
    rw [h s buf hs] at heq
    obtain ⟨hs', happ⟩ := hf.wait hs heq
    exact ⟨hs', fun x => by rw [h _ _ hs, h _ _ hs', happ x]⟩
  done := by
    intro s buf s' rest hs heq
    rw [h s buf hs] at heq
    obtain ⟨hs', hle, happ⟩ := hf.done hs heq
    exact ⟨hs', hle, fun x => by rw [h _ _ hs, happ x]⟩
  fail := by
    intro s buf e hs heq x
    rw [h s buf hs] at heq
    rw [h _ _ hs, hf.fail hs heq x]

/-- First `f`, and `g` with what it leaves when it is through. -/
def Stage.seq (f g : Stage σ α ε) : Stage σ α ε := fun s buf =>
  match f s buf with
  | .done s' rest => g s' rest
  | .wait s' rest => .wait s' rest
  | .fail e => .fail e

theorem seq_of_done {f g : Stage σ α ε} {s s' : σ} {buf rest : List α}
    (h : f s buf = .done s' rest) : f.seq g s buf = g s' rest := by
  rw [Stage.seq, h]

/-- A sequence of two stages waits in one of them. -/
theorem wait_of_seq {f g : Stage σ α ε} {s s' : σ} {buf rest : List α}
    (h : f.seq g s buf = .wait s' rest) :
    f s buf = .wait s' rest ∨ ∃ t mid, f s buf = .done t mid ∧ g t mid = .wait s' rest := by
  cases hfs : f s buf with
  | wait t mid =>
    rw [Stage.seq, hfs] at h
    exact Or.inl h
  | done t mid =>
    rw [seq_of_done hfs] at h
    exact Or.inr ⟨t, mid, rfl, h⟩
  | fail e =>
    rw [Stage.seq, hfs] at h
    cases h

/-- **Stages compose**, when the second stage waits in states that the first lets pass. -/
theorem Resumable.seq {I : σ → Prop} {f g : Stage σ α ε} (hf : Resumable I f)
    (hg : Resumable I g)
    (hpass : ∀ {s buf s' rest}, I s → g s buf = .wait s' rest → ∀ b, f s' b = .done s' b) :
    Resumable I (f.seq g) where
  wait := by
    intro s buf s' rest hs h
    cases hfs : f s buf with
    | done t mid =>
      obtain ⟨ht, -, happ⟩ := hf.done hs hfs
      rw [seq_of_done hfs] at h
      obtain ⟨hs', hgapp⟩ := hg.wait ht h
      refine ⟨hs', fun x => ?_⟩
      rw [seq_of_done (happ x), hgapp x, seq_of_done (hpass ht h _)]
    | wait t mid =>
      rw [Stage.seq, hfs] at h
      obtain ⟨rfl, rfl⟩ := Outcome.wait.inj h
      obtain ⟨hs', happ⟩ := hf.wait hs hfs
      exact ⟨hs', fun x => by rw [Stage.seq, Stage.seq, happ x]⟩
    | fail e =>
      rw [Stage.seq, hfs] at h
      cases h
  done := by
    intro s buf s' rest hs h
    cases hfs : f s buf with
    | done t mid =>
      obtain ⟨ht, hle, happ⟩ := hf.done hs hfs
      rw [seq_of_done hfs] at h
      obtain ⟨hs', hle', hgapp⟩ := hg.done ht h
      exact ⟨hs', Nat.le_trans hle' hle, fun x => by rw [seq_of_done (happ x), hgapp x]⟩
    | _ =>
      rw [Stage.seq, hfs] at h
      cases h
  fail := by
    intro s buf e hs h x
    cases hfs : f s buf with
    | done t mid =>
      obtain ⟨ht, -, happ⟩ := hf.done hs hfs
      rw [seq_of_done hfs] at h
      rw [seq_of_done (happ x), hg.fail ht h x]
    | wait t mid =>
      rw [Stage.seq, hfs] at h
      cases h
    | fail e' =>
      rw [Stage.seq, hfs] at h
      rw [Stage.seq, hf.fail hs hfs x]
      exact h

/-! ## 2. The loop -/

/-- What the reader hands over. -/
inductive Event (ρ ε : Type*)
  | message (m : ρ)
  | failure (e : ε)

/-- A connection: what has been handed over, and the parser state with the unread elements,
or `none` once a failure has closed it. -/
@[ext] structure Conn (σ α ε ρ : Type*) where
  events : List (Event ρ ε)
  live : Option (σ × List α)

end Framer

/-- A parser with its state at the start of a message, and the message in its final state. -/
structure Framer (σ α ε ρ : Type*) where
  fresh : σ
  stage : Framer.Stage σ α ε
  message : σ → ρ

namespace Framer

variable {σ α ε ρ : Type*} (F : Framer σ α ε ρ)

/-- The loop over the elements that are there, for at most `n` rounds: `none` means that the
rounds have not sufficed. -/
def drain : Nat → σ → List α → Option (Conn σ α ε ρ)
  | 0, _, _ => none
  | n + 1, s, buf =>
    if buf.isEmpty then some ⟨[], some (s, buf)⟩
    else
      match F.stage s buf with
      | .wait s' rest => some ⟨[], some (s', rest)⟩
      | .done s' rest =>
        (drain n F.fresh rest).map fun c => ⟨.message (F.message s') :: c.events, c.live⟩
      | .fail e => some ⟨[.failure e], none⟩

/-- Something arrives. -/
def read (c : Conn σ α ε ρ) (chunk : List α) : Option (Conn σ α ε ρ) :=
  match c.live with
  | none => some c
  | some (s, unread) =>
    (F.drain (unread.length + chunk.length + 2) s (unread ++ chunk)).map fun c' =>
      ⟨c.events ++ c'.events, c'.live⟩

/-- A new connection. -/
def opened : Conn σ α ε ρ := ⟨[], some (F.fresh, [])⟩

/-- A stream that arrives in pieces. -/
def feedFrom : Conn σ α ε ρ → List (List α) → Option (Conn σ α ε ρ)
  | c, [] => some c
  | c, chunk :: chunks => (F.read c chunk).bind fun c' => feedFrom c' chunks

/-- A stream that arrives in pieces on a new connection. -/
def feed (chunks : List (List α)) : Option (Conn σ α ε ρ) := F.feedFrom F.opened chunks

/-- What the loop relies on: the parser is resumable, and it consumes something to get through a
message from its start. -/
structure Lawful (I : σ → Prop) : Prop where
  fresh : I F.fresh
  resumable : Resumable I F.stage
  consumes : ∀ {buf s' rest}, F.stage F.fresh buf = .done s' rest → rest.length < buf.length

variable {F}

theorem drain_nil (n : Nat) (s : σ) : F.drain (n + 1) s [] = some ⟨[], some (s, [])⟩ := rfl

theorem drain_wait {n : Nat} {s s' : σ} {buf rest : List α} (hne : buf ≠ [])
    (h : F.stage s buf = .wait s' rest) : F.drain (n + 1) s buf = some ⟨[], some (s', rest)⟩ := by
  simp only [drain, List.isEmpty_iff, hne, if_false, h]

theorem drain_done {n : Nat} {s s' : σ} {buf rest : List α} (hne : buf ≠ [])
    (h : F.stage s buf = .done s' rest) :
    F.drain (n + 1) s buf = (F.drain n F.fresh rest).map fun c =>
      ⟨.message (F.message s') :: c.events, c.live⟩ := by
  simp only [drain, List.isEmpty_iff, hne, if_false, h]

theorem drain_fail {n : Nat} {s : σ} {buf : List α} {e : ε} (hne : buf ≠ [])
    (h : F.stage s buf = .fail e) : F.drain (n + 1) s buf = some ⟨[.failure e], none⟩ := by
  simp only [drain, List.isEmpty_iff, hne, if_false, h]

/-! ## 3. The number of rounds

The loop of a reader ends because a message consumes something.  Here that is a number of rounds
that suffices, so that the loop can be computed with any larger number. -/

/-- More rounds do not change a result. -/
theorem drain_mono {n m : Nat} (hle : n ≤ m) {s : σ} {buf : List α} {c : Conn σ α ε ρ}
    (h : F.drain n s buf = some c) : F.drain m s buf = some c := by
  induction n generalizing m s buf c with
  | zero => cases h
  | succ n ih =>
    obtain ⟨m, rfl⟩ : ∃ m', m = m' + 1 := ⟨m - 1, by omega⟩
    by_cases hne : buf = []
    · subst hne
      exact h
    · cases hstage : F.stage s buf with
      | wait s' rest => rwa [drain_wait hne hstage] at h ⊢
      | done s' rest =>
        rw [drain_done hne hstage] at h ⊢
        obtain ⟨c', hc', rfl⟩ := Option.map_eq_some_iff.mp h
        rw [ih (Nat.le_of_succ_le_succ hle) hc', Option.map_some]
      | fail e => rwa [drain_fail hne hstage] at h ⊢

theorem drain_unique {n m : Nat} {s : σ} {buf : List α} {c c' : Conn σ α ε ρ}
    (h : F.drain n s buf = some c) (h' : F.drain m s buf = some c') : c = c' :=
  Option.some.inj ((drain_mono (Nat.le_max_left n m) h).symm.trans
    (drain_mono (Nat.le_max_right n m) h'))

variable {I : σ → Prop}

/-- From the start of a message every round consumes something. -/
theorem Lawful.exists_drain_fresh (hF : F.Lawful I) {n : Nat} {buf : List α}
    (hn : buf.length < n) : ∃ c, F.drain n F.fresh buf = some c := by
  induction n generalizing buf with
  | zero => omega
  | succ n ih =>
    by_cases hne : buf = []
    · subst hne
      exact ⟨_, drain_nil n _⟩
    · cases hstage : F.stage F.fresh buf with
      | wait s' rest => exact ⟨_, drain_wait hne hstage⟩
      | done s' rest =>
        have hlt := hF.consumes hstage
        obtain ⟨c, hc⟩ : ∃ c, F.drain n F.fresh rest = some c := ih (by omega)
        exact ⟨_, by rw [drain_done hne hstage, hc, Option.map_some]⟩
      | fail e => exact ⟨_, drain_fail hne hstage⟩

/-- **The loop terminates**: two rounds more than there are elements suffice. -/
theorem Lawful.exists_drain (hF : F.Lawful I) {s : σ} (hs : I s) {n : Nat} {buf : List α}
    (hn : buf.length + 2 ≤ n) : ∃ c, F.drain n s buf = some c := by
  obtain ⟨n, rfl⟩ : ∃ m, n = m + 1 := ⟨n - 1, by omega⟩
  by_cases hne : buf = []
  · subst hne
    exact ⟨_, drain_nil n _⟩
  · cases hstage : F.stage s buf with
    | wait s' rest => exact ⟨_, drain_wait hne hstage⟩
    | done s' rest =>
      have hle := (hF.resumable.done hs hstage).2.1
      obtain ⟨c, hc⟩ : ∃ c, F.drain n F.fresh rest = some c := hF.exists_drain_fresh (by omega)
      exact ⟨_, by rw [drain_done hne hstage, hc, Option.map_some]⟩
    | fail e => exact ⟨_, drain_fail hne hstage⟩

/-! ## 4. Independence of the cuts

Whether a stream comes in one piece or byte by byte, a connection ends in the same state with the
same events.  The induction is on the pieces, and what it needs of a connection between two of them
is that it is quiet. -/

/-- A connection between two reads: nothing is left that the parser could use. -/
def Conn.Quiet (F : Framer σ α ε ρ) (I : σ → Prop) (c : Conn σ α ε ρ) : Prop :=
  ∀ s unread, c.live = some (s, unread) →
    I s ∧ (unread = [] ∨ F.stage s unread = .wait s unread)

theorem Lawful.quiet_opened (hF : F.Lawful I) : F.opened.Quiet F I := by
  intro s unread h
  obtain ⟨rfl, rfl⟩ := Prod.mk.inj (Option.some.inj h)
  exact ⟨hF.fresh, Or.inl rfl⟩

theorem Lawful.quiet_of_drain (hF : F.Lawful I) {n : Nat} {s : σ} {buf : List α}
    {c : Conn σ α ε ρ} (hs : I s) (h : F.drain n s buf = some c) : c.Quiet F I := by
  induction n generalizing s buf c with
  | zero => cases h
  | succ n ih =>
    intro t unread hlive
    by_cases hne : buf = []
    · subst hne
      obtain rfl := Option.some.inj h
      obtain ⟨rfl, rfl⟩ := Prod.mk.inj (Option.some.inj hlive)
      exact ⟨hs, Or.inl rfl⟩
    · cases hstage : F.stage s buf with
      | wait s' rest =>
        rw [drain_wait hne hstage] at h
        obtain rfl := Option.some.inj h
        obtain ⟨rfl, rfl⟩ := Prod.mk.inj (Option.some.inj hlive)
        obtain ⟨hs', happ⟩ := hF.resumable.wait hs hstage
        have hidle : F.stage s' rest = .wait s' rest := by
          simpa only [List.append_nil, hstage] using (happ []).symm
        exact ⟨hs', Or.inr hidle⟩
      | done s' rest =>
        rw [drain_done hne hstage] at h
        obtain ⟨c', hc', rfl⟩ := Option.map_eq_some_iff.mp h
        exact ih hF.fresh hc' t unread hlive
      | fail e =>
        rw [drain_fail hne hstage] at h
        obtain rfl := Option.some.inj h
        cases hlive

/-- **The loop can be interrupted.**  If the loop over `buf` leaves a live connection, then the
loop over `buf ++ x` goes on from there. -/
theorem Lawful.drain_append_live (hF : F.Lawful I) {n m : Nat} {s s' : σ} {buf rest x : List α}
    {c c' : Conn σ α ε ρ} (hs : I s) (h : F.drain n s buf = some c)
    (hlive : c.live = some (s', rest)) (h' : F.drain m s' (rest ++ x) = some c') :
    ∃ k, F.drain k s (buf ++ x) = some ⟨c.events ++ c'.events, c'.live⟩ := by
  induction n generalizing s buf c with
  | zero => cases h
  | succ n ih =>
    by_cases hne : buf = []
    · subst hne
      obtain rfl := Option.some.inj h
      obtain ⟨rfl, rfl⟩ := Prod.mk.inj (Option.some.inj hlive)
      exact ⟨m, h'⟩
    · have hne' : buf ++ x ≠ [] := List.append_ne_nil_of_left_ne_nil hne x
      cases hstage : F.stage s buf with
      | wait t mid =>
        rw [drain_wait hne hstage] at h
        obtain rfl := Option.some.inj h
        obtain ⟨rfl, rfl⟩ := Prod.mk.inj (Option.some.inj hlive)
        obtain ⟨-, happ⟩ := hF.resumable.wait hs hstage
        obtain ⟨m, rfl⟩ : ∃ m', m = m' + 1 := by
          cases m with
          | zero => cases h'
          | succ m => exact ⟨m, rfl⟩
        refine ⟨m + 1, ?_⟩
        by_cases hmid : mid ++ x = []
        · -- nothing is left and nothing came: the same call waits again
          have hx : x = [] := (List.append_eq_nil_iff.mp hmid).2
          rw [hmid, drain_nil] at h'
          obtain rfl := Option.some.inj h'
          rw [hx, List.append_nil, drain_wait hne hstage, (List.append_eq_nil_iff.mp hmid).1]
          rfl
        · rw [List.nil_append, ← h']
          simp only [drain, List.isEmpty_iff, hne', hmid, if_false, happ x]
      | done t mid =>
        rw [drain_done hne hstage] at h
        obtain ⟨d, hd, rfl⟩ := Option.map_eq_some_iff.mp h
        obtain ⟨-, -, happ⟩ := hF.resumable.done hs hstage
        obtain ⟨k, hk⟩ := ih hF.fresh hd hlive
        exact ⟨k + 1, by rw [drain_done hne' (happ x), hk, Option.map_some, List.cons_append]⟩
      | fail e =>
        rw [drain_fail hne hstage] at h
        obtain rfl := Option.some.inj h
        cases hlive

/-- A failure is final: what comes behind it changes nothing. -/
theorem Lawful.drain_append_closed (hF : F.Lawful I) {n : Nat} {s : σ} {buf : List α}
    {c : Conn σ α ε ρ} (x : List α) (hs : I s) (h : F.drain n s buf = some c)
    (hlive : c.live = none) : F.drain n s (buf ++ x) = some c := by
  induction n generalizing s buf c with
  | zero => cases h
  | succ n ih =>
    by_cases hne : buf = []
    · subst hne
      obtain rfl := Option.some.inj h
      cases hlive
    · have hne' : buf ++ x ≠ [] := List.append_ne_nil_of_left_ne_nil hne x
      cases hstage : F.stage s buf with
      | wait t mid =>
        rw [drain_wait hne hstage] at h
        obtain rfl := Option.some.inj h
        cases hlive
      | done t mid =>
        rw [drain_done hne hstage] at h
        obtain ⟨d, hd, rfl⟩ := Option.map_eq_some_iff.mp h
        rw [drain_done hne' ((hF.resumable.done hs hstage).2.2 x), ih hF.fresh hd hlive,
          Option.map_some]
      | fail e =>
        rw [drain_fail hne hstage] at h
        rw [drain_fail hne' (hF.resumable.fail hs hstage x)]
        exact h

/-- A read of nothing leaves a quiet connection as it is. -/
theorem Conn.Quiet.read_nil {c : Conn σ α ε ρ} (h : c.Quiet F I) : F.read c [] = some c := by
  cases hlive : c.live with
  | none => rw [read, hlive]
  | some p =>
    obtain ⟨s, unread⟩ := p
    obtain ⟨-, hidle⟩ := h s unread hlive
    have hdrain : F.drain (unread.length + 2) s unread = some ⟨[], some (s, unread)⟩ := by
      by_cases hne : unread = []
      · rw [hne]
        exact drain_nil _ s
      · exact drain_wait hne (hidle.resolve_left hne)
    rw [read, hlive]
    simp only [List.length_nil, Nat.add_zero, List.append_nil, hdrain, Option.map_some, ← hlive]

/-- Reads on a quiet connection succeed, and leave a quiet connection. -/
theorem Lawful.exists_read (hF : F.Lawful I) {c : Conn σ α ε ρ} (hc : c.Quiet F I)
    (chunk : List α) : ∃ c', F.read c chunk = some c' ∧ c'.Quiet F I := by
  cases hlive : c.live with
  | none => exact ⟨c, by rw [read, hlive], hc⟩
  | some p =>
    obtain ⟨s, unread⟩ := p
    obtain ⟨d, hd⟩ :
        ∃ d, F.drain (unread.length + chunk.length + 2) s (unread ++ chunk) = some d :=
      hF.exists_drain (hc s unread hlive).1 (by simp)
    have hquiet : d.Quiet F I := hF.quiet_of_drain (hc s unread hlive).1 hd
    refine ⟨⟨c.events ++ d.events, d.live⟩, ?_, fun t rest hd' => hquiet t rest hd'⟩
    simp only [read, hlive, hd, Option.map_some]

/-- Two reads are one read of both pieces. -/
theorem Lawful.read_append (hF : F.Lawful I) {c c' : Conn σ α ε ρ} (hc : c.Quiet F I)
    {chunk : List α} (h : F.read c chunk = some c') (x : List α) :
    F.read c (chunk ++ x) = F.read c' x := by
  cases hlive : c.live with
  | none =>
    rw [read, hlive, Option.some.injEq] at h
    subst h
    rw [read, hlive, read, hlive]
  | some p =>
    obtain ⟨s, unread⟩ := p
    have hs : I s := (hc s unread hlive).1
    simp only [read, hlive] at h
    obtain ⟨d, hd, rfl⟩ := Option.map_eq_some_iff.mp h
    have hquiet : d.Quiet F I := hF.quiet_of_drain hs hd
    obtain ⟨e, he⟩ : ∃ e, F.drain (unread.length + (chunk ++ x).length + 2) s
        (unread ++ (chunk ++ x)) = some e := hF.exists_drain hs (by simp)
    have hread : F.read c (chunk ++ x) = some ⟨c.events ++ e.events, e.live⟩ := by
      simp only [read, hlive, he, Option.map_some]
    rw [hread]
    cases hd' : d.live with
    | none =>
      have happ := hF.drain_append_closed x hs hd hd'
      rw [List.append_assoc] at happ
      obtain rfl := drain_unique he happ
      simp only [read, hd']
    | some q =>
      obtain ⟨t, rest⟩ := q
      obtain ⟨f, hf⟩ : ∃ f, F.drain (rest.length + x.length + 2) t (rest ++ x) = some f :=
        hF.exists_drain (hquiet t rest hd').1 (by simp)
      obtain ⟨k, hk⟩ := hF.drain_append_live hs hd hd' hf
      rw [List.append_assoc] at hk
      obtain rfl := drain_unique he hk
      simp only [read, hf, Option.map_some, List.append_assoc]

theorem Lawful.feedFrom_eq (hF : F.Lawful I) {c : Conn σ α ε ρ} (hc : c.Quiet F I)
    (chunks : List (List α)) : F.feedFrom c chunks = F.read c chunks.flatten := by
  induction chunks generalizing c with
  | nil => exact hc.read_nil.symm
  | cons chunk chunks ih =>
    obtain ⟨c', hread, hc'⟩ := hF.exists_read hc chunk
    rw [feedFrom, hread, Option.bind_some, ih hc', List.flatten_cons, hF.read_append hc hread]

/-- **Any way of cutting a stream gives what the whole stream gives.** -/
theorem Lawful.feed_eq (hF : F.Lawful I) (chunks : List (List α)) :
    F.feed chunks = F.read F.opened chunks.flatten :=
  hF.feedFrom_eq hF.quiet_opened chunks

/-- What a stream gives can be computed with any number of rounds that suffices. -/
theorem Lawful.feed_of_drain (hF : F.Lawful I) {n : Nat} {chunks : List (List α)}
    {c : Conn σ α ε ρ} (h : F.drain n F.fresh chunks.flatten = some c) :
    F.feed chunks = some c := by
  obtain ⟨d, hd⟩ : ∃ d, F.drain (chunks.flatten.length + 2) F.fresh chunks.flatten = some d :=
    hF.exists_drain hF.fresh (Nat.le_refl _)
  rw [hF.feed_eq]
  simp only [read, opened, List.length_nil, Nat.zero_add, List.nil_append, hd, Option.map_some]
  rw [drain_unique hd h]

end Framer
