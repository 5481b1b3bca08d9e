/-
# A document that is cut off is no document

Whether a text can be JSON shows in its brackets and quotes alone: outside of quotes each closing
bracket has an opening one before it, and at the end every bracket and every quote is closed.  A
scan with a counter and two flags decides this (`scan`).  Every reader of JSON refuses a text that
fails it (`Complete`), whatever else it demands.

* `Closed`: a text that a scan leaves as it was entered, and that never closes what it has not
  opened.  Closed texts compose, also between brackets and in lists.
* `closed_print`: a printed document is closed.
* `not_complete_of_prefix`: of a printed object or array, no proper prefix is complete.

Nothing is said of texts that are complete: most of them are no JSON.  For a reader whose input may
have been cut off one direction is enough, the one that lets it refuse.
-/
import OnlineJudge.Lib.JsonReader

open ByteString

namespace Json

/-! ## 1. The scan

A byte moves the scan by itself, so a text moves it by a fold, and two texts one behind the other
move it in turn. -/

/-- Where a scan is: how many brackets are open, whether a quote is, and whether the next byte of
the quoted text is escaped. -/
@[ext] structure Nest where
  depth : Int
  quoted : Bool
  escaped : Bool
deriving DecidableEq

/-- Outside of quotes. -/
def Nest.plain (d : Int) : Nest := ⟨d, false, false⟩

/-- Within quotes. -/
def Nest.inText (d : Int) : Nest := ⟨d, true, false⟩

/-- One byte: a bracket outside of quotes, a quote, a backslash within quotes, or none of them. -/
def Nest.step (s : Nest) (b : UInt8) : Nest :=
  if s.quoted then
    if s.escaped then { s with escaped := false }
    else if b = 92 then { s with escaped := true }
    else if b = 34 then { s with quoted := false }
    else s
  else if b = 34 then { s with quoted := true }
  else if b = 123 ∨ b = 91 then { s with depth := s.depth + 1 }
  else if b = 125 ∨ b = 93 then { s with depth := s.depth - 1 }
  else s

/-- A text. -/
def scan (s : Nest) (t : Bytes) : Nest := t.foldl Nest.step s

/-- Everything that is opened is closed, and there is something: the empty text is no document. -/
def Complete (t : Bytes) : Prop := t ≠ [] ∧ scan (.plain 0) t = .plain 0

instance (t : Bytes) : Decidable (Complete t) := inferInstanceAs (Decidable (_ ∧ _))

@[simp] theorem scan_nil (s : Nest) : scan s [] = s := rfl

@[simp] theorem scan_cons (s : Nest) (b : UInt8) (t : Bytes) :
    scan s (b :: t) = scan (s.step b) t := rfl

@[simp] theorem scan_append (s : Nest) (t u : Bytes) : scan s (t ++ u) = scan (scan s t) u :=
  List.foldl_append

/-! ## 2. Texts that a scan leaves as it was entered

The scan of a prefix of such a text may be deeper, never shallower.  That half is what a cut text is
recognised by. -/

/-- The scan comes back to where it was, and is never at a smaller depth on the way. -/
structure Stays (s : Nest) (t : Bytes) : Prop where
  back : scan s t = s
  above : ∀ q, q <+: t → s.depth ≤ (scan s q).depth

theorem stays_nil (s : Nest) : Stays s [] where
  back := rfl
  above q hq := by
    rw [List.prefix_nil.mp hq]
    exact Int.le_refl _

/-- A prefix of two texts is a prefix of the first, or has the whole of it. -/
theorem prefix_or_append {q t u : Bytes} (h : q <+: t ++ u) :
    q <+: t ∨ ∃ r, q = t ++ r ∧ r <+: u := by
  obtain ⟨v, hv⟩ := h
  rcases List.append_eq_append_iff.mp hv with ⟨r, hr, -⟩ | ⟨r, hr, hu⟩
  · exact .inl ⟨r, hr.symm⟩
  · exact .inr ⟨r, hr, v, hu.symm⟩

theorem Stays.append {s : Nest} {t u : Bytes} (ht : Stays s t) (hu : Stays s u) :
    Stays s (t ++ u) where
  back := by rw [scan_append, ht.back, hu.back]
  above q hq := by
    rcases prefix_or_append hq with hq | ⟨r, rfl, hr⟩
    · exact ht.above q hq
    · rw [scan_append, ht.back]
      exact hu.above r hr

theorem stays_singleton {s : Nest} {b : UInt8} (h : s.step b = s) : Stays s [b] where
  back := h
  above q hq := by
    rcases List.prefix_cons_iff.mp hq with rfl | ⟨r, rfl, hr⟩
    · exact Int.le_refl _
    · rw [List.prefix_nil.mp hr, scan_cons, h]
      exact Int.le_refl _

theorem stays_of_forall {s : Nest} {t : Bytes} (h : ∀ b ∈ t, s.step b = s) : Stays s t := by
  induction t with
  | nil => exact stays_nil s
  | cons b t ih =>
    exact (stays_singleton (h b List.mem_cons_self)).append
      (ih fun c hc => h c (List.mem_cons_of_mem b hc))

/-- A closed text: the scan stays, at any depth outside of quotes.  Whatever it opens it closes, and
it closes nothing that was open before. -/
def Closed (t : Bytes) : Prop := ∀ d, Stays (.plain d) t

theorem closed_nil : Closed [] := fun _ => stays_nil _

theorem Closed.append {t u : Bytes} (ht : Closed t) (hu : Closed u) : Closed (t ++ u) :=
  fun d => (ht d).append (hu d)

/-- A byte that is neither a bracket nor a quote. -/
def isNeutral (b : UInt8) : Bool := b != 34 && b != 123 && b != 91 && b != 125 && b != 93

theorem step_neutral {b : UInt8} (h : isNeutral b = true) (d : Int) :
    (Nest.plain d).step b = .plain d := by
  simp only [isNeutral, Bool.and_eq_true, bne_iff_ne] at h
  simp [Nest.step, Nest.plain, h]

theorem closed_of_neutral {t : Bytes} (h : ∀ b ∈ t, isNeutral b = true) : Closed t :=
  fun d => stays_of_forall fun b hb => step_neutral (h b hb) d

theorem closed_intercalate {sep : Bytes} (hsep : Closed sep) {texts : List Bytes}
    (h : ∀ t ∈ texts, Closed t) : Closed (sep.intercalate texts) := by
  induction texts with
  | nil => exact closed_nil
  | cons t ts ih =>
    have ht := h t List.mem_cons_self
    have hts := ih fun u hu => h u (List.mem_cons_of_mem t hu)
    cases ts with
    | nil =>
      rw [List.intercalate_singleton]
      exact ht
    | cons u us =>
      rw [List.intercalate_cons_cons]
      exact (ht.append hsep).append hts

/-! ## 3. Brackets

Between brackets everything is one level deeper, and a prefix that has not reached the closing
bracket is still there. -/

section

variable {o c : UInt8} {body : Bytes}

/-- A pair of brackets. -/
def IsPair (o c : UInt8) : Prop := (o = 123 ∧ c = 125) ∨ (o = 91 ∧ c = 93)

theorem step_open (h : IsPair o c) (d : Int) : (Nest.plain d).step o = .plain (d + 1) := by
  rcases h with ⟨rfl, -⟩ | ⟨rfl, -⟩ <;> rfl

theorem step_close (h : IsPair o c) (d : Int) : (Nest.plain (d + 1)).step c = .plain d := by
  have hd : d + 1 - 1 = d := by omega
  rcases h with ⟨-, rfl⟩ | ⟨-, rfl⟩
  · show (⟨d + 1 - 1, false, false⟩ : Nest) = _
    rw [hd, Nest.plain]
  · show (⟨d + 1 - 1, false, false⟩ : Nest) = _
    rw [hd, Nest.plain]

/-- A prefix that does not reach the closing bracket is inside. -/
theorem above_of_prefix (h : IsPair o c) (hbody : Closed body) {d : Int} {q : Bytes}
    (hq : q <+: o :: (body ++ [c])) (hne : q ≠ []) (hcut : q ≠ o :: (body ++ [c])) :
    d + 1 ≤ (scan (.plain d) q).depth := by
  rcases List.prefix_cons_iff.mp hq with rfl | ⟨r, rfl, hr⟩
  · exact absurd rfl hne
  · rw [scan_cons, step_open h]
    rcases List.prefix_concat_iff.mp hr with rfl | hr
    · exact absurd rfl hcut
    · exact (hbody (d + 1)).above r hr

/-- **A closed text between brackets is closed.** -/
theorem closed_brackets (h : IsPair o c) (hbody : Closed body) : Closed (o :: (body ++ [c])) := by
  intro d
  have hback : scan (.plain d) (o :: (body ++ [c])) = .plain d := by
    rw [scan_cons, step_open h, scan_append, (hbody (d + 1)).back, scan_cons, step_close h,
      scan_nil]
  refine ⟨hback, fun q hq => ?_⟩
  by_cases hne : q = []
  · rw [hne]
    exact Int.le_refl _
  · by_cases hcut : q = o :: (body ++ [c])
    · exact Int.le_of_eq (by rw [hcut, hback])
    · have habove := above_of_prefix h hbody (d := d) hq hne hcut
      have hd : (Nest.plain d).depth = d := rfl
      omega

/-- **And no proper prefix of it is complete**: the outermost bracket is closed by the last byte and
not before. -/
theorem not_complete_of_brackets (h : IsPair o c) (hbody : Closed body) {q : Bytes}
    (hq : q <+: o :: (body ++ [c])) (hcut : q ≠ o :: (body ++ [c])) : ¬ Complete q := by
  rintro ⟨hne, hback⟩
  have habove := above_of_prefix h hbody (d := 0) hq hne hcut
  rw [hback] at habove
  exact absurd habove (by decide)

end

/-! ## 4. Quotes

In a quoted text brackets do not count, and an escaped quote does not end it.  Each escape of the
printer is followed to its end. -/

/-- A byte that does not end the quoted text and does not escape the next. -/
def isQuiet (b : UInt8) : Bool := b != 34 && b != 92

/-- The forms of an escape: a quiet byte, or a backslash, a byte and quiet bytes. -/
def isEscape : Bytes → Bool
  | [b] => isQuiet b
  | 92 :: _ :: rest => rest.all isQuiet
  | _ => false

theorem isEscape_escape : ∀ n < 256, isEscape (escape (.ofNat n)) = true := by decide +kernel

theorem step_quiet {b : UInt8} (h : isQuiet b = true) (d : Int) :
    (Nest.inText d).step b = .inText d := by
  simp only [isQuiet, Bool.and_eq_true, bne_iff_ne] at h
  simp [Nest.step, Nest.inText, h]

theorem stays_isEscape {t : Bytes} (h : isEscape t = true) (d : Int) : Stays (.inText d) t := by
  unfold isEscape at h
  split at h
  · exact stays_singleton (step_quiet h d)
  · rename_i b rest
    have hpair : Stays (.inText d) [92, b] := by
      refine ⟨rfl, fun q hq => ?_⟩
      rcases List.prefix_cons_iff.mp hq with rfl | ⟨r, rfl, hr⟩
      · exact Int.le_refl _
      · rcases List.prefix_cons_iff.mp hr with rfl | ⟨u, rfl, hu⟩
        · exact Int.le_refl _
        · rw [List.prefix_nil.mp hu]
          exact Int.le_refl _
    exact hpair.append (stays_of_forall fun c hc => step_quiet (List.all_eq_true.mp h c hc) d)
  · cases h

theorem stays_escape (b : UInt8) (d : Int) : Stays (.inText d) (escape b) := by
  have h := isEscape_escape b.toNat b.toNat_lt
  rw [UInt8.ofNat_toNat] at h
  exact stays_isEscape h d

theorem stays_flatMap_escape (s : Bytes) (d : Int) : Stays (.inText d) (s.flatMap escape) := by
  induction s with
  | nil => exact stays_nil _
  | cons b s ih =>
    rw [List.flatMap_cons]
    exact (stays_escape b d).append ih

/-- **A quoted text is closed**, whatever is in it. -/
theorem closed_quote (s : Bytes) : Closed (quote s) := by
  intro d
  have hopen : (Nest.plain d).step 34 = .inText d := rfl
  have hclose : (Nest.inText d).step 34 = .plain d := rfl
  have hbody := stays_flatMap_escape s d
  refine ⟨by rw [quote, scan_cons, hopen, scan_append, hbody.back, scan_cons, hclose, scan_nil], ?_⟩
  intro q hq
  have hd : (Nest.plain d).depth = d := rfl
  rcases List.prefix_cons_iff.mp hq with rfl | ⟨r, rfl, hr⟩
  · exact Int.le_refl _
  · rw [scan_cons, hopen]
    rcases List.prefix_concat_iff.mp hr with rfl | hr
    · exact Int.le_of_eq (by rw [scan_append, hbody.back, scan_cons, hclose, scan_nil])
    · exact hbody.above r hr

/-! ## 5. Documents

By induction on the document, in any style whose separators have neither brackets nor quotes. -/

theorem closed_decimalInt (n : Int) : Closed (decimalInt n) := by
  have hdigit : ∀ b, isDigit b = true → isNeutral b = true := by
    have hall : ∀ n < 256, isDigit (.ofNat n) = true → isNeutral (.ofNat n) = true := by
      decide +kernel
    intro b
    have hb := hall b.toNat b.toNat_lt
    rwa [UInt8.ofNat_toNat] at hb
  have hdigits : Closed (decimal n.natAbs) :=
    closed_of_neutral fun b hb => hdigit b (isDigit_of_mem_decimal hb)
  have hminus : Closed (ascii "-") := closed_of_neutral (by decide +kernel)
  unfold decimalInt
  split
  · exact hminus.append hdigits
  · exact hdigits

section

variable {st : Style}

theorem Style.Separates.closed (hst : st.Separates) : Closed st.comma ∧ Closed st.colon := by
  have hblanks : ∀ n, ∀ b ∈ List.replicate n (32 : UInt8), isNeutral b = true := by
    intro n b hb
    rw [List.eq_of_mem_replicate hb]
    decide
  obtain ⟨n, hcomma⟩ := hst.comma
  obtain ⟨m, hcolon⟩ := hst.colon
  rw [hcomma, hcolon]
  exact ⟨closed_of_neutral (List.forall_mem_cons.mpr ⟨by decide, hblanks n⟩),
    closed_of_neutral (List.forall_mem_cons.mpr ⟨by decide, hblanks m⟩)⟩

mutual

/-- **A printed document is closed**: it opens and closes its own brackets and quotes, whatever the
brackets and quotes in its strings are.  By recursion on the document. -/
theorem closed_print (hst : st.Separates) : ∀ v : Json, v.integral = true → Closed (print st v)
  | .null, _ => closed_of_neutral (t := ascii "null") (by decide +kernel)
  | .bool true, _ => closed_of_neutral (t := ascii "true") (by decide +kernel)
  | .bool false, _ => closed_of_neutral (t := ascii "false") (by decide +kernel)
  | .int n, _ => closed_decimalInt n
  | .str s, _ => closed_quote s
  | .arr items, hv =>
    closed_brackets (.inr ⟨rfl, rfl⟩)
      (closed_intercalate hst.closed.1 (closed_printItems hst items hv))
  | .obj members, hv =>
    closed_brackets (.inl ⟨rfl, rfl⟩)
      (closed_intercalate hst.closed.1 (closed_printMembers hst members hv))

theorem closed_printItems (hst : st.Separates) : ∀ items : List Json, integralItems items = true →
    ∀ t ∈ printItems st items, Closed t
  | [], _, _, ht => absurd ht List.not_mem_nil
  | v :: vs, hv, t, ht => by
    rw [integralItems, Bool.and_eq_true] at hv
    rw [printItems, List.mem_cons] at ht
    rcases ht with rfl | ht
    · exact closed_print hst v hv.1
    · exact closed_printItems hst vs hv.2 t ht

theorem closed_printMembers (hst : st.Separates) : ∀ members : List (Bytes × Json),
    integralMembers members = true → ∀ t ∈ printMembers st members, Closed t
  | [], _, _, ht => absurd ht List.not_mem_nil
  | (name, v) :: ms, hv, t, ht => by
    rw [integralMembers, Bool.and_eq_true] at hv
    rw [printMembers, List.mem_cons] at ht
    rcases ht with rfl | ht
    · exact ((closed_quote name).append hst.closed.2).append (closed_print hst v hv.1)
    · exact closed_printMembers hst ms hv.2 t ht

end

/-- **What is left of an object that is cut off is not complete.** -/
theorem not_complete_of_prefix (hst : st.Separates) {members : List (Bytes × Json)}
    (hv : (Json.obj members).integral = true) {q : Bytes}
    (hq : q <+: print st (.obj members)) (hcut : q ≠ print st (.obj members)) : ¬ Complete q := by
  rw [print] at hq hcut
  exact not_complete_of_brackets (.inl ⟨rfl, rfl⟩)
    (closed_intercalate hst.closed.1 (closed_printMembers hst members hv)) hq hcut

theorem complete_print (hst : st.Separates) {members : List (Bytes × Json)}
    (hv : (Json.obj members).integral = true) : Complete (print st (.obj members)) :=
  ⟨by rw [print]; exact List.cons_ne_nil _ _, (closed_print hst _ hv 0).back⟩

end

end Json
