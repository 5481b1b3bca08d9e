/-
# HTML escaping, in the pages and in the server

`escapeHtml` (`web/js/utils.js`) escapes what the pages of the browser show, `HtmlEscape`
(`server.cpp`) what the error pages of the server show.  Both replace one character after the other
in the whole text, so that each pass reads what the passes before it have written.

The server's passes are followed here round by round; `htmlEscape` of `Server.Listen` is what they
leave, and the error pages use that (`htmlEscapeRounds_eq`).

`escaping_spec`: for every string the result is the string with each special character replaced by
its entity, nothing special is left in it but what begins an entity, and reading the entities gives
the string back.

The order of the replacements is what makes this true: the ampersand comes first, so that no pass
finds an entity that another one has written and takes its ampersand for one of the text.
-/
import OnlineJudge.Lib.Entities
import OnlineJudge.Server.Listen

namespace OnlineJudge.Web

open ByteString Entities

/-! ## 1. `escapeHtml` of the pages

A string of the browser is its UTF-16 code units, and the special characters are single units.
`replaceAll` scans from the left and does not look at what it has put in. -/

/-- The code units of a string of the browser. -/
abbrev JsString := List UInt16

/-- A literal. -/
def js (s : String) : JsString := s.toList.map fun c => c.toNat.toUInt16

/-- The scan of `replaceAll` for a search value that is not empty.  The first `skip` units belong
to an occurrence that has been replaced. -/
def replaceFrom (searchValue replaceValue : JsString) : Nat → JsString → JsString
  | _, [] => []
  | skip + 1, _ :: s => replaceFrom searchValue replaceValue skip s
  | 0, c :: s =>
    if searchValue.isPrefixOf (c :: s) then
      replaceValue ++ replaceFrom searchValue replaceValue (searchValue.length - 1) s
    else c :: replaceFrom searchValue replaceValue 0 s

/-- `s.replaceAll(searchValue, replaceValue)`, for a replacement without a `$`. -/
def replaceAll (searchValue replaceValue s : JsString) : JsString :=
  if searchValue.isEmpty then replaceValue ++ s.flatMap fun c => c :: replaceValue
  else replaceFrom searchValue replaceValue 0 s

/-- `escapeHtml`.  Of the strings only the empty one makes `text || ""` take its right side. -/
def escapeHtml (text : JsString) : JsString :=
  (if text.isEmpty then js "" else text)
    |> replaceAll (js "&") (js "&amp;")
    |> replaceAll (js "<") (js "&lt;")
    |> replaceAll (js ">") (js "&gt;")
    |> replaceAll (js "\"") (js "&quot;")
    |> replaceAll (js "'") (js "&#39;")

/-- The five special characters of the pages. -/
def jsTable : Table UInt16 where
  amp := 38
  entries :=
    [(38, js "&amp;"), (60, js "&lt;"), (62, js "&gt;"), (34, js "&quot;"), (39, js "&#39;")]
  amp_first := rfl
  keys_nodup := by decide
  begins := by decide
  bodies := by decide
  prefix_free := by decide

/-- Replacing a single unit is a pass. -/
theorem replaceAll_singleton (c : UInt16) (entity s : JsString) :
    replaceAll [c] entity s = onePass (c, entity) s := by
  rw [replaceAll, if_neg (by simp)]
  induction s with
  | nil => rfl
  | cons x s ih =>
    have hhead : [c].isPrefixOf (x :: s) = true ↔ x = c := by
      rw [List.isPrefixOf_iff_prefix, List.cons_prefix_cons]
      exact ⟨fun h => h.1.symm, fun h => ⟨h.symm, List.nil_prefix⟩⟩
    rw [replaceFrom, onePass, writeAll_cons, write, ← onePass]
    by_cases hx : x = c
    · rw [if_pos (hhead.mpr hx), if_pos hx, ← ih]
      rfl
    · rw [if_neg (fun h => hx (hhead.mp h)), if_neg hx, ← ih]
      rfl

/-- **`escapeHtml` is a character map**, of five characters. -/
theorem escapeHtml_eq (text : JsString) : escapeHtml text = jsTable.escape text := by
  have htext : (if text.isEmpty then js "" else text) = text := by
    cases text <;> rfl
  rw [← jsTable.chain_eq_escape, escapeHtml, htext]
  change replaceAll [39] _ (replaceAll [34] _ (replaceAll [62] _ (replaceAll [60] _
    (replaceAll [38] _ text)))) = _
  simp only [replaceAll_singleton]
  rfl

end OnlineJudge.Web

/-! ## 2. `HtmlEscape` of the server

The same with bytes, and with a loop over `find` and `replace` that moves its cursor behind what it
has written. -/

namespace OnlineJudge.Server

open ByteString Entities Web

/-- The loop of `replace_all` for at most `n` rounds; `none` if it has not ended by then. -/
def replaceLoop (from' to' : Bytes) : Nat → Bytes → Nat → Option Bytes
  | 0, _, _ => none
  | n + 1, s, pos =>
    match findFrom from' s pos with
    | none => some s
    | some pos =>
      replaceLoop from' to' n (s.take pos ++ (to' ++ s.drop (pos + from'.length)))
        (pos + to'.length)

/-- `replace_all`.  There are no more rounds than bytes, plus one. -/
def replaceAll (s from' to' : Bytes) : Option Bytes := replaceLoop from' to' (s.length + 1) s 0

/-- `HtmlEscape`, round by round. -/
def htmlEscapeRounds (text : Bytes) : Option Bytes := do
  let text ← replaceAll text (ascii "&") (ascii "&amp;")
  let text ← replaceAll text (ascii "<") (ascii "&lt;")
  let text ← replaceAll text (ascii ">") (ascii "&gt;")
  replaceAll text (ascii "\"") (ascii "&quot;")

/-- The four special characters of the server. -/
def htmlTable : Table UInt8 where
  amp := 38
  entries :=
    [(38, ascii "&amp;"), (60, ascii "&lt;"), (62, ascii "&gt;"), (34, ascii "&quot;")]
  amp_first := rfl
  keys_nodup := by decide
  begins := by decide
  bodies := by decide
  prefix_free := by decide

/-- A pass at the first special character. -/
theorem onePass_first {c : UInt8} {to' pre post : Bytes} (hpre : c ∉ pre) :
    onePass (c, to') (pre ++ c :: post) = pre ++ (to' ++ onePass (c, to') post) := by
  rw [onePass, writeAll_append, ← onePass, onePass_of_not_mem hpre, writeAll_cons, write,
    if_pos rfl]
  rfl

/-- The loop behind what it has written: the cursor stands behind the last replacement, so that the
loop does not see it. -/
theorem replaceLoop_singleton (c : UInt8) (to' : Bytes) {n : Nat} (written s : Bytes)
    (hn : s.length < n) :
    replaceLoop [c] to' n (written ++ s) written.length = some (written ++ onePass (c, to') s) := by
  induction n generalizing written s with
  | zero => omega
  | succ n ih =>
    rw [replaceLoop, findFrom_append]
    rcases not_mem_or_first c s with hnone | ⟨pre, post, rfl, hpre⟩
    · rw [find_singleton_of_not_mem hnone, onePass_of_not_mem hnone]
      rfl
    · have hlen : post.length < n := by
        rw [List.length_append, List.length_cons] at hn
        omega
      have hpos : pre.length + written.length = (written ++ pre).length := by
        rw [List.length_append, Nat.add_comm]
      have hsplit : written ++ (pre ++ c :: post) = (written ++ pre) ++ ([c] ++ post) := by
        simp
      simp only [find_singleton_append hpre, Option.map_some, hpos, hsplit, List.take_left]
      rw [← List.drop_drop, List.drop_left, List.drop_left, onePass_first hpre,
        ← List.length_append, ← List.append_assoc, ih ((written ++ pre) ++ to') post hlen]
      simp only [List.append_assoc]

/-- Replacing a single byte ends, and is a pass. -/
theorem replaceAll_singleton (s to' : Bytes) (c : UInt8) :
    replaceAll s [c] to' = some (onePass (c, to') s) :=
  replaceLoop_singleton c to' [] s (Nat.lt_succ_self s.length)

/-- The same for the loop that carries on with the rest of the text. -/
theorem judgeReplaceLoop_singleton (c : UInt8) (to' : Bytes) {n : Nat} (s : Bytes)
    (hn : s.length < n) :
    Judge.JudgeRequest.replaceLoop [c] to' n s = onePass (c, to') s := by
  induction n generalizing s with
  | zero => omega
  | succ n ih =>
    rw [Judge.JudgeRequest.replaceLoop]
    rcases not_mem_or_first c s with hnone | ⟨pre, post, rfl, hpre⟩
    · rw [find_singleton_of_not_mem hnone, onePass_of_not_mem hnone]
    · have hlen : post.length < n := by
        rw [List.length_append, List.length_cons] at hn
        omega
      simp only [find_singleton_append hpre, List.take_left]
      rw [← List.drop_drop, List.drop_left, onePass_first hpre]
      exact congrArg (fun rest => pre ++ (to' ++ rest)) (ih post hlen)

/-- **`HtmlEscape` is a character map**, of four characters. -/
theorem htmlEscape_eq (text : Bytes) : htmlEscape text = htmlTable.escape text := by
  have hpass : ∀ (s to' : Bytes) (c : UInt8),
      Judge.JudgeRequest.replaceAll s [c] to' = onePass (c, to') s :=
    fun s to' c => judgeReplaceLoop_singleton c to' s (Nat.lt_succ_self s.length)
  rw [← htmlTable.chain_eq_escape, htmlEscape]
  change Judge.JudgeRequest.replaceAll (Judge.JudgeRequest.replaceAll
    (Judge.JudgeRequest.replaceAll (Judge.JudgeRequest.replaceAll text [38] _) [60] _) [62] _)
      [34] _ = _
  simp only [hpass]
  rfl

theorem htmlEscapeRounds_eq (text : Bytes) : htmlEscapeRounds text = some (htmlEscape text) := by
  rw [htmlEscape_eq, ← htmlTable.chain_eq_escape, htmlEscapeRounds]
  change (replaceAll text [38] _).bind (fun text => (replaceAll text [60] _).bind fun text =>
    (replaceAll text [62] _).bind fun text => replaceAll text [34] _) = _
  simp only [replaceAll_singleton, Option.bind_some]
  rfl

/-! ## 3. Both

What is left is a fact about passes and tables, which is in the library.  The two tables differ in
the apostrophe only. -/

/-- **HTML escaping is a single-pass character map**, in the pages and in the server: each special
character is replaced by its entity, none is left but what begins an entity, and reading the
entities gives the string back. -/
theorem escaping_spec :
    (∀ text : JsString, escapeHtml text = jsTable.escape text ∧
      jsTable.Clean (escapeHtml text) ∧ jsTable.decode (escapeHtml text) = text) ∧
    ∀ text : Bytes, htmlEscapeRounds text = some (htmlEscape text) ∧
      htmlEscape text = htmlTable.escape text ∧
        htmlTable.Clean (htmlEscape text) ∧ htmlTable.decode (htmlEscape text) = text := by
  constructor
  · intro text
    rw [escapeHtml_eq]
    exact ⟨rfl, jsTable.escape_clean text, jsTable.decode_escape text⟩
  · intro text
    refine ⟨htmlEscapeRounds_eq text, ?_⟩
    rw [htmlEscape_eq]
    exact ⟨rfl, htmlTable.escape_clean text, htmlTable.decode_escape text⟩

example : htmlEscape (ascii "a<b & \"c\"") = ascii "a&lt;b &amp; &quot;c&quot;" := by decide

end OnlineJudge.Server
