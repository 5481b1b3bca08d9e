/-
# The parts of a multipart body

What `ParseMultipartBody` does, part by part: where each part is found (`partAt`), where its content
begins and ends (`Part.contentEnd`), and what is put into `_files` (`Part.put`).  That is all the
function does (`parseMultipartBody_eq`).

`files_within_iff`: the content of a file is a segment of the body between the blank line of its
part and the next boundary, except when the boundary follows the blank line at once.  There the
`\r\n` before the boundary is the end of the blank line, the length of the content is -2, and the
content runs to the end of the body.

The condition of `files_within_iff` is one on the bytes of the body, at the place where a part was
found, and so it can be checked before a file is looked at.
-/
import OnlineJudge.Lib.HeaderBlock
import OnlineJudge.Net.HttpRequest

namespace OnlineJudge.Net

open ByteString

/-! ## 1. Parts

The loop of the source takes a part and puts its file in at once.  Here it is taken apart into the
list of parts and a fold over it, and the two are shown to be the same. -/

/-- The header of a part.  Reading it does not raise. -/
def headerOf (text : Bytes) : PartHeader :=
  match parsePartHeader text with
  | .ok header => header
  | .error _ => ⟨[], [], []⟩

theorem parsePartHeader_eq (text : Bytes) : parsePartHeader text = .ok (headerOf text) := by
  obtain ⟨header, hheader⟩ := parsePartHeader_ok text
  rw [headerOf, hheader]

/-- A part of a body: its header, `content_begin` and `next_boundary`. -/
structure Part where
  header : PartHeader
  contentBegin : Nat
  nextBoundary : Nat

namespace Part

def contentEnd (body : Bytes) (part : Part) : Nat :=
  if 2 ≤ part.nextBoundary ∧ (body.drop (part.nextBoundary - 2)).take 2 = crlf
  then part.nextBoundary - 2 else part.nextBoundary

/-- `substr(content_begin, content_end - content_begin)`. -/
def content (body : Bytes) (part : Part) : Bytes :=
  (body.drop part.contentBegin).take
    (((part.contentEnd body : Int) - part.contentBegin) % 2 ^ 64).toNat

/-- It has a name and a file name. -/
def isFile (part : Part) : Bool := !part.header.name.isEmpty && !part.header.filename.isEmpty

/-- The entry of a part in `_files`. -/
def put (body : Bytes) (files : StrMap File) (part : Part) : StrMap File :=
  if part.isFile then
    files.set part.header.name ⟨part.header.filename, part.content body, part.header.contentType⟩
  else files

end Part

/-- The part that a round finds behind the cursor, unless the loop ends there. -/
def partAt (boundary body : Bytes) (cursor : Nat) : Option Part :=
  match findFrom boundary body cursor with
  | none => none
  | some pos =>
    if (body.drop (pos + boundary.length)).take 2 = ascii "--" then none
    else
      let begin := if (body.drop (pos + boundary.length)).take 2 = crlf
        then pos + boundary.length + 2 else pos + boundary.length
      match findFrom crlfcrlf body begin with
      | none => none
      | some headerEnd =>
        (findFrom boundary body (headerEnd + 4)).map fun nextBoundary =>
          ⟨headerOf ((body.drop begin).take (headerEnd - begin)), headerEnd + 4, nextBoundary⟩

/-- A comparison with two bytes, with the bound in front of it that two bytes need. -/
theorem twoAre_eq {guard : Bool} {body : Bytes} {pos : Nat} {t : Bytes}
    (h : guard = true → pos ≤ body.length) :
    twoAre guard body pos t = .ok (guard && (body.drop pos).take 2 == t) := by
  unfold twoAre
  cases guard with
  | true => exact compareEq_eq 2 t (h rfl)
  | false => rfl

theorem addPart_eq {body : Bytes} (part : Part) (files : StrMap File)
    (hbegin : part.contentBegin ≤ body.length) (hnext : part.nextBoundary ≤ body.length) :
    addPart body part.header part.contentBegin part.nextBoundary files =
      .ok (part.put body files) := by
  have hend : (if (decide (2 ≤ part.nextBoundary) &&
      (body.drop (part.nextBoundary - 2)).take 2 == ascii "\r\n") = true
        then part.nextBoundary - 2 else part.nextBoundary) = part.contentEnd body := by
    rw [Part.contentEnd]
    refine if_congr ?_ rfl rfl
    rw [Bool.and_eq_true, decide_eq_true_eq, beq_iff_eq]
    rfl
  rw [addPart, twoAre_eq (fun _ => by omega)]
  simp only [bind, Except.bind, hend, substr_eq _ hbegin, pure, Except.pure]
  by_cases hfile : part.isFile = true
  · rw [Part.put, if_pos hfile]
    exact if_pos hfile
  · rw [Part.put, if_neg hfile]
    exact if_neg hfile

/-- **A round** finds a part and puts it in, or ends the loop; it does not raise. -/
theorem multipartRound_eq (boundary body : Bytes) (cursor : Nat) (files : StrMap File) :
    multipartRound boundary body cursor files =
      .ok (match partAt boundary body cursor with
        | none => (files, none)
        | some part => (part.put body files, some part.nextBoundary)) := by
  unfold multipartRound partAt
  cases hpos : findFrom boundary body cursor with
  | none => rfl
  | some pos =>
    obtain ⟨-, hend⟩ := findFrom_eq_some hpos
    -- two bytes that are `--` lie within the body
    have hfinal : (decide (pos + boundary.length + 2 ≤ body.length) &&
        (body.drop (pos + boundary.length)).take 2 == ascii "--") =
          decide ((body.drop (pos + boundary.length)).take 2 = ascii "--") := by
      rw [Bool.eq_iff_iff, Bool.and_eq_true, decide_eq_true_eq, decide_eq_true_eq, beq_iff_eq]
      refine ⟨And.right, fun htwo => ⟨?_, htwo⟩⟩
      have hlength := congrArg List.length htwo
      rw [List.length_take, List.length_drop] at hlength
      change min 2 (body.length - (pos + boundary.length)) = 2 at hlength
      omega
    have hnewline : compareEq body (pos + boundary.length) 2 (ascii "\r\n") =
        .ok (decide ((body.drop (pos + boundary.length)).take 2 = crlf)) := by
      rw [compareEq_eq 2 _ hend, beq_eq_decide]
      rfl
    simp only [twoAre_eq (fun _ => hend), hfinal, hnewline, bind, Except.bind, decide_eq_true_eq]
    by_cases hlast : (body.drop (pos + boundary.length)).take 2 = ascii "--"
    · simp only [if_pos hlast]
      rfl
    · simp only [if_neg hlast]
      generalize hbegin : (if (body.drop (pos + boundary.length)).take 2 = crlf
        then pos + boundary.length + 2 else pos + boundary.length) = begin
      change (match findFrom crlfcrlf body begin with | none => _ | some headerEnd => _) = _
      cases hheader : findFrom crlfcrlf body begin with
      | none => rfl
      | some headerEnd =>
        obtain ⟨hle, hheaderEnd⟩ := findFrom_eq_some hheader
        have hfour : headerEnd + 4 ≤ body.length := hheaderEnd
        simp only [substr_eq (headerEnd - begin) (by omega : begin ≤ body.length),
          parsePartHeader_eq]
        cases hnext : findFrom boundary body (headerEnd + 4) with
        | none => rfl
        | some nextBoundary =>
          obtain ⟨-, hnextEnd⟩ := findFrom_eq_some hnext
          have hadd := addPart_eq ⟨headerOf ((body.drop begin).take (headerEnd - begin)),
            headerEnd + 4, nextBoundary⟩ files hfour (by omega : nextBoundary ≤ body.length)
          simp only at hadd
          simp only [hadd]
          rfl

/-- Where a part is found: a boundary at or behind the cursor, a blank line behind the boundary,
the content behind the blank line, and the next boundary behind the content. -/
theorem partAt_found {boundary body : Bytes} {cursor : Nat} {part : Part}
    (h : partAt boundary body cursor = some part) :
    ∃ pos, findFrom boundary body cursor = some pos ∧
      pos + boundary.length + 4 ≤ part.contentBegin ∧
        crlfcrlf <+: body.drop (part.contentBegin - 4) ∧
          findFrom boundary body part.contentBegin = some part.nextBoundary := by
  unfold partAt at h
  cases hpos : findFrom boundary body cursor with
  | none => simp [hpos] at h
  | some pos =>
    refine ⟨pos, rfl, ?_⟩
    simp only [hpos] at h
    split at h
    · cases h
    · generalize hbegin : (if (body.drop (pos + boundary.length)).take 2 = crlf
        then pos + boundary.length + 2 else pos + boundary.length) = begin at h
      have hahead : pos + boundary.length ≤ begin := by
        rw [← hbegin]
        split <;> omega
      cases hheader : findFrom crlfcrlf body begin with
      | none => simp [hheader] at h
      | some headerEnd =>
        simp only [hheader, Option.map_eq_some_iff] at h
        obtain ⟨nextBoundary, hnext, rfl⟩ := h
        have hle := (findFrom_eq_some hheader).1
        refine ⟨by simp only; omega, ?_, hnext⟩
        exact (prefix_of_findFrom hheader).1

theorem partAt_eq_some {boundary body : Bytes} {cursor : Nat} {part : Part}
    (h : partAt boundary body cursor = some part) :
    cursor + 4 ≤ part.contentBegin ∧ crlfcrlf <+: body.drop (part.contentBegin - 4) ∧
      findFrom boundary body part.contentBegin = some part.nextBoundary := by
  obtain ⟨pos, hpos, hbegin, hblank, hnext⟩ := partAt_found h
  have hcursor := (findFrom_eq_some hpos).1
  exact ⟨by omega, hblank, hnext⟩

/-- The parts that the loop finds from a cursor on, in at most `n` rounds. -/
def partsFrom (boundary body : Bytes) : Nat → Nat → List Part
  | 0, _ => []
  | n + 1, cursor =>
    match partAt boundary body cursor with
    | none => []
    | some part => part :: partsFrom boundary body n part.nextBoundary

/-- **The loop** puts the parts into `_files` in their order. -/
theorem multipartLoop_eq (boundary body : Bytes) {n cursor : Nat} (files : StrMap File)
    (hcursor : cursor ≤ body.length) (hn : body.length < n + cursor) :
    multipartLoop boundary body n cursor files =
      .ok ((partsFrom boundary body n cursor).foldl (Part.put body) files) := by
  induction n generalizing cursor files with
  | zero => omega
  | succ n ih =>
    rw [multipartLoop, multipartRound_eq, partsFrom]
    cases hpart : partAt boundary body cursor with
    | none => rfl
    | some part =>
      obtain ⟨hbegin, -, hnext⟩ := partAt_eq_some hpart
      obtain ⟨hle, hend⟩ := findFrom_eq_some hnext
      exact ih (part.put body files) (by omega) (by omega)

/-- `boundary`: what separates the parts, as the content type names it. -/
def boundaryOf (contentType : Bytes) : Option Bytes :=
  (find (ascii "boundary=") contentType).map fun pos => ascii "--" ++ contentType.drop (pos + 9)

/-- The parts that `ParseMultipartBody` finds. -/
def parts (contentType body : Bytes) : List Part :=
  match boundaryOf contentType with
  | none => []
  | some boundary => partsFrom boundary body (body.length + 1) 0

/-- **`ParseMultipartBody`** puts the parts it finds into `_files`, and does nothing else. -/
theorem parseMultipartBody_eq (req : HttpRequest) :
    parseMultipartBody req = .ok { req with
      files := (parts (req.getHeader (ascii "Content-Type")) req.body).foldl (Part.put req.body)
        req.files } := by
  unfold parseMultipartBody parts boundaryOf
  cases hpos : find (ascii "boundary=") (req.getHeader (ascii "Content-Type")) with
  | none => rfl
  | some pos =>
    have hlen := (find_eq_some hpos).2.length_le
    have hle := (find_eq_some hpos).1
    have hnine : (ascii "boundary=").length = 9 := rfl
    rw [List.length_drop, hnine] at hlen
    have hname : substrFrom (req.getHeader (ascii "Content-Type")) (pos + 9) =
        .ok ((req.getHeader (ascii "Content-Type")).drop (pos + 9)) := substrFrom_eq (by omega)
    have hloop := multipartLoop_eq
      (ascii "--" ++ (req.getHeader (ascii "Content-Type")).drop (pos + 9)) req.body
      (n := req.body.length + 1) req.files (Nat.zero_le _) (by omega)
    simp only [hname, raising_ok, bind, Except.bind, hloop]
    rfl

/-! ## 2. A file stays within its part

The end of the content is two bytes in front of the next boundary if these are a line end.  The
comparison does not ask whether they lie in front of the content. -/

/-- The content is a segment of the body.  It starts behind the blank line of its part, ends at or
before the next boundary, and has no boundary in it; its length is no negative number. -/
structure Part.Within (boundary body : Bytes) (part : Part) : Prop where
  blankLine : 4 ≤ part.contentBegin ∧ crlfcrlf <+: body.drop (part.contentBegin - 4)
  next : findFrom boundary body part.contentBegin = some part.nextBoundary
  length : part.contentBegin ≤ part.contentEnd body
  segment : ∃ stop, part.contentBegin ≤ stop ∧ stop ≤ part.nextBoundary ∧
    part.content body = (body.take stop).drop part.contentBegin
  clean : find boundary (part.content body) = none

/-- Where the blank line ends, a part has a line end in front of its content. -/
theorem bytes_before_content {body : Bytes} {contentBegin : Nat} (hfour : 4 ≤ contentBegin)
    (h : crlfcrlf <+: body.drop (contentBegin - 4)) :
    (body.drop (contentBegin - 2)).take 2 = crlf ∧
      (body.drop (contentBegin - 1)).take 1 = [10] := by
  obtain ⟨rest, hrest⟩ := h
  have htwo : body.drop (contentBegin - 2) = [13, 10] ++ rest := by
    have hsplit : contentBegin - 2 = (contentBegin - 4) + 2 := by omega
    rw [hsplit, ← List.drop_drop, ← hrest]
    rfl
  have hone : body.drop (contentBegin - 1) = [10] ++ rest := by
    have hsplit : contentBegin - 1 = (contentBegin - 4) + 3 := by omega
    rw [hsplit, ← List.drop_drop, ← hrest]
    rfl
  rw [htwo, hone]
  exact ⟨rfl, rfl⟩

/-- A boundary right behind the blank line shares its line end. -/
theorem Part.contentEnd_lt {body : Bytes} {part : Part} (hfour : 4 ≤ part.contentBegin)
    (hblank : crlfcrlf <+: body.drop (part.contentBegin - 4))
    (hnext : part.nextBoundary = part.contentBegin) : part.contentEnd body < part.contentBegin := by
  have hline := (bytes_before_content hfour hblank).1
  rw [Part.contentEnd, hnext, if_pos ⟨by omega, hline⟩]
  omega

/-- Anywhere else there is room for the line end in front of the boundary. -/
theorem Part.le_contentEnd {body : Bytes} {part : Part} (hfour : 4 ≤ part.contentBegin)
    (hblank : crlfcrlf <+: body.drop (part.contentBegin - 4))
    (hnext : part.contentBegin < part.nextBoundary) :
    part.contentBegin ≤ part.contentEnd body ∧ part.contentEnd body ≤ part.nextBoundary := by
  rw [Part.contentEnd]
  split
  · rename_i hline
    have hne : part.nextBoundary ≠ part.contentBegin + 1 := by
      intro heq
      -- the line end would begin with the last byte of the blank line
      have hten := (bytes_before_content hfour hblank).2
      have hthirteen : (body.drop (part.contentBegin - 1)).take 2 = [13, 10] := by
        have hline' := hline.2
        rw [heq] at hline'
        exact hline'
      have hone := congrArg (List.take 1) hthirteen
      rw [List.take_take] at hone
      exact absurd (hten.symm.trans hone) (by decide)
    omega
  · omega

/-- **When the content of a part stays within it**: exactly when no boundary follows the blank line
at once. -/
theorem Part.within_iff {boundary body : Bytes} {cursor : Nat} {part : Part} (hne : boundary ≠ [])
    (h : partAt boundary body cursor = some part) :
    part.Within boundary body ↔ ¬ boundary <+: body.drop part.contentBegin := by
  obtain ⟨hbegin, hblank, hnext⟩ := partAt_eq_some h
  obtain ⟨hfound, hfirst⟩ := prefix_of_findFrom hnext
  obtain ⟨hle, hend⟩ := findFrom_eq_some hnext
  constructor
  · intro hwithin hprefix
    have heq : part.nextBoundary = part.contentBegin := by
      by_contra hlt
      exact hfirst part.contentBegin (le_refl _) (by omega) hprefix
    have hlt := Part.contentEnd_lt hwithin.blankLine.1 hblank heq
    have hlength := hwithin.length
    omega
  · intro hnot
    have hlt : part.contentBegin < part.nextBoundary := by
      refine lt_of_le_of_ne hle fun heq => ?_
      exact hnot (heq ▸ hfound)
    obtain ⟨hlength, hstop⟩ := Part.le_contentEnd (by omega) hblank hlt
    have hcount : (((part.contentEnd body : Int) - part.contentBegin) % 2 ^ 64).toNat ≤
        part.contentEnd body - part.contentBegin := by
      omega
    generalize hk : (((part.contentEnd body : Int) - part.contentBegin) % 2 ^ 64).toNat = k
      at hcount
    have hcontent : part.content body = (body.drop part.contentBegin).take k := by
      rw [Part.content, hk]
    refine ⟨⟨by omega, hblank⟩, hnext, hlength, ⟨part.contentBegin + k, by omega, by omega, ?_⟩, ?_⟩
    · rw [hcontent, List.drop_take, Nat.add_sub_cancel_left]
    · cases hfind : find boundary (part.content body) with
      | none => rfl
      | some j =>
        obtain ⟨-, hat⟩ := find_eq_some hfind
        have hpos : 0 < boundary.length := List.length_pos_iff.mpr hne
        have hlen := hat.length_le
        rw [hcontent, List.drop_take, List.length_take] at hlen
        rw [hcontent, List.drop_take, List.drop_drop] at hat
        exact absurd (hat.trans (List.take_prefix _ _))
          (hfirst (part.contentBegin + j) (by omega) (by omega))

/-- Every part is found by some round. -/
theorem exists_partAt_of_mem {boundary body : Bytes} {n cursor : Nat} {part : Part}
    (h : part ∈ partsFrom boundary body n cursor) : ∃ c, partAt boundary body c = some part := by
  induction n generalizing cursor with
  | zero => cases h
  | succ n ih =>
    rw [partsFrom] at h
    cases hpart : partAt boundary body cursor with
    | none => simp [hpart] at h
    | some first =>
      simp only [hpart, List.mem_cons] at h
      rcases h with rfl | h
      · exact ⟨cursor, hpart⟩
      · exact ih h

theorem boundaryOf_ne_nil {contentType boundary : Bytes}
    (h : boundaryOf contentType = some boundary) : boundary ≠ [] := by
  obtain ⟨pos, -, rfl⟩ := Option.map_eq_some_iff.mp h
  exact List.cons_ne_nil _ _

/-- **When every extracted file stays within its part.**  For any body and content type,
`ParseMultipartBody` puts the parts it finds into `_files`, and the content of each file among
them lies between the blank line and the next boundary exactly when no boundary follows the blank
line at once. -/
theorem files_within_iff (req : HttpRequest) :
    parseMultipartBody req = .ok { req with
      files := (parts (req.getHeader (ascii "Content-Type")) req.body).foldl (Part.put req.body)
        req.files } ∧
    ∀ boundary, boundaryOf (req.getHeader (ascii "Content-Type")) = some boundary →
      ((∀ part ∈ parts (req.getHeader (ascii "Content-Type")) req.body, part.isFile = true →
          part.Within boundary req.body) ↔
        ∀ part ∈ parts (req.getHeader (ascii "Content-Type")) req.body, part.isFile = true →
          ¬ boundary <+: req.body.drop part.contentBegin) := by
  refine ⟨parseMultipartBody_eq req, fun boundary hboundary => ?_⟩
  refine forall₂_congr fun part hpart => imp_congr_right fun _ => ?_
  rw [parts, hboundary] at hpart
  obtain ⟨cursor, hat⟩ := exists_partAt_of_mem hpart
  exact Part.within_iff (boundaryOf_ne_nil hboundary) hat

/-- A file without content, whose blank line is followed by the last boundary. -/
def emptyFileRequest : HttpRequest where
  method := ascii "POST"
  path := ascii "/"
  version := ascii "HTTP/1.1"
  body := ascii ("--B\r\nContent-Disposition: form-data; name=\"f\"; filename=\"x\"\r\n\r\n" ++
    "--B--\r\n")
  headers := StrMap.empty.insert (ascii "Content-Type") (ascii "multipart/form-data; boundary=B")
  params := .empty
  files := .empty

theorem files_within_iff_emptyFile :
    (∀ part ∈ parts (emptyFileRequest.getHeader (ascii "Content-Type")) emptyFileRequest.body,
      part.isFile = true → part.Within (ascii "--B") emptyFileRequest.body) ↔
    ∀ part ∈ parts (emptyFileRequest.getHeader (ascii "Content-Type")) emptyFileRequest.body,
      part.isFile = true → ¬ ascii "--B" <+: emptyFileRequest.body.drop part.contentBegin :=
  (files_within_iff emptyFileRequest).2 (ascii "--B") (by decide)

/-- Its content is the last boundary: the length wraps around, and `substr` takes what there is. -/
theorem files_not_within :
    ¬ ∀ (req : HttpRequest) (boundary : Bytes),
      boundaryOf (req.getHeader (ascii "Content-Type")) = some boundary →
        ∀ part ∈ parts (req.getHeader (ascii "Content-Type")) req.body, part.isFile = true →
          part.Within boundary req.body := by
  intro h
  have hbad : ∃ part ∈ parts (emptyFileRequest.getHeader (ascii "Content-Type"))
      emptyFileRequest.body, part.isFile = true ∧
        find (ascii "--B") (part.content emptyFileRequest.body) ≠ none := by decide
  obtain ⟨part, hpart, hfile, hfind⟩ := hbad
  exact hfind (h emptyFileRequest (ascii "--B") (by decide) part hpart hfile).clean

end OnlineJudge.Net
