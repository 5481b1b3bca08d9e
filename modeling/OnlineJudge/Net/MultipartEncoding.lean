/-
# Multipart decoding undoes encoding

A client that uploads files writes each of them as a part: the boundary, a `Content-Disposition`
line with the name and the file name, perhaps a `Content-Type` line, a blank line and the content
(`encodePart`).  `parseMultipartBody_encodeBody`: whatever the contents are, as long as the boundary
does not occur in them, `ParseMultipartBody` finds each file as it was written, and the last one
where two have the same name.

The contents may hold line ends, blank lines and dashes.  A boundary has no line end in it, so that
it cannot begin in a content and end behind it (`find_append_cons`).

The encoding is the standard one, with no preamble and with the last boundary closed by two dashes.
Nothing is said of what other clients may send: what the parser makes of any body is in
`Net.Multipart`.
-/
import OnlineJudge.Net.Multipart

namespace OnlineJudge.Net

open ByteString

/-! ## 1. The encoding

The conditions on a file are fields: the names stand between quotes and have neither a quote nor a
semicolon in them, the type is not padded, and the content is free of the boundary. -/

/-- A boundary token: some text without a line end. -/
structure BoundaryToken where
  token : Bytes
  ne_nil : token ≠ []
  inLine : InLine token

/-- What separates the parts. -/
def BoundaryToken.delimiter (b : BoundaryToken) : Bytes := ascii "--" ++ b.token

/-- Text that stands between quotes. -/
structure Quotable (s : Bytes) : Prop where
  ne_nil : s ≠ []
  no_quote : 34 ∉ s
  no_semicolon : 59 ∉ s
  inLine : InLine s

/-- No blanks and tabs at the ends, where the parser would strip them off. -/
def Unpadded (s : Bytes) : Prop :=
  (∀ c ∈ s.head?, c ≠ 32 ∧ c ≠ 9) ∧ ∀ c ∈ s.getLast?, c ≠ 32 ∧ c ≠ 9

/-- A file that is uploaded with a boundary that does not occur in it. -/
structure FilePart (b : BoundaryToken) where
  name : Bytes
  filename : Bytes
  contentType : Option Bytes
  content : Bytes
  name_quotable : Quotable name
  filename_quotable : Quotable filename
  contentType_ok : ∀ t ∈ contentType, InLine t ∧ Unpadded t
  content_free : find b.delimiter content = none

variable {b : BoundaryToken}

namespace FilePart

/-- What `_files` should hold for it. -/
def file (part : FilePart b) : File := ⟨part.filename, part.content, part.contentType.getD []⟩

/-- The `Content-Disposition` line. -/
def disposition (part : FilePart b) : Bytes :=
  ascii "Content-Disposition: form-data; name=\"" ++ part.name ++ ascii "\"; filename=\"" ++
    part.filename ++ ascii "\""

/-- The header lines of its part. -/
def lines (part : FilePart b) : List Bytes :=
  part.disposition :: (part.contentType.map (ascii "Content-Type: " ++ ·)).toList

end FilePart

/-- One part. -/
def encodePart (part : FilePart b) : Bytes :=
  b.delimiter ++ crlf ++ joinLines part.lines ++ crlfcrlf ++ part.content ++ crlf

/-- The standard form of a multipart body. -/
def encodeBody (b : BoundaryToken) : List (FilePart b) → Bytes
  | [] => b.delimiter ++ ascii "--" ++ crlf
  | part :: parts => encodePart part ++ encodeBody b parts

/-! ## 2. The header of a part

Line by line and token by token, the header is read back.  Quotes and blanks that the parser strips
are those that the encoding has put there. -/

/-- A token without blanks at its ends, behind one blank. -/
theorem trim_blank {s : Bytes} (h : Unpadded s) : trim (32 :: s) = s ∧ trim s = s := by
  have hfront : ∀ {t : Bytes}, (∀ c ∈ t.head?, c ≠ 32 ∧ c ≠ 9) →
      t.dropWhile (fun c => c == 32 || c == 9) = t := by
    intro t ht
    cases t with
    | nil => rfl
    | cons c t =>
      obtain ⟨hblank, htab⟩ := ht c rfl
      rw [List.dropWhile_cons_of_neg (by simp [hblank, htab])]
  have hback : ((s.reverse).dropWhile fun c => c == 32 || c == 9).reverse = s := by
    rw [hfront (by simpa using h.2), List.reverse_reverse]
  constructor
  · rw [trim, List.dropWhile_cons_of_pos rfl, hfront h.1, hback]
  · rw [trim, hfront h.1, hback]

theorem unpadded_quoted (key : String) (s : Bytes) (hkey : ∀ c ∈ (ascii key).head?, c ≠ 32 ∧ c ≠ 9)
    (hne : ascii key ≠ []) : Unpadded (ascii key ++ 34 :: (s ++ [34])) := by
  constructor
  · rw [List.head?_append_of_ne_nil _ hne]
    exact hkey
  · intro c hc
    have hlast : (ascii key ++ 34 :: (s ++ [34])).getLast? = some 34 := by
      rw [← List.cons_append, ← List.append_assoc, List.getLast?_append]
      rfl
    rw [hlast] at hc
    obtain rfl := Option.some.inj hc
    decide

theorem strip_quotes (s : Bytes) : popBack 34 (popFront 34 (34 :: (s ++ [34]))) = s := by
  have hfront : popFront 34 (34 :: (s ++ [34])) = s ++ [34] := if_pos rfl
  rw [hfront, popBack, if_pos (by simp), List.dropLast_concat]

theorem parseToken_name (header : PartHeader) (s : Bytes) :
    parseToken header (ascii "name=" ++ 34 :: (s ++ [34])) = .ok { header with name := s } := by
  have hsub : substrFrom (ascii "name=" ++ 34 :: (s ++ [34])) 5 = .ok (34 :: (s ++ [34])) :=
    substrFrom_eq (Nat.le_add_left 5 _)
  have hprefix : (ascii "name=").isPrefixOf (ascii "name=" ++ 34 :: (s ++ [34])) = true :=
    List.isPrefixOf_iff_prefix.mpr (List.prefix_append _ _)
  rw [parseToken, if_pos hprefix, hsub]
  exact congrArg (fun name => Except.ok { header with name := name }) (strip_quotes s)

theorem parseToken_filename (header : PartHeader) (s : Bytes) :
    parseToken header (ascii "filename=" ++ 34 :: (s ++ [34])) =
      .ok { header with filename := s } := by
  have hsub : substrFrom (ascii "filename=" ++ 34 :: (s ++ [34])) 9 = .ok (34 :: (s ++ [34])) :=
    substrFrom_eq (Nat.le_add_left 9 _)
  have hname : ¬ (ascii "name=").isPrefixOf (ascii "filename=" ++ 34 :: (s ++ [34])) = true := by
    have hfirst : ascii "filename=" ++ 34 :: (s ++ [34]) =
        102 :: (ascii "ilename=" ++ 34 :: (s ++ [34])) := rfl
    have hn : ascii "name=" = 110 :: ascii "ame=" := rfl
    rw [hfirst, hn, List.isPrefixOf_cons_cons]
    simp
  have hprefix : (ascii "filename=").isPrefixOf (ascii "filename=" ++ 34 :: (s ++ [34])) = true :=
    List.isPrefixOf_iff_prefix.mpr (List.prefix_append _ _)
  rw [parseToken, if_neg hname, if_pos hprefix, hsub]
  exact congrArg (fun name => Except.ok { header with filename := name }) (strip_quotes s)

/-- The three tokens of the `Content-Disposition` value. -/
theorem parsePartField_disposition (header : PartHeader) {name filename : Bytes}
    (hname : 59 ∉ name) (hfilename : 59 ∉ filename) :
    parsePartField header (ascii "content-disposition")
      (ascii "form-data; name=\"" ++ name ++ ascii "\"; filename=\"" ++ filename ++ ascii "\"") =
      .ok { header with name := name, filename := filename } := by
  have hvalue : ascii "form-data; name=\"" ++ name ++ ascii "\"; filename=\"" ++ filename ++
      ascii "\"" = ascii "form-data" ++ 59 :: ((32 :: (ascii "name=" ++ 34 :: (name ++ [34]))) ++
        59 :: (32 :: (ascii "filename=" ++ 34 :: (filename ++ [34])))) := by
    simp [ascii]
  have hfirst : (59 : UInt8) ∉ ascii "form-data" := by decide
  have hsecond : (59 : UInt8) ∉ 32 :: (ascii "name=" ++ 34 :: (name ++ [34])) := by
    simp [ascii, hname]
  have hthird : (59 : UInt8) ∉ 32 :: (ascii "filename=" ++ 34 :: (filename ++ [34])) := by
    simp [ascii, hfilename]
  have htokens : getlines 59 (ascii "form-data; name=\"" ++ name ++ ascii "\"; filename=\"" ++
      filename ++ ascii "\"") = [ascii "form-data", 32 :: (ascii "name=" ++ 34 :: (name ++ [34])),
        32 :: (ascii "filename=" ++ 34 :: (filename ++ [34]))] := by
    rw [hvalue, getlines_cons hfirst, getlines_cons hsecond,
      getlines_single hthird (List.cons_ne_nil _ _)]
  have hform : parseToken header (trim (ascii "form-data")) = .ok header := rfl
  have hname' :=
    (trim_blank (unpadded_quoted "name=" name (by decide +kernel) (by decide +kernel))).1
  have hfilename' :=
    (trim_blank (unpadded_quoted "filename=" filename (by decide +kernel) (by decide +kernel))).1
  rw [parsePartField, if_pos rfl, htokens, List.foldlM_cons, hform]
  simp only [bind, Except.bind, List.foldlM_cons, hname', hfilename', parseToken_name,
    parseToken_filename, List.foldlM_nil]
  rfl

/-- A header line is cut at its first colon. -/
theorem parsePartLine_eq (header : PartHeader) {key val : Bytes} (hkey : 58 ∉ key) :
    parsePartLine header (key ++ 58 :: val) =
      parsePartField header ((trim key).map toLower) (trim val) := by
  have hfind : find (ascii ":") (key ++ 58 :: val) = some key.length :=
    find_singleton_append hkey val
  rw [parsePartLine, cutAt_eq, hfind]
  simp only [Option.map_some, bind, Except.bind, List.take_left]
  rw [show (ascii ":").length = 1 from rfl, ← List.drop_drop, List.drop_left]
  rfl

theorem parsePartLine_disposition (header : PartHeader) (part : FilePart b) :
    parsePartLine header part.disposition =
      .ok { header with name := part.name, filename := part.filename } := by
  have hline : part.disposition = ascii "Content-Disposition" ++ 58 :: (32 ::
      (ascii "form-data; name=\"" ++ part.name ++ ascii "\"; filename=\"" ++ part.filename ++
        ascii "\"")) := by
    simp [FilePart.disposition, ascii]
  have hquoted : ascii "form-data; name=\"" ++ part.name ++ ascii "\"; filename=\"" ++
      part.filename ++ ascii "\"" = ascii "form-data; name=" ++ 34 ::
        ((part.name ++ ascii "\"; filename=\"" ++ part.filename) ++ [34]) := by
    simp [ascii]
  have hunpadded : Unpadded (ascii "form-data; name=\"" ++ part.name ++ ascii "\"; filename=\"" ++
      part.filename ++ ascii "\"") := by
    rw [hquoted]
    exact unpadded_quoted "form-data; name=" _ (by decide +kernel) (by decide +kernel)
  have hkey : (trim (ascii "Content-Disposition")).map toLower = ascii "content-disposition" := by
    decide
  rw [hline, parsePartLine_eq header (by decide), (trim_blank hunpadded).1, hkey]
  exact parsePartField_disposition header part.name_quotable.no_semicolon
    part.filename_quotable.no_semicolon

theorem parsePartLine_contentType (header : PartHeader) {t : Bytes} (h : Unpadded t) :
    parsePartLine header (ascii "Content-Type: " ++ t) = .ok { header with contentType := t } := by
  have hline : ascii "Content-Type: " ++ t = ascii "Content-Type" ++ 58 :: (32 :: t) := by
    simp [ascii]
  have hkey : (trim (ascii "Content-Type")).map toLower = ascii "content-type" := by decide
  rw [hline, parsePartLine_eq header (by decide), (trim_blank h).1, hkey]
  rfl

namespace FilePart

theorem isLine_disposition (part : FilePart b) : IsLine part.disposition := by
  refine ⟨?_, List.cons_ne_nil _ _⟩
  simp only [disposition, inLine_append]
  exact ⟨⟨⟨⟨by decide, part.name_quotable.inLine⟩, by decide⟩, part.filename_quotable.inLine⟩,
    by decide⟩

theorem lines_ne_nil (part : FilePart b) : part.lines ≠ [] := List.cons_ne_nil _ _

theorem isLine_of_mem (part : FilePart b) : ∀ line ∈ part.lines, IsLine line := by
  intro line hline
  rcases List.mem_cons.mp hline with rfl | hline
  · exact part.isLine_disposition
  · obtain ⟨t, ht, rfl⟩ := Option.map_eq_some_iff.mp (Option.mem_toList.mp hline)
    refine ⟨?_, List.cons_ne_nil _ _⟩
    rw [inLine_append]
    exact ⟨by decide, (part.contentType_ok t ht).1⟩

/-- **The header of a part is read as it was written.** -/
theorem headerOf_lines (part : FilePart b) :
    headerOf (joinLines part.lines) = ⟨part.name, part.filename, part.contentType.getD []⟩ := by
  have hparse : parsePartHeader (joinLines part.lines) =
      part.lines.foldlM parsePartLine ⟨[], [], []⟩ := by
    rw [parsePartHeader, ← List.foldlM_map, getlines_joinLines part.lines_ne_nil part.isLine_of_mem]
  have hlines : part.lines.foldlM parsePartLine ⟨[], [], []⟩ =
      .ok ⟨part.name, part.filename, part.contentType.getD []⟩ := by
    rw [lines, List.foldlM_cons, parsePartLine_disposition]
    cases htype : part.contentType with
    | none => rfl
    | some t =>
      have hpadded := (part.contentType_ok t htype).2
      simp only [Option.map_some, Option.toList_some, bind, Except.bind, List.foldlM_cons,
        parsePartLine_contentType _ hpadded, List.foldlM_nil]
      rfl
  rw [headerOf, hparse, hlines]

end FilePart

/-! ## 3. The body

The scan is followed from one boundary to the next.  Each part is found where it was written,
whatever comes behind it, so the induction is on the list of files. -/

/-- There is no line end in a boundary. -/
theorem inLine_delimiter (b : BoundaryToken) : InLine b.delimiter := by
  rw [BoundaryToken.delimiter, inLine_append]
  exact ⟨by decide, b.inLine⟩

theorem length_encodePart (part : FilePart b) :
    (encodePart part).length = b.delimiter.length + 2 + (joinLines part.lines).length + 4 +
      part.content.length + 2 := by
  simp only [encodePart, List.length_append, crlf, crlfcrlf, List.length_cons, List.length_nil]

theorem exists_encodeBody (b : BoundaryToken) (parts : List (FilePart b)) :
    ∃ t, encodeBody b parts = b.delimiter ++ t := by
  cases parts with
  | nil => exact ⟨ascii "--" ++ crlf, by simp [encodeBody]⟩
  | cons part parts =>
    exact ⟨crlf ++ joinLines part.lines ++ crlfcrlf ++ part.content ++ crlf ++ encodeBody b parts,
      by simp [encodeBody, encodePart]⟩

/-- The part that the scan finds for a file, when it starts at this position: its header, where the
content begins and where the next boundary does. -/
def FilePart.found (part : FilePart b) (start : Nat) : Part where
  header := ⟨part.name, part.filename, part.contentType.getD []⟩
  contentBegin := start + b.delimiter.length + 2 + (joinLines part.lines).length + 4
  nextBoundary := start + (encodePart part).length

/-- Behind a content the first boundary is the one that was written there. -/
theorem find_delimiter (part : FilePart b) (rest : Bytes) :
    find b.delimiter (part.content ++ 13 :: 10 :: (b.delimiter ++ rest)) =
      some (part.content.length + 2) := by
  have hne : b.delimiter ≠ [] := List.cons_ne_nil _ _
  have hnil : find b.delimiter [] = none := rfl
  have hten : find b.delimiter (10 :: (b.delimiter ++ rest)) =
      (find b.delimiter (b.delimiter ++ rest)).map (· + 1) :=
    find_append_cons hne (inLine_delimiter b).2 hnil (b.delimiter ++ rest)
  rw [find_append_cons hne (inLine_delimiter b).1 part.content_free, hten, find_self_append]
  simp only [Option.map_some, Option.some.injEq]
  omega

/-- **The scan finds a part where it was written.** -/
theorem partAt_encodePart (part : FilePart b) (before rest : Bytes) :
    partAt b.delimiter (before ++ (encodePart part ++ (b.delimiter ++ rest))) before.length =
      some (part.found before.length) := by
  -- the body, cut behind the boundary, behind its line end, and behind the blank line
  generalize hbody : before ++ (encodePart part ++ (b.delimiter ++ rest)) = body
  have hstart : body = before ++ (b.delimiter ++ (crlf ++ joinLines part.lines ++ crlfcrlf ++
      part.content ++ crlf ++ b.delimiter ++ rest)) := by
    rw [← hbody, encodePart]
    simp only [List.append_assoc]
  have hline : body = (before ++ b.delimiter) ++ (crlf ++ (joinLines part.lines ++ crlfcrlf ++
      part.content ++ crlf ++ b.delimiter ++ rest)) := by
    rw [← hbody, encodePart]
    simp only [List.append_assoc]
  have hheader : body = (before ++ b.delimiter ++ crlf) ++ (joinLines part.lines ++ (crlfcrlf ++
      (part.content ++ crlf ++ b.delimiter ++ rest))) := by
    rw [← hbody, encodePart]
    simp only [List.append_assoc]
  have hcontent : body = (before ++ b.delimiter ++ crlf ++ joinLines part.lines ++ crlfcrlf) ++
      (part.content ++ 13 :: 10 :: (b.delimiter ++ rest)) := by
    rw [← hbody, encodePart]
    simp only [List.append_assoc, crlf, List.cons_append, List.nil_append]
  have hfirst : findFrom b.delimiter body before.length = some before.length := by
    rw [hstart, findFrom_append, find_self_append, Option.map_some, Nat.zero_add]
  have htwo : (body.drop (before.length + b.delimiter.length)).take 2 = crlf := by
    rw [hline, ← List.length_append, List.drop_left]
    rfl
  have hbegin :
      before.length + b.delimiter.length + 2 = (before ++ b.delimiter ++ crlf).length := by
    simp only [List.length_append, crlf, List.length_cons, List.length_nil]
  have hblank : findFrom crlfcrlf body (before.length + b.delimiter.length + 2) =
      some ((joinLines part.lines).length + (before.length + b.delimiter.length + 2)) := by
    rw [hheader, hbegin, findFrom_append, find_block part.lines_ne_nil part.isLine_of_mem,
      Option.map_some]
  have htext : (body.drop (before.length + b.delimiter.length + 2)).take
      (joinLines part.lines).length = joinLines part.lines := by
    rw [hheader, hbegin, List.drop_left, List.take_left]
  have hnext : findFrom b.delimiter body
      ((joinLines part.lines).length + (before.length + b.delimiter.length + 2) + 4) =
        some (before.length + (encodePart part).length) := by
    have hlength : (joinLines part.lines).length + (before.length + b.delimiter.length + 2) + 4 =
        (before ++ b.delimiter ++ crlf ++ joinLines part.lines ++ crlfcrlf).length := by
      simp only [List.length_append, crlf, crlfcrlf, List.length_cons, List.length_nil]
      omega
    rw [hlength, hcontent, findFrom_append, find_delimiter, Option.map_some, length_encodePart,
      ← hlength, Option.some.injEq]
    omega
  have hnot : ¬ crlf = ascii "--" := by decide
  simp only [partAt, hfirst, htwo, if_neg hnot, ↓reduceIte, hblank, Nat.add_sub_cancel, htext,
    hnext, Option.map_some, FilePart.headerOf_lines, FilePart.found, Option.some.injEq,
    Part.mk.injEq, true_and, and_true]
  omega

theorem content_found (part : FilePart b) (before rest : Bytes)
    (hsize : part.content.length < 2 ^ 64) :
    (part.found before.length).content (before ++ (encodePart part ++ rest)) = part.content := by
  generalize hbody : before ++ (encodePart part ++ rest) = body
  have hcontent : body = (before ++ b.delimiter ++ crlf ++ joinLines part.lines ++ crlfcrlf) ++
      (part.content ++ (crlf ++ rest)) := by
    rw [← hbody, encodePart]
    simp only [List.append_assoc]
  have hline : body = (before ++ b.delimiter ++ crlf ++ joinLines part.lines ++ crlfcrlf ++
      part.content) ++ (crlf ++ rest) := by
    rw [hcontent, List.append_assoc _ part.content]
  have hbegin : (part.found before.length).contentBegin =
      (before ++ b.delimiter ++ crlf ++ joinLines part.lines ++ crlfcrlf).length := by
    simp only [FilePart.found, List.length_append, crlf, crlfcrlf, List.length_cons,
      List.length_nil]
  have hnext : (part.found before.length).nextBoundary = (before ++ b.delimiter ++ crlf ++
      joinLines part.lines ++ crlfcrlf ++ part.content).length + 2 := by
    simp only [FilePart.found, length_encodePart, List.length_append, crlf, crlfcrlf,
      List.length_cons, List.length_nil]
    omega
  have hend : (part.found before.length).contentEnd body = (before ++ b.delimiter ++ crlf ++
      joinLines part.lines ++ crlfcrlf ++ part.content).length := by
    rw [Part.contentEnd, hnext, Nat.add_sub_cancel, if_pos]
    refine ⟨Nat.le_add_left 2 _, ?_⟩
    rw [hline, List.drop_left]
    rfl
  have hcount : ((((before ++ b.delimiter ++ crlf ++ joinLines part.lines ++ crlfcrlf ++
      part.content).length : Int) - (before ++ b.delimiter ++ crlf ++ joinLines part.lines ++
        crlfcrlf).length) % 2 ^ 64).toNat = part.content.length := by
    have hlength : (before ++ b.delimiter ++ crlf ++ joinLines part.lines ++ crlfcrlf ++
        part.content).length = (before ++ b.delimiter ++ crlf ++ joinLines part.lines ++
          crlfcrlf).length + part.content.length := List.length_append
    omega
  rw [Part.content, hend, hbegin, hcount, hcontent, List.drop_left, List.take_left]

/-- **The loop puts the files in as they were written.** -/
theorem foldl_partsFrom (parts : List (FilePart b)) (before : Bytes) (files : StrMap File) {n : Nat}
    (hn : parts.length < n) (hsize : ∀ part ∈ parts, part.content.length < 2 ^ 64) :
    (partsFrom b.delimiter (before ++ encodeBody b parts) n before.length).foldl
        (Part.put (before ++ encodeBody b parts)) files =
      parts.foldl (fun files part => files.set part.name part.file) files := by
  induction parts generalizing before files n with
  | nil =>
    obtain ⟨n, rfl⟩ := Nat.exists_eq_succ_of_ne_zero (Nat.ne_of_gt hn)
    have hfirst : findFrom b.delimiter (before ++ encodeBody b []) before.length =
        some before.length := by
      rw [findFrom_append, encodeBody, List.append_assoc, find_self_append, Option.map_some,
        Nat.zero_add]
    have hlast : ((before ++ encodeBody b []).drop (before.length + b.delimiter.length)).take 2 =
        ascii "--" := by
      rw [encodeBody, ← List.drop_drop, List.drop_left, List.append_assoc, List.drop_left]
      rfl
    rw [partsFrom, partAt, hfirst]
    simp only [if_pos hlast]
    rfl
  | cons part parts ih =>
    obtain ⟨n, rfl⟩ := Nat.exists_eq_succ_of_ne_zero (Nat.ne_of_gt (Nat.zero_lt_of_lt hn))
    obtain ⟨rest, hrest⟩ := exists_encodeBody b parts
    have hat : partAt b.delimiter (before ++ encodeBody b (part :: parts)) before.length =
        some (part.found before.length) := by
      rw [encodeBody, hrest]
      exact partAt_encodePart part before rest
    have hfile : (part.found before.length).isFile = true := by
      simp [Part.isFile, FilePart.found, part.name_quotable.ne_nil, part.filename_quotable.ne_nil]
    have hput : (part.found before.length).put (before ++ encodeBody b (part :: parts)) files =
        files.set part.name part.file := by
      have hcontent := content_found part before (encodeBody b parts)
        (hsize part List.mem_cons_self)
      rw [Part.put, if_pos hfile, encodeBody, hcontent]
      rfl
    have hassoc : before ++ encodeBody b (part :: parts) =
        (before ++ encodePart part) ++ encodeBody b parts := by
      rw [encodeBody, List.append_assoc]
    have hcursor :
        (part.found before.length).nextBoundary = (before ++ encodePart part).length := by
      rw [List.length_append]
      rfl
    have hstep := ih (before ++ encodePart part) (files.set part.name part.file)
      (Nat.lt_of_succ_lt_succ hn) fun p hp => hsize p (List.mem_cons_of_mem _ hp)
    rw [partsFrom, hat]
    simp only [List.foldl_cons, hput, hcursor]
    rw [hassoc]
    exact hstep

theorem length_encodeBody (parts : List (FilePart b)) :
    parts.length < (encodeBody b parts).length ∧
      ∀ part ∈ parts, part.content.length < (encodeBody b parts).length := by
  induction parts with
  | nil =>
    refine ⟨?_, fun part hpart => absurd hpart List.not_mem_nil⟩
    simp only [encodeBody, List.length_append, crlf, List.length_cons, List.length_nil]
    omega
  | cons part parts ih =>
    have hlength : (encodeBody b (part :: parts)).length =
        (encodePart part).length + (encodeBody b parts).length := List.length_append
    have hpart := length_encodePart part
    refine ⟨?_, fun p hp => ?_⟩
    · rw [List.length_cons]
      omega
    · rcases List.mem_cons.mp hp with rfl | hp
      · omega
      · have hrest := ih.2 p hp
        omega

/-- **Multipart decoding undoes encoding.**  For any boundary that ends the `Content-Type` and any
list of files with contents in which it does not occur, `_files` is the map from each name to the
last file with that name. -/
theorem parseMultipartBody_encodeBody (req : HttpRequest) (b : BoundaryToken)
    (parts : List (FilePart b)) (front : Bytes)
    (htype : req.getHeader (ascii "Content-Type") = front ++ (ascii "boundary=" ++ b.token))
    (hfront : find (ascii "boundary=") front = none) (hbody : req.body = encodeBody b parts)
    (hsize : req.body.length < 2 ^ 64) (hfiles : req.files = .empty) :
    ∃ files, parseMultipartBody req = .ok { req with files := files } ∧
      ∀ name, files.find? name =
        (parts.reverse.find? fun part => part.name == name).map FilePart.file := by
  have hfind : find (ascii "boundary=") (front ++ (ascii "boundary=" ++ b.token)) =
      some front.length := by
    have hagain : (98 : UInt8) ∉ ascii "oundary=" := by decide
    exact find_append_needle hagain hfront b.token
  have hboundary : boundaryOf (req.getHeader (ascii "Content-Type")) = some b.delimiter := by
    rw [htype, boundaryOf, hfind, Option.map_some, ← List.drop_drop, List.drop_left]
    rfl
  obtain ⟨hcount, hcontents⟩ := length_encodeBody parts
  have hfold := foldl_partsFrom parts [] .empty (n := req.body.length + 1)
    (by rw [hbody]; omega) fun part hpart => (hcontents part hpart).trans (hbody ▸ hsize)
  refine ⟨_, parseMultipartBody_eq req, fun name => ?_⟩
  have hparts : (Net.parts (req.getHeader (ascii "Content-Type")) req.body).foldl
      (Part.put req.body) req.files =
        parts.foldl (fun files part => files.set part.name part.file) .empty := by
    rw [Net.parts, hboundary, hfiles, ← hfold, ← hbody]
    rfl
  rw [hparts, StrMap.find?_foldl_set]
  simp [StrMap.find?, StrMap.empty]

/-- The boundary of the sample. -/
def sampleBoundary : BoundaryToken where
  token := ascii "-X"
  ne_nil := by decide
  inLine := by decide

/-- A file with a blank line, dashes and a line end at its end. -/
def samplePart : FilePart sampleBoundary where
  name := ascii "file"
  filename := ascii "a b.zip"
  contentType := some (ascii "application/zip")
  content := ascii "--\r\n\r\n--X\r\n"
  name_quotable := ⟨by decide, by decide, by decide, by decide⟩
  filename_quotable := ⟨by decide, by decide, by decide, by decide⟩
  contentType_ok := by
    intro t ht
    obtain rfl := Option.some.inj ht
    exact ⟨by decide, by decide +kernel, by decide +kernel⟩
  content_free := by decide

/-- Its upload. -/
def sampleUpload : HttpRequest :=
  { HttpRequest.reSet with
    method := ascii "POST"
    body := encodeBody sampleBoundary [samplePart]
    headers := StrMap.empty.insert (ascii "Content-Type")
      (ascii "multipart/form-data; boundary=-X") }

theorem parseMultipartBody_encodeBody_sample :
    ∃ files, parseMultipartBody sampleUpload = .ok { sampleUpload with files := files } ∧
      ∀ name, files.find? name =
        ([samplePart].reverse.find? fun part => part.name == name).map FilePart.file :=
  parseMultipartBody_encodeBody sampleUpload sampleBoundary [samplePart]
    (ascii "multipart/form-data; ") (by decide) (by decide) rfl (by decide +kernel) rfl

end OnlineJudge.Net
