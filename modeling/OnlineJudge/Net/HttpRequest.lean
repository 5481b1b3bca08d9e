/-
# HTTP requests

`HttpRequest` (`net/http.hpp`): the fields of a request that the parser fills, the accessors it uses
on them, and the multipart parser that runs once a body is complete.

Two things can stop the parser.  A function of the standard library can raise, and the search for
multipart boundaries is a `while (true)` loop, which could spin.  Both are outcomes here (`Abort`),
so that their absence is a theorem (`parseMultipartBody_ok`).

The multipart parser is written as the source has it, with its cursor and its comparisons.  What it
finds is told part by part in `Net.Multipart`.
-/
import OnlineJudge.Lib.StrMap

namespace OnlineJudge.Net

open ByteString

/-! ## 1. The request

The accessors that raise do so here as well.  Text is bytes, and a number in a header is what
`std::stol` makes of them. -/

/-- How a call can fail to return: an exception leaves it, or a loop does not end. -/
inductive Abort
  | raises (e : StdException)
  | spins
deriving DecidableEq, Repr

/-- Any exception of the standard library leaves the call.  Who catches it does not matter here. -/
def raising {α : Type} (x : Except StdException α) : Except Abort α := x.mapError .raises

@[simp] theorem raising_ok {α : Type} (a : α) :
    raising (.ok a : Except StdException α) = .ok a := rfl

structure File where
  filename : Bytes
  content : Bytes
  contentType : Bytes
deriving DecidableEq, Repr

/-- `HttpRequest`, except for the match results of the route. -/
structure HttpRequest where
  method : Bytes
  path : Bytes
  version : Bytes
  body : Bytes
  headers : StrMap Bytes
  params : StrMap Bytes
  files : StrMap File
deriving DecidableEq

namespace HttpRequest

/-- The state of a request after its constructor, and after `ReSet`. -/
def reSet : HttpRequest where
  method := []
  path := []
  version := ascii "HTTP/1.1"
  body := []
  headers := .empty
  params := .empty
  files := .empty

def getHeader (req : HttpRequest) (key : Bytes) : Bytes := (req.headers.find? key).getD []

def hasParam (req : HttpRequest) (key : Bytes) : Bool := (req.params.find? key).isSome

def getParam (req : HttpRequest) (key : Bytes) : Bytes := (req.params.find? key).getD []

def isMultipartFormData (req : HttpRequest) : Bool :=
  match req.headers.find? (ascii "Content-Type") with
  | none => false
  | some val => (find (ascii "multipart/form-data") val).isSome

/-- `ContentLength`: the header's value read by `std::stol` and converted to `size_t`. -/
def contentLength (req : HttpRequest) : Except StdException Nat :=
  match req.headers.find? (ascii "Content-Length") with
  | none => .ok 0
  | some clen => (stol clen).map fun n => (n % 2 ^ 64).toNat

/-- `Close`: whether the connection is closed after the response. -/
def close (req : HttpRequest) : Bool :=
  req.headers.find? (ascii "Connection") != some (ascii "keep-alive")

end HttpRequest

/-! ## 2. Multipart bodies

A round looks for a boundary, for the blank line behind the header of the part and for the next
boundary, and puts the file in.  The header is read line by line and token by token. -/

/-- `Trim`: no blanks and tabs at the ends. -/
def trim (s : Bytes) : Bytes :=
  ((s.dropWhile fun b => b == 32 || b == 9).reverse.dropWhile fun b => b == 32 || b == 9).reverse

/-- `name`, `filename` and `file_content_type` of one part. -/
structure PartHeader where
  name : Bytes
  filename : Bytes
  contentType : Bytes

/-- One trimmed token of a `Content-Disposition` value. -/
def parseToken (part : PartHeader) (token : Bytes) : Except StdException PartHeader :=
  if (ascii "name=").isPrefixOf token then do
    let name ← substrFrom token 5
    return { part with name := popBack 34 (popFront 34 name) }
  else if (ascii "filename=").isPrefixOf token then do
    let filename ← substrFrom token 9
    return { part with filename := popBack 34 (popFront 34 filename) }
  else .ok part

/-- A header line of a part, cut at its colon. -/
def parsePartField (part : PartHeader) (hk hv : Bytes) : Except StdException PartHeader :=
  if hk = ascii "content-disposition" then
    (getlines 59 hv).foldlM (fun part token => parseToken part (trim token)) part
  else if hk = ascii "content-type" then .ok { part with contentType := hv }
  else .ok part

/-- One header line of a part. -/
def parsePartLine (part : PartHeader) (headerLine : Bytes) : Except StdException PartHeader := do
  match ← cutAt (ascii ":") headerLine with
  | none => return part
  | some (key, val) => parsePartField part ((trim key).map toLower) (trim val)

/-- The header lines of a part. -/
def parsePartHeader (text : Bytes) : Except StdException PartHeader :=
  (getlines 10 text).foldlM (fun part line => parsePartLine part (popBack 13 line)) ⟨[], [], []⟩

/-- `guard && body.compare(pos, 2, t) == 0`. -/
def twoAre (guard : Bool) (body : Bytes) (pos : Nat) (t : Bytes) : Except StdException Bool :=
  if guard then compareEq body pos 2 t else .ok false

/-- The part of a round behind the header of a part: where its content ends, and the file that
is put in if it has a name and a file name. -/
def addPart (body : Bytes) (header : PartHeader) (contentBegin nextBoundary : Nat)
    (files : StrMap File) : Except StdException (StrMap File) := do
  let newline ← twoAre (2 ≤ nextBoundary) body (nextBoundary - 2) (ascii "\r\n")
  let contentEnd := if newline then nextBoundary - 2 else nextBoundary
  if !header.name.isEmpty && !header.filename.isEmpty then
    -- the length is a difference of unsigned numbers
    let content ← substr body contentBegin (((contentEnd : Int) - contentBegin) % 2 ^ 64).toNat
    return files.set header.name ⟨header.filename, content, header.contentType⟩
  else return files

/-- One round of the search for parts: the files so far and, unless the loop breaks, the new
cursor. -/
def multipartRound (boundary body : Bytes) (cursor : Nat) (files : StrMap File) :
    Except StdException (StrMap File × Option Nat) :=
  match findFrom boundary body cursor with
  | none => .ok (files, none)
  | some pos => do
    let final ← twoAre (pos + boundary.length + 2 ≤ body.length) body (pos + boundary.length)
      (ascii "--")
    if final then return (files, none)
    else
      let newline ← compareEq body (pos + boundary.length) 2 (ascii "\r\n")
      let begin := if newline then pos + boundary.length + 2 else pos + boundary.length
      match findFrom (ascii "\r\n\r\n") body begin with
      | none => return (files, none)
      | some headerEnd =>
        let header ← parsePartHeader (← substr body begin (headerEnd - begin))
        match findFrom boundary body (headerEnd + 4) with
        | none => return (files, none)
        | some nextBoundary =>
          let files ← addPart body header (headerEnd + 4) nextBoundary files
          return (files, some nextBoundary)

/-- The `while (true)` loop of `ParseMultipartBody`, for at most `n` rounds. -/
def multipartLoop (boundary body : Bytes) : Nat → Nat → StrMap File → Except Abort (StrMap File)
  | 0, _, _ => .error .spins
  | n + 1, cursor, files =>
    match multipartRound boundary body cursor files with
    | .error e => .error (.raises e)
    | .ok (files, none) => .ok files
    | .ok (files, some cursor) => multipartLoop boundary body n cursor files

def parseMultipartBody (req : HttpRequest) : Except Abort HttpRequest :=
  match find (ascii "boundary=") (req.getHeader (ascii "Content-Type")) with
  | none => .ok req
  | some pos => do
    let name ← raising (substrFrom (req.getHeader (ascii "Content-Type")) (pos + 9))
    let files ← multipartLoop (ascii "--" ++ name) req.body (req.body.length + 1) 0 req.files
    return { req with files := files }

/-! ### The multipart parser returns

Each comparison with a substring has a guard in front of it that keeps its offset inside the body.
With that nothing raises, and the cursor only moves forward. -/

/-- A fold of steps that do not raise does not raise. -/
theorem exists_foldlM_ok {α β ε : Type} {f : β → α → Except ε β}
    (h : ∀ b a, ∃ b', f b a = .ok b') (as : List α) (b : β) : ∃ b', as.foldlM f b = .ok b' := by
  induction as generalizing b with
  | nil => exact ⟨b, rfl⟩
  | cons a as ih =>
    obtain ⟨b', hb'⟩ := h b a
    obtain ⟨b'', hb''⟩ := ih b'
    exact ⟨b'', by rw [List.foldlM_cons, hb']; exact hb''⟩

theorem parseToken_ok (part : PartHeader) (token : Bytes) :
    ∃ part', parseToken part token = .ok part' := by
  have hpre : ∀ {pre : Bytes}, pre.isPrefixOf token = true → pre.length ≤ token.length :=
    fun h => (List.isPrefixOf_iff_prefix.mp h).length_le
  unfold parseToken
  split
  · rename_i h
    have hname : substrFrom token 5 = .ok (token.drop 5) := substrFrom_eq (hpre h)
    rw [hname]
    exact ⟨_, rfl⟩
  · split
    · rename_i h
      have hname : substrFrom token 9 = .ok (token.drop 9) := substrFrom_eq (hpre h)
      rw [hname]
      exact ⟨_, rfl⟩
    · exact ⟨part, rfl⟩

theorem parsePartField_ok (part : PartHeader) (hk hv : Bytes) :
    ∃ part', parsePartField part hk hv = .ok part' := by
  unfold parsePartField
  split
  · exact exists_foldlM_ok (fun part token => parseToken_ok part (trim token)) _ part
  · split <;> exact ⟨_, rfl⟩

theorem parsePartLine_ok (part : PartHeader) (headerLine : Bytes) :
    ∃ part', parsePartLine part headerLine = .ok part' := by
  unfold parsePartLine
  rw [cutAt_eq]
  cases find (ascii ":") headerLine with
  | none => exact ⟨part, rfl⟩
  | some pos => exact parsePartField_ok part _ _

theorem parsePartHeader_ok (text : Bytes) : ∃ part, parsePartHeader text = .ok part :=
  exists_foldlM_ok (fun part line => parsePartLine_ok part (popBack 13 line)) _ _

theorem twoAre_ok {guard : Bool} {body : Bytes} {pos : Nat} (t : Bytes)
    (h : guard = true → pos ≤ body.length) : ∃ b, twoAre guard body pos t = .ok b := by
  unfold twoAre
  split
  · rename_i hg
    exact ⟨_, compareEq_eq 2 t (h hg)⟩
  · exact ⟨_, rfl⟩

theorem addPart_ok {body : Bytes} (header : PartHeader) {contentBegin nextBoundary : Nat}
    (files : StrMap File) (hbegin : contentBegin ≤ body.length)
    (hnext : nextBoundary ≤ body.length) :
    ∃ files', addPart body header contentBegin nextBoundary files = .ok files' := by
  obtain ⟨newline, hnewline⟩ :
      ∃ b, twoAre (2 ≤ nextBoundary) body (nextBoundary - 2) (ascii "\r\n") = .ok b :=
    twoAre_ok _ (fun _ => by omega)
  unfold addPart
  rw [hnewline]
  simp only [bind, Except.bind]
  split
  · rw [substr_eq _ hbegin]
    exact ⟨_, rfl⟩
  · exact ⟨_, rfl⟩

/-- **A round does not raise**, and the cursor it leaves lies ahead of the old one. -/
theorem multipartRound_ok (boundary body : Bytes) (cursor : Nat) (files : StrMap File) :
    ∃ files' next, multipartRound boundary body cursor files = .ok (files', next) ∧
      ∀ c, next = some c → cursor < c ∧ c ≤ body.length := by
  have hbreak : ∀ c, (none : Option Nat) = some c → cursor < c ∧ c ≤ body.length :=
    fun _ h => nomatch h
  unfold multipartRound
  cases hpos : findFrom boundary body cursor with
  | none => exact ⟨files, none, rfl, hbreak⟩
  | some pos =>
    obtain ⟨hcursor, hend⟩ := findFrom_eq_some hpos
    obtain ⟨final, hfinal⟩ : ∃ b, twoAre (pos + boundary.length + 2 ≤ body.length) body
        (pos + boundary.length) (ascii "--") = .ok b := twoAre_ok _ (fun _ => hend)
    simp only [hfinal, compareEq_eq 2 (ascii "\r\n") hend, bind, Except.bind]
    cases final with
    | true => exact ⟨files, none, rfl, hbreak⟩
    | false =>
      generalize hbegin : (if ((body.drop (pos + boundary.length)).take 2 == ascii "\r\n") = true
        then pos + boundary.length + 2 else pos + boundary.length) = begin
      have hbegin' : pos ≤ begin := by
        rw [← hbegin]
        split <;> omega
      simp only [Bool.false_eq_true, if_false]
      cases hheader : findFrom (ascii "\r\n\r\n") body begin with
      | none => exact ⟨files, none, rfl, hbreak⟩
      | some headerEnd =>
        obtain ⟨hle, hheaderEnd⟩ := findFrom_eq_some hheader
        have hfour : headerEnd + 4 ≤ body.length := hheaderEnd
        obtain ⟨header, hpart⟩ := parsePartHeader_ok
          ((body.drop begin).take (headerEnd - begin))
        simp only [substr_eq (headerEnd - begin) (by omega : begin ≤ body.length), hpart]
        cases hnext : findFrom boundary body (headerEnd + 4) with
        | none => exact ⟨files, none, rfl, hbreak⟩
        | some nextBoundary =>
          obtain ⟨hahead, hnextEnd⟩ := findFrom_eq_some hnext
          obtain ⟨files', hadd⟩ := addPart_ok header files hfour
            (by omega : nextBoundary ≤ body.length)
          refine ⟨files', some nextBoundary, ?_, ?_⟩
          · simp only [hadd]
            rfl
          · rintro c hc
            obtain rfl := Option.some.inj hc
            omega

/-- The loop ends: with more rounds than there are bytes ahead of the cursor it breaks. -/
theorem multipartLoop_ok (boundary body : Bytes) {n cursor : Nat} (files : StrMap File)
    (hcursor : cursor ≤ body.length) (hn : body.length < n + cursor) :
    ∃ files', multipartLoop boundary body n cursor files = .ok files' := by
  induction n generalizing cursor files with
  | zero => omega
  | succ n ih =>
    obtain ⟨files', next, hround, hahead⟩ := multipartRound_ok boundary body cursor files
    unfold multipartLoop
    rw [hround]
    cases next with
    | none => exact ⟨files', rfl⟩
    | some c =>
      obtain ⟨hlt, hle⟩ := hahead c rfl
      exact ih files' hle (by omega)

/-- **The multipart parser neither raises nor spins**, and it changes nothing but the files. -/
theorem parseMultipartBody_ok (req : HttpRequest) :
    ∃ files, parseMultipartBody req = .ok { req with files := files } := by
  unfold parseMultipartBody
  cases hpos : find (ascii "boundary=") (req.getHeader (ascii "Content-Type")) with
  | none => exact ⟨req.files, rfl⟩
  | some pos =>
    have hlen := (find_eq_some hpos).2.length_le
    have hle := (find_eq_some hpos).1
    have hnine : (ascii "boundary=").length = 9 := rfl
    rw [List.length_drop, hnine] at hlen
    obtain ⟨files, hfiles⟩ := multipartLoop_ok
      (ascii "--" ++ (req.getHeader (ascii "Content-Type")).drop (pos + 9)) req.body
      (n := req.body.length + 1) req.files (Nat.zero_le _) (by omega)
    have hboundary : substrFrom (req.getHeader (ascii "Content-Type")) (pos + 9) =
        .ok ((req.getHeader (ascii "Content-Type")).drop (pos + 9)) := substrFrom_eq (by omega)
    refine ⟨files, ?_⟩
    simp only [hboundary, raising_ok, bind, Except.bind, hfiles]
    rfl

end OnlineJudge.Net
