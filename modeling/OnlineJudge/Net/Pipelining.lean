/-
# Pipelined requests decode to themselves

A client writes requests one after another: the request line with a percent-encoded path and query,
the headers, an empty line, and a body whose length `Content-Length` gives.  Whatever cuts the
network makes, the parse loop hands over exactly these requests, each with every field as it was
written, and is then where it started (`onMessage_pipelined`).

A `WireRequest` carries its conditions: no line feed in a header, no `: ` in a header name, keys and
names distinct, and the length there exactly when there is a body.  Paths, keys, values and bodies
are arbitrary byte strings.

The round trip is that of the whole stream.  Where one request ends is not marked on the wire, so
that an error in one field of one request would be an error in all that follow.
-/
import OnlineJudge.Net.OnMessage

namespace OnlineJudge.Net

open ByteString HttpContext

/-! ## 1. Percent encoding

What a client does with the bytes that have a meaning in a request line.  The slash is left as it
is, so that a path stays one to read. -/

/-- The bytes that are written as they are: letters, digits, `-`, `.`, `_`, `~`, and `/`. -/
def isPlain (b : UInt8) : Bool :=
  (48 ≤ b && b ≤ 57) || (65 ≤ b && b ≤ 90) || (97 ≤ b && b ≤ 122) ||
    b == 45 || b == 46 || b == 95 || b == 126 || b == 47

/-- An upper-case hexadecimal digit. -/
def hexDigit (n : UInt8) : UInt8 := if n < 10 then 48 + n else 55 + n

/-- One byte: as it is if it is plain, and a `%` and two digits otherwise. -/
def encodeByte (b : UInt8) : Bytes :=
  if isPlain b then [b] else [37, hexDigit (b / 16), hexDigit (b % 16)]

/-- A byte string. -/
def percentEncode (s : Bytes) : Bytes := s.flatMap encodeByte

theorem nibble_lt (b : UInt8) : b / 16 < 16 ∧ b % 16 < 16 := by
  have hlt : b.toNat < 256 := b.toNat_lt
  rw [UInt8.lt_iff_toNat_lt, UInt8.lt_iff_toNat_lt, UInt8.toNat_div, UInt8.toNat_mod]
  show b.toNat / 16 < 16 ∧ b.toNat % 16 < 16
  omega

theorem forall_digit {p : UInt8 → Prop} (h : ∀ k : Fin 16, p (UInt8.ofNat k)) {n : UInt8}
    (hn : n < 16) : p n := by
  simpa using h ⟨n.toNat, UInt8.lt_iff_toNat_lt.mp hn⟩

theorem hexToI_hexDigit {n : UInt8} (h : n < 16) : Util.hexToI (hexDigit n) = n :=
  forall_digit (p := fun n => Util.hexToI (hexDigit n) = n) (by decide) h

theorem isPlain_hexDigit {n : UInt8} (h : n < 16) : isPlain (hexDigit n) = true :=
  forall_digit (p := fun n => isPlain (hexDigit n) = true) (by decide) h

theorem hexDigit_value (b : UInt8) :
    Util.hexToI (hexDigit (b / 16)) * 16 + Util.hexToI (hexDigit (b % 16)) = b := by
  have hlt : b.toNat < 256 := b.toNat_lt
  rw [hexToI_hexDigit (nibble_lt b).1, hexToI_hexDigit (nibble_lt b).2, ← UInt8.toNat_inj,
    UInt8.toNat_add, UInt8.toNat_mul, UInt8.toNat_div, UInt8.toNat_mod]
  show (b.toNat / 16 * 16 % 256 + b.toNat % 16) % 256 = b.toNat
  omega

/-- A byte that is not special is read as it stands. -/
theorem urlDecode_cons (plus : Bool) {c : UInt8} (hplus : c ≠ 43) (hpercent : c ≠ 37)
    (rest : Bytes) : Util.urlDecode plus (c :: rest) = c :: Util.urlDecode plus rest := by
  match rest with
  | [] => simp [Util.urlDecode, hplus]
  | [a] => simp [Util.urlDecode, hplus]
  | a :: b :: rest => simp [Util.urlDecode, hplus, hpercent]

theorem urlDecode_encodeByte (plus : Bool) (b : UInt8) (rest : Bytes) :
    Util.urlDecode plus (encodeByte b ++ rest) = b :: Util.urlDecode plus rest := by
  unfold encodeByte
  split
  · rename_i hplain
    have hplus : b ≠ 43 := by
      rintro rfl
      exact absurd hplain (by decide)
    have hpercent : b ≠ 37 := by
      rintro rfl
      exact absurd hplain (by decide)
    exact urlDecode_cons plus hplus hpercent rest
  · have hstep : Util.urlDecode plus (37 :: hexDigit (b / 16) :: hexDigit (b % 16) :: rest) =
        (Util.hexToI (hexDigit (b / 16)) * 16 + Util.hexToI (hexDigit (b % 16))) ::
          Util.urlDecode plus rest := by
      simp [Util.urlDecode]
    exact hstep.trans (congrArg (· :: Util.urlDecode plus rest) (hexDigit_value b))

/-- **Decoding undoes encoding**, whether `+` means a blank or not. -/
theorem urlDecode_percentEncode (plus : Bool) (s : Bytes) :
    Util.urlDecode plus (percentEncode s) = s := by
  induction s with
  | nil => rfl
  | cons b s ih =>
    rw [percentEncode, List.flatMap_cons, urlDecode_encodeByte]
    exact congrArg (b :: ·) ih

/-- Encoded text consists of plain bytes and `%`. -/
theorem mem_percentEncode {c : UInt8} {s : Bytes} (h : c ∈ percentEncode s) :
    isPlain c = true ∨ c = 37 := by
  obtain ⟨b, -, hb⟩ := List.mem_flatMap.mp h
  unfold encodeByte at hb
  split at hb
  · rename_i hplain
    obtain rfl := List.mem_singleton.mp hb
    exact Or.inl hplain
  · rcases List.mem_cons.mp hb with rfl | hb
    · exact Or.inr rfl
    · refine Or.inl ?_
      rcases List.mem_cons.mp hb with rfl | hb
      · exact isPlain_hexDigit (nibble_lt b).1
      · obtain rfl := List.mem_singleton.mp hb
        exact isPlain_hexDigit (nibble_lt b).2

theorem not_mem_percentEncode {c : UInt8} (hc : (isPlain c || c == 37) = false) (s : Bytes) :
    c ∉ percentEncode s := by
  intro h
  rcases mem_percentEncode h with hplain | rfl
  · simp [hplain] at hc
  · exact absurd hc (by decide)

/-! ## 2. Requests on the wire

The record has the fields as the client means them and the conditions that the format imposes.
`serialize` is the client's, and `toHttpRequest` is what the server is to have in the end. -/

/-- A request as a client means it, with what the format asks of it. -/
structure WireRequest where
  method : Bytes
  path : Bytes
  params : List (Bytes × Bytes)
  headers : List (Bytes × Bytes)
  body : Bytes
  method_mem : method ∈ [ascii "GET", ascii "HEAD", ascii "POST", ascii "PUT", ascii "DELETE"]
  params_nodup : (params.map Prod.fst).Nodup
  headers_nodup : (headers.map Prod.fst).Nodup
  header_names : ∀ h ∈ headers, find (ascii ": ") h.1 = none ∧ 10 ∉ h.1
  header_values : ∀ h ∈ headers, 10 ∉ h.2
  content_length : headers.lookup (ascii "Content-Length") =
    if body = [] then none else some (decimal body.length)
  content_type : ∀ val, headers.lookup (ascii "Content-Type") = some val →
    find (ascii "multipart/form-data") val = none
  /-- no `std::string` is longer -/
  body_length : body.length < 2 ^ 63

namespace WireRequest

/-- `k=v`, encoded. -/
def field (kv : Bytes × Bytes) : Bytes := percentEncode kv.1 ++ 61 :: percentEncode kv.2

/-- Fields with `&` between them. -/
def joinFields : List (Bytes × Bytes) → Bytes
  | [] => []
  | [kv] => field kv
  | kv :: kvs => field kv ++ 38 :: joinFields kvs

/-- `k=v&k=v`, encoded. -/
def query (r : WireRequest) : Bytes := joinFields r.params

/-- `?k=v&k=v`, if there are parameters. -/
def mark (r : WireRequest) : Bytes := if r.params = [] then [] else 63 :: r.query

/-- The request line without its line ending. -/
def requestLine (r : WireRequest) : Bytes :=
  r.method ++ 32 :: (percentEncode r.path ++ r.mark ++ 32 :: ascii "HTTP/1.1")

/-- A header line without its line ending. -/
def headerLine (h : Bytes × Bytes) : Bytes := h.1 ++ (ascii ": " ++ h.2)

/-- The request on the wire. -/
def serialize (r : WireRequest) : Bytes :=
  r.requestLine ++ 13 :: 10 ::
    (r.headers.flatMap (fun h => headerLine h ++ [13, 10]) ++ 13 :: 10 :: r.body)

/-- Every line of the request, with its line ending, has at most `MAX_LINE` bytes. -/
def LinesFit (r : WireRequest) : Prop :=
  r.requestLine.length + 2 ≤ maxLine ∧ ∀ h ∈ r.headers, (headerLine h).length + 2 ≤ maxLine

instance (r : WireRequest) : Decidable r.LinesFit :=
  inferInstanceAs (Decidable (_ ∧ ∀ h ∈ r.headers, (headerLine h).length + 2 ≤ maxLine))

/-- What the server is to make of it. -/
def toHttpRequest (r : WireRequest) : HttpRequest where
  method := r.method
  path := r.path
  version := ascii "HTTP/1.1"
  body := r.body
  headers := ⟨r.headers, r.headers_nodup⟩
  params := ⟨r.params, r.params_nodup⟩
  files := .empty

/-! ## 3. The request line

The characters that separate the parts do not occur in what is encoded, so each cut of the parser is
where the client has put it. -/

theorem method_upper (r : WireRequest) :
    isMethod r.method = true ∧ r.method.map toUpper = r.method ∧ 10 ∉ r.method := by
  have hall : ∀ m ∈ [ascii "GET", ascii "HEAD", ascii "POST", ascii "PUT", ascii "DELETE"],
      isMethod m = true ∧ m.map toUpper = m ∧ 10 ∉ m := by decide
  exact hall r.method r.method_mem

theorem not_mem_field {c : UInt8} (hc : (isPlain c || c == 37) = false) (hne : c ≠ 61)
    (kv : Bytes × Bytes) : c ∉ field kv := by
  unfold field
  rw [List.mem_append, List.mem_cons]
  rintro (h | h | h)
  · exact not_mem_percentEncode hc _ h
  · exact hne h
  · exact not_mem_percentEncode hc _ h

theorem joinFields_cons (kv kv' : Bytes × Bytes) (kvs : List (Bytes × Bytes)) :
    joinFields (kv :: kv' :: kvs) = field kv ++ 38 :: joinFields (kv' :: kvs) := rfl

theorem not_mem_joinFields {c : UInt8} (hc : (isPlain c || c == 37) = false) (hequal : c ≠ 61)
    (hamp : c ≠ 38) (kvs : List (Bytes × Bytes)) : c ∉ joinFields kvs := by
  induction kvs with
  | nil => exact List.not_mem_nil
  | cons kv kvs ih =>
    cases kvs with
    | nil => exact not_mem_field hc hequal kv
    | cons kv' kvs =>
      rw [joinFields_cons, List.mem_append, List.mem_cons]
      rintro (h | h | h)
      · exact not_mem_field hc hequal kv h
      · exact hamp h
      · exact ih h

theorem split_joinFields (kvs : List (Bytes × Bytes)) :
    Util.split (joinFields kvs) (ascii "&") = kvs.map field := by
  have hamp : ∀ kv, (38 : UInt8) ∉ field kv := fun kv => not_mem_field (by decide) (by decide) kv
  have hne : ∀ kv, (field kv).isEmpty = false := fun kv => by
    rw [List.isEmpty_eq_false_iff]
    exact List.append_ne_nil_of_right_ne_nil _ (List.cons_ne_nil _ _)
  have hone : ascii "&" = [38] := rfl
  rw [hone, Util.split_singleton]
  induction kvs with
  | nil => rfl
  | cons kv kvs ih =>
    cases kvs with
    | nil =>
      rw [joinFields, List.splitOn_eq_singleton (hamp kv)]
      simp [hne kv]
    | cons kv' kvs =>
      rw [joinFields_cons, List.splitOn_append_cons_self, List.splitOn_eq_singleton (hamp kv),
        List.singleton_append, List.filter_cons_of_pos (by simp [hne kv]), ih]
      rfl

/-- A field is cut at its `=` and decoded. -/
theorem queryField_field (kv : Bytes × Bytes) : queryField (field kv) = some kv := by
  have hequal : (61 : UInt8) ∉ percentEncode kv.1 := not_mem_percentEncode (by decide) _
  have hone : ascii "=" = [61] := rfl
  have hcut : percentEncode kv.1 ++ 61 :: percentEncode kv.2 =
      (percentEncode kv.1 ++ [61]) ++ percentEncode kv.2 := by simp
  have hkey : (field kv).take (percentEncode kv.1).length = percentEncode kv.1 :=
    List.take_left' rfl
  have hval : (field kv).drop ((percentEncode kv.1).length + 1) = percentEncode kv.2 := by
    rw [field, hcut]
    exact List.drop_left' (by simp)
  rw [queryField, hone]
  have hfind : find [61] (field kv) = some (percentEncode kv.1).length :=
    find_singleton_append hequal _
  rw [hfind, Option.map_some, hkey, hval, urlDecode_percentEncode, urlDecode_percentEncode]

/-- The request line matches, with the encoded parts as its captures. -/
theorem requestLine_matches (r : WireRequest) (ending : Bytes)
    (hend : ending = [] ∨ ending = [10] ∨ ending = [13, 10]) :
    RequestLine.Matches ⟨r.method, percentEncode r.path, r.query, ascii "HTTP/1.1"⟩
      (r.requestLine ++ ending) := by
  have hversion : isVersion (ascii "HTTP/1.1") = true := by decide
  refine ⟨r.mark, ending, rfl, r.method_upper.1, not_mem_percentEncode (by decide) _, hversion,
    ?_, hend⟩
  unfold mark
  split
  · rename_i hnil
    refine Or.inl ⟨rfl, ?_⟩
    simp only [query, hnil, joinFields]
  · exact Or.inr ⟨rfl, not_mem_joinFields (by decide) (by decide) (by decide) _,
      not_mem_joinFields (by decide) (by decide) (by decide) _⟩

/-- Adding parameters one by one changes the parameters only. -/
theorem foldl_addParam (kvs : List (Bytes × Bytes)) (ctx : HttpContext) :
    kvs.foldl (fun ctx kv => ctx.addParam kv.1 kv.2) ctx =
      { ctx with request := { ctx.request with
          params := kvs.foldl (fun m kv => m.insert kv.1 kv.2) ctx.request.params } } := by
  induction kvs generalizing ctx with
  | nil => rfl
  | cons kv kvs ih => exact ih (ctx.addParam kv.1 kv.2)

theorem foldl_insert_empty {kvs : List (Bytes × Bytes)} (h : (kvs.map Prod.fst).Nodup) :
    kvs.foldl (fun m kv => m.insert kv.1 kv.2) (StrMap.empty : StrMap Bytes) = ⟨kvs, h⟩ :=
  StrMap.ext (StrMap.entries_foldl_insert kvs .empty h)

/-- The context behind the request line. -/
def afterLine (r : WireRequest) : HttpContext :=
  ⟨200, .head, { HttpRequest.reSet with
    method := r.method, path := r.path, params := ⟨r.params, r.params_nodup⟩ }⟩

/-- **The request line is read**, whatever comes behind it. -/
theorem recvHttpLine_serialize (r : WireRequest) (hfit : r.LinesFit) (rest : Bytes) :
    recvHttpLine .reSet (r.requestLine ++ 13 :: 10 :: rest) = .ok (r.afterLine, rest) := by
  have hnewline : (10 : UInt8) ∉ r.requestLine := by
    have hpath : (10 : UInt8) ∉ percentEncode r.path := not_mem_percentEncode (by decide) _
    have hmark : (10 : UInt8) ∉ r.mark := by
      unfold mark
      split
      · exact List.not_mem_nil
      · rw [List.mem_cons]
        rintro (h | h)
        · exact absurd h (by decide)
        · exact not_mem_joinFields (by decide) (by decide) (by decide) _ h
    have hversion : (10 : UInt8) ∉ ascii "HTTP/1.1" := by decide
    simp [requestLine, r.method_upper.2.2, hpath, hmark, hversion]
  have hmatch := matchRequestLine_of_matches
    (r.requestLine_matches [13, 10] (Or.inr (Or.inr rfl)))
  have hfields : (r.params.map field).map queryField = r.params.map some := by
    rw [List.map_map]
    exact List.map_congr_left fun kv _ => queryField_field kv
  have hparse : parseHttpLine .reSet (r.requestLine ++ [13, 10]) =
      .ok ({ r.afterLine with recvStatu := .line }, true) := by
    rw [parseHttpLine, hmatch]
    simp only
    rw [query, split_joinFields, parseQuery_of_fields hfields, foldl_addParam]
    have hparams : r.params.foldl (fun m kv => m.insert kv.1 kv.2) HttpRequest.reSet.params =
        ⟨r.params, r.params_nodup⟩ := foldl_insert_empty r.params_nodup
    simp only [r.method_upper.2.1, urlDecode_percentEncode]
    exact congrArg (fun params => Except.ok (HttpContext.mk 200 .line { HttpRequest.reSet with
      method := r.method, path := r.path, params := params }, true)) hparams
  rw [recvHttpLine_crlf rfl hnewline hfit.1, hparse]
  rfl

/-! ## 4. The headers and the body

Headers go into a map one by one, and the names are distinct, so the order is lost but no value is.
The body is measured by the header that says its length. -/

/-- The first `: ` of a header line is the one behind the name: one further ahead would lie in
the name, or its blank would be the colon. -/
theorem find_headerLine {h : Bytes × Bytes} (hname : find (ascii ": ") h.1 = none) :
    find (ascii ": ") (headerLine h) = some h.1.length := by
  have hcolon : ascii ": " = [58, 32] := rfl
  refine find_eq_some_iff.mpr ⟨by simp [headerLine], ?_, fun j hj hpre => ?_⟩
  · rw [headerLine, List.drop_left' rfl]
    exact List.prefix_append _ _
  · rw [headerLine, List.drop_append_of_le_length (Nat.le_of_lt hj)] at hpre
    cases hdrop : h.1.drop j with
    | nil =>
      have := congrArg List.length hdrop
      rw [List.length_drop, List.length_nil] at this
      omega
    | cons b name =>
      rw [hdrop, hcolon, List.cons_append, List.cons_prefix_cons] at hpre
      obtain ⟨rfl, hpre⟩ := hpre
      cases name with
      | nil => exact absurd (List.cons_prefix_cons.mp hpre).1 (by decide)
      | cons b' name =>
        obtain ⟨rfl, -⟩ := List.cons_prefix_cons.mp hpre
        have hoccurs : ascii ": " <+: h.1.drop j := by
          rw [hdrop, hcolon]
          exact List.prefix_append [58, 32] name
        obtain ⟨i, hi, -⟩ := find_le hoccurs (Nat.le_of_lt hj)
        rw [hname] at hi
        cases hi

/-- A header line is read as its name and its value. -/
theorem headerField_headerLine {h : Bytes × Bytes} (hname : find (ascii ": ") h.1 = none) :
    headerField (headerLine h ++ [13, 10]) = some h := by
  have hval : (headerLine h).drop (h.1.length + 2) = h.2 := by
    rw [headerLine, ← List.append_assoc]
    exact List.drop_left' (by simp [ascii])
  have hkey : (headerLine h).take h.1.length = h.1 := List.take_left' rfl
  rw [headerField_line, find_headerLine hname, Option.map_some, hkey, hval]

theorem recvHttpHead_headers {hs : List (Bytes × Bytes)} {ctx : HttpContext}
    (hstatu : ctx.recvStatu = .head)
    (hnames : ∀ h ∈ hs, find (ascii ": ") h.1 = none ∧ 10 ∉ h.1)
    (hvals : ∀ h ∈ hs, 10 ∉ h.2)
    (hfit : ∀ h ∈ hs, (headerLine h).length + 2 ≤ maxLine) (rest : Bytes) :
    ctx.recvHttpHead (hs.flatMap (fun h => headerLine h ++ [13, 10]) ++ 13 :: 10 :: rest) =
      .ok (⟨ctx.respStatu, .body, { ctx.request with
        headers := hs.foldl (fun m h => m.insert h.1 h.2) ctx.request.headers }⟩, rest) := by
  have hlines : ∀ line ∈ hs.map headerLine, HeaderOk line := by
    intro line hline
    obtain ⟨h, hh, rfl⟩ := List.mem_map.mp hline
    have hcolon : (10 : UInt8) ∉ ascii ": " := by decide
    refine ⟨?_, hfit h hh, ?_⟩
    · simp [headerLine, (hnames h hh).2, hvals h hh, hcolon]
    · rw [headerField_headerLine (hnames h hh).1]
      rfl
  have hfields : headerFields (hs.map headerLine) = hs := by
    have hsome : ∀ h ∈ hs, headerField (headerLine h ++ [13, 10]) = some h := fun h hh =>
      headerField_headerLine (hnames h hh).1
    rw [headerFields, List.filterMap_map]
    exact (List.filterMap_congr hsome).trans List.filterMap_some
  have htext : hs.flatMap (fun h => headerLine h ++ [13, 10]) =
      (hs.map headerLine).flatMap (· ++ [13, 10]) := by
    rw [List.flatMap_map]
  have hstatu' : (ctx.addHeaders hs).recvStatu = .head := hstatu
  rw [htext, recvHttpHead_lines hstatu hlines, hfields, recvHttpHead_end hstatu']
  rfl

/-- The context behind the headers. -/
def afterHead (r : WireRequest) : HttpContext :=
  ⟨200, .body, { r.toHttpRequest with body := [] }⟩

/-- **The headers are read** up to the empty line, whatever comes behind that. -/
theorem recvHttpHead_serialize (r : WireRequest) (hfit : r.LinesFit) (rest : Bytes) :
    recvHttpHead r.afterLine
        (r.headers.flatMap (fun h => headerLine h ++ [13, 10]) ++ 13 :: 10 :: rest) =
      .ok (r.afterHead, rest) := by
  have hstatu : r.afterLine.recvStatu = .head := rfl
  have hheaders : r.headers.foldl (fun m h => m.insert h.1 h.2) r.afterLine.request.headers =
      ⟨r.headers, r.headers_nodup⟩ := foldl_insert_empty r.headers_nodup
  rw [recvHttpHead_headers hstatu r.header_names r.header_values hfit.2, hheaders]
  rfl

/-- **The body is read**: its bytes and no more, and the request is what the client meant. -/
theorem recvHttpBody_serialize (r : WireRequest) (rest : Bytes) :
    recvHttpBody r.afterHead (r.body ++ rest) =
      .ok (⟨200, .over, r.toHttpRequest⟩, rest) := by
  have hstatu : r.afterHead.recvStatu = .body := rfl
  have hfind : r.afterHead.request.headers.find? (ascii "Content-Length") =
      if r.body = [] then none else some (decimal r.body.length) := r.content_length
  by_cases hbody : r.body = []
  · rw [if_pos hbody] at hfind
    have hlength : r.afterHead.request.contentLength = .ok 0 := by
      rw [HttpRequest.contentLength, hfind]
    have hempty : { r.toHttpRequest with body := [] } = r.toHttpRequest := by
      rw [← hbody]
      rfl
    rw [recvHttpBody_empty hstatu hlength, hbody, ← hempty]
    rfl
  · rw [if_neg hbody] at hfind
    have hlt := r.body_length
    have hlength : r.afterHead.request.contentLength = .ok r.body.length := by
      rw [HttpRequest.contentLength, hfind]
      have hmod : ((r.body.length : Int) % 2 ^ 64).toNat = r.body.length := by omega
      simp only [stol_decimal hlt]
      exact congrArg Except.ok hmod
    have hne : r.body.length ≠ 0 := fun h => hbody (List.length_eq_zero_iff.mp h)
    have hreal : r.body.length = r.afterHead.realLen r.body.length := by
      have hmod : (((r.body.length : Int) - (0 : Nat)) % 2 ^ 64).toNat = r.body.length := by omega
      exact hmod.symm
    have hplain : r.toHttpRequest.isMultipartFormData = false := by
      unfold HttpRequest.isMultipartFormData
      cases htype : r.toHttpRequest.headers.find? (ascii "Content-Type") with
      | none => rfl
      | some val =>
        have := r.content_type val htype
        simp [this]
    have hreq : parseIfMultipart (r.afterHead.addBody r.body).request = .ok r.toHttpRequest :=
      if_neg (Bool.eq_false_iff.mp hplain)
    exact recvHttpBody_complete hstatu hlength hne hreal hreq rest

/-- **One request**: the parser takes it off the front of the stream. -/
theorem stage_serialize (r : WireRequest) (hfit : r.LinesFit) (rest : Bytes) :
    onMessage.stage .reSet (r.serialize ++ rest) =
      .done ⟨200, .over, r.toHttpRequest⟩ rest := by
  have hsplit : r.serialize ++ rest = r.requestLine ++ 13 :: 10 ::
      (r.headers.flatMap (fun h => headerLine h ++ [13, 10]) ++ 13 :: 10 :: (r.body ++ rest)) := by
    simp [serialize]
  have hrecv : recvHttpRequest .reSet (r.serialize ++ rest) =
      .ok (⟨200, .over, r.toHttpRequest⟩, rest) := by
    rw [hsplit, recvHttpRequest_line rfl (recvHttpLine_serialize r hfit _),
      recvFromHead_eq (recvHttpHead_serialize r hfit _)]
    exact recvHttpBody_serialize r rest
  exact congrArg callOutcome hrecv

theorem serialize_ne_nil (r : WireRequest) (rest : Bytes) : r.serialize ++ rest ≠ [] := by
  simp [serialize]

end WireRequest

/-! ## 5. Streams of requests

One request leaves the parser where it started, with the rest of the stream unread.  So the stream
is an induction on the list, and the cuts are covered by resumability. -/

/-- The loop takes the requests off the buffer one by one. -/
theorem drain_serialize (rs : List WireRequest) (hfit : ∀ r ∈ rs, r.LinesFit) :
    onMessage.drain (rs.length + 1) .reSet (rs.flatMap WireRequest.serialize) =
      some ⟨rs.map fun r => .message r.toHttpRequest, some (.reSet, [])⟩ := by
  induction rs with
  | nil => rfl
  | cons r rs ih =>
    rw [List.flatMap_cons, Framer.drain_done (r.serialize_ne_nil _)
      (r.stage_serialize (hfit r List.mem_cons_self) _)]
    have hrest := ih fun r' hr' => hfit r' (List.mem_cons_of_mem _ hr')
    show Option.map _ (onMessage.drain (rs.length + 1) .reSet _) = _
    rw [hrest]
    rfl

/-- **Pipelined requests decode to themselves.**  However a stream of requests is cut into
reads, the loop hands over these requests in order, each with the method, path, parameters,
headers and body it was written with, and ends at the start of a request with nothing unread. -/
theorem onMessage_pipelined (rs : List WireRequest) (hfit : ∀ r ∈ rs, r.LinesFit)
    (chunks : List Bytes) (hchunks : chunks.flatten = rs.flatMap WireRequest.serialize) :
    onMessage.feed chunks =
      some ⟨rs.map fun r => .message r.toHttpRequest, some (.reSet, [])⟩ := by
  refine onMessage_lawful.feed_of_drain (n := rs.length + 1) ?_
  rw [hchunks]
  exact drain_serialize rs hfit

/-- `GET /a b?k==&` with an empty body. -/
def getRequest : WireRequest where
  method := ascii "GET"
  path := ascii "/a b"
  params := [(ascii "k", ascii "=&")]
  headers := [(ascii "Host", ascii "oj")]
  body := []
  method_mem := by decide
  params_nodup := by decide
  headers_nodup := by decide
  header_names := by decide
  header_values := by decide
  content_length := by decide
  content_type := nofun
  body_length := by decide

/-- `POST /judge` with a body of two bytes. -/
def postRequest : WireRequest where
  method := ascii "POST"
  path := ascii "/judge"
  params := []
  headers := [(ascii "Content-Length", ascii "2")]
  body := ascii "\r\n"
  method_mem := by decide
  params_nodup := by decide
  headers_nodup := by decide
  header_names := by decide
  header_values := by decide
  content_length := by decide
  content_type := nofun
  body_length := by decide

/-- Both on one connection, cut inside the second header. -/
theorem onMessage_pipelined_two :
    onMessage.feed
        [ascii "GET /a%20b?k=%3D%26 HTTP/1.1\r\nHost: oj\r\n\r\nPOST /judge HTTP/1.1\r\nCon",
          ascii "tent-Length: 2\r\n\r\n\r\n"] =
      some ⟨[.message getRequest.toHttpRequest, .message postRequest.toHttpRequest],
        some (.reSet, [])⟩ :=
  onMessage_pipelined [getRequest, postRequest]
    (by simp only [List.forall_mem_cons]; exact ⟨by decide, by decide, by simp⟩) _ (by decide)

end OnlineJudge.Net
