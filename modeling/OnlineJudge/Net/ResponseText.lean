/-
# The text that `WriteReponse` sends

`WriteReponse` (`net/http.hpp`) completes the header fields and writes the status line, the fields
in the order in which it finds them in an unordered map, an empty line and the body.  Here the text
is read as what it is: a block of lines, and the bytes of the body behind it.

* `completeHeaders_spec`: the fields of the response stay, and the ones that are added are the
  defaults and the few that `WriteReponse` writes itself.
* `responseTextIn_eq`: the text, in any order of the fields, as a block of lines and the body.

The order of the fields is a parameter throughout.  An unordered map promises none, so what is
proved of the text has to hold for any permutation of its entries.
-/
import OnlineJudge.Lib.HeaderBlock
import OnlineJudge.Net.Connection

namespace OnlineJudge.Net

open ByteString

/-! ## 1. The fields

`SetHeader` inserts, and an insertion does nothing if the key is there.  So what a handler has set
is never overwritten, and the defaults fill the gaps. -/

namespace HttpResponse

/-- Fields are added to a response, each of them one of `P`, and nothing else of it changes. -/
structure Adds (P : Bytes × Bytes → Prop) (rsp rsp' : HttpResponse) : Prop where
  statu : rsp'.statu = rsp.statu
  body : rsp'.body = rsp.body
  redirectFlag : rsp'.redirectFlag = rsp.redirectFlag
  redirectUrl : rsp'.redirectUrl = rsp.redirectUrl
  kept : rsp.headers.entries ⊆ rsp'.headers.entries
  added : ∀ head ∈ rsp'.headers.entries, head ∈ rsp.headers.entries ∨ P head

variable {P : Bytes × Bytes → Prop}

theorem Adds.refl (rsp : HttpResponse) : Adds P rsp rsp :=
  ⟨rfl, rfl, rfl, rfl, List.Subset.refl _, fun _ hmem => Or.inl hmem⟩

theorem Adds.trans {rsp mid rsp' : HttpResponse} (h : Adds P rsp mid) (h' : Adds P mid rsp') :
    Adds P rsp rsp' where
  statu := h'.statu.trans h.statu
  body := h'.body.trans h.body
  redirectFlag := h'.redirectFlag.trans h.redirectFlag
  redirectUrl := h'.redirectUrl.trans h.redirectUrl
  kept := List.Subset.trans h.kept h'.kept
  added head hmem := (h'.added head hmem).elim (h.added head) Or.inr

theorem adds_setHeader (rsp : HttpResponse) {key val : Bytes} (h : P (key, val)) :
    Adds P rsp (rsp.setHeader key val) := by
  refine ⟨rfl, rfl, rfl, rfl, ?_, ?_⟩
  · rw [setHeader, StrMap.insert]
    split
    · exact List.subset_append_left _ _
    · exact List.Subset.refl _
  · intro head hmem
    rw [setHeader, StrMap.insert] at hmem
    split at hmem
    · rcases List.mem_append.mp hmem with hmem | hmem
      · exact Or.inl hmem
      · rw [List.mem_singleton.mp hmem]
        exact Or.inr h
    · exact Or.inl hmem

/-- A field that is set under a condition. -/
theorem adds_ite {c : Prop} [Decidable c] (rsp : HttpResponse) {key val : Bytes}
    (h : c → P (key, val)) : Adds P rsp (if c then rsp.setHeader key val else rsp) := by
  split
  · rename_i hc
    exact adds_setHeader rsp (h hc)
  · exact .refl rsp

theorem hasHeader_iff {rsp : HttpResponse} {key : Bytes} :
    rsp.hasHeader key = true ↔ ∃ val, (key, val) ∈ rsp.headers.entries := by
  have hnone : rsp.headers.find? key = none ↔ key ∉ rsp.headers.entries.map Prod.fst :=
    StrMap.find?_eq_none
  rw [hasHeader, Option.isSome_iff_ne_none, ne_eq, hnone, not_not, List.mem_map]
  exact ⟨fun ⟨p, hp, hkey⟩ => ⟨p.2, hkey ▸ hp⟩, fun ⟨val, hval⟩ => ⟨(key, val), hval, rfl⟩⟩

theorem Adds.hasHeader {rsp rsp' : HttpResponse} {key : Bytes} (h : Adds P rsp rsp')
    (hkey : rsp.hasHeader key = true) : rsp'.hasHeader key = true := by
  obtain ⟨val, hval⟩ := hasHeader_iff.mp hkey
  exact hasHeader_iff.mpr ⟨val, h.kept hval⟩

theorem hasHeader_setHeader (rsp : HttpResponse) (key val : Bytes) :
    (rsp.setHeader key val).hasHeader key = true := by
  rw [hasHeader_iff, setHeader]
  by_cases hnew : rsp.headers.find? key = none
  · exact ⟨val, by rw [StrMap.insert_of_new hnew]; exact List.mem_append_right _ List.mem_cons_self⟩
  · rw [StrMap.insert, dif_neg hnew]
    exact hasHeader_iff.mp (Option.isSome_iff_ne_none.mpr hnew)

end HttpResponse

namespace SiteServer

open HttpResponse

variable {ε : Type} (server : SiteServer ε)

/-- A field that `WriteReponse` adds to a response. -/
inductive AddedField (rsp : HttpResponse) : Bytes × Bytes → Prop
  | default (head) (h : head ∈ server.defaultHeaders.entries) : AddedField rsp head
  | close : AddedField rsp (ascii "Connection", ascii "close")
  | keepAlive : AddedField rsp (ascii "Connection", ascii "keep-alive")
  | contentLength (h : rsp.body ≠ []) :
      AddedField rsp (ascii "Content-Length", decimal rsp.body.length)
  | contentType : AddedField rsp (ascii "Content-Type", ascii "application/octet-stream")
  | location (h : rsp.redirectFlag = true) : AddedField rsp (ascii "Location", rsp.redirectUrl)

theorem adds_defaults {rsp rsp' : HttpResponse} (heads : List (Bytes × Bytes))
    (hheads : heads ⊆ server.defaultHeaders.entries)
    (h : Adds (server.AddedField rsp) rsp rsp') :
    Adds (server.AddedField rsp) rsp (heads.foldl (fun rsp head =>
      if rsp.hasHeader head.1 then rsp else rsp.setHeader head.1 head.2) rsp') := by
  induction heads generalizing rsp' with
  | nil => exact h
  | cons head heads ih =>
    refine ih (List.subset_of_cons_subset hheads) (h.trans ?_)
    dsimp only
    split
    · exact .refl rsp'
    · exact adds_setHeader rsp' (.default head (hheads List.mem_cons_self))

/-- The fields of the response stay, and what is added is one of these; and a body that is not
empty is given a length. -/
theorem completeHeaders_spec (req : HttpRequest) (rsp : HttpResponse) :
    Adds (server.AddedField rsp) rsp (server.completeHeaders req rsp) ∧
      (rsp.body ≠ [] →
        (server.completeHeaders req rsp).hasHeader (ascii "Content-Length") = true) := by
  have hdefaults := server.adds_defaults _ (List.Subset.refl _) (.refl rsp)
  unfold completeHeaders
  extract_lets rsp₁ rsp₂ rsp₃ rsp₄
  have h₂ : Adds (server.AddedField rsp) rsp rsp₂ := by
    refine hdefaults.trans (adds_setHeader rsp₁ ?_)
    split
    · exact .close
    · exact .keepAlive
  have h₃ : Adds (server.AddedField rsp) rsp₂ rsp₃ := by
    refine adds_ite rsp₂ fun hc => ?_
    rw [h₂.body] at hc ⊢
    exact .contentLength hc.1
  have h₄ : Adds (server.AddedField rsp) rsp₃ rsp₄ := adds_ite rsp₃ fun _ => .contentType
  have hrsp₄ := h₂.trans (h₃.trans h₄)
  have h₅ : Adds (server.AddedField rsp) rsp₄
      (if rsp₄.redirectFlag then rsp₄.setHeader (ascii "Location") rsp₄.redirectUrl else rsp₄) := by
    refine adds_ite rsp₄ fun hc => ?_
    rw [hrsp₄.redirectFlag] at hc
    rw [hrsp₄.redirectUrl]
    exact .location hc
  refine ⟨hrsp₄.trans h₅, fun hbody => (h₄.trans h₅).hasHeader ?_⟩
  by_cases hlength : rsp₂.hasHeader (ascii "Content-Length") = true
  · exact h₃.hasHeader hlength
  · have hset : rsp₃ = rsp₂.setHeader (ascii "Content-Length") (decimal rsp₂.body.length) :=
      if_pos ⟨h₂.body ▸ hbody, hlength⟩
    rw [hset]
    exact hasHeader_setHeader rsp₂ _ _

/-! ## 2. The text

The loop over the map appends line by line to a string, and what comes of it is a block of lines in
the sense of `Lib.HeaderBlock`. -/

/-- The second part of `WriteReponse`, for the order in which it finds the fields. -/
def responseTextIn (req : HttpRequest) (rsp : HttpResponse) (heads : List (Bytes × Bytes)) :
    Bytes :=
  req.version ++ ascii " " ++ decimalInt rsp.statu ++ ascii " " ++ Util.statuDesc rsp.statu ++
    ascii "\r\n" ++
    (heads.map fun head => head.1 ++ ascii ": " ++ head.2 ++ ascii "\r\n").flatten ++
    ascii "\r\n" ++ rsp.body

/-- The order in which the fields were set. -/
theorem responseTextIn_entries (req : HttpRequest) (rsp : HttpResponse) :
    responseTextIn req rsp rsp.headers.entries = responseText req rsp := rfl

/-- The status line. -/
def statusLine (req : HttpRequest) (rsp : HttpResponse) : Bytes :=
  req.version ++ ascii " " ++ decimalInt rsp.statu ++ ascii " " ++ Util.statuDesc rsp.statu

/-- The line of a field. -/
def fieldLine (head : Bytes × Bytes) : Bytes := head.1 ++ ascii ": " ++ head.2

/-- The text is a block of lines, and the body behind it. -/
theorem responseTextIn_eq (req : HttpRequest) (rsp : HttpResponse) (heads : List (Bytes × Bytes)) :
    responseTextIn req rsp heads =
      joinLines (statusLine req rsp :: heads.map fieldLine) ++ (crlfcrlf ++ rsp.body) := by
  have hlines := flatten_lines (List.cons_ne_nil (statusLine req rsp) (heads.map fieldLine))
  have hend : ascii "\r\n" = crlf := rfl
  have hcrlfcrlf : crlfcrlf = crlf ++ crlf := rfl
  rw [hcrlfcrlf, ← List.append_assoc, ← List.append_assoc, ← hlines]
  simp only [responseTextIn, hend, statusLine, fieldLine, List.map_cons, List.map_map,
    List.flatten_cons, Function.comp_def, List.append_assoc]

/-! ## 3. Its lines

A line of the block must not have a line end in it, or a client would see two.  `CleanFields` names
the values for which the program does not see to that itself. -/

/-- No reason phrase has a line end in it. -/
theorem inLine_statuDesc (statu : Int) : InLine (Util.statuDesc statu) := by
  have htable : ∀ entry ∈ statuMsg, InLine (ascii entry.2) := by decide +kernel
  exact Util.statuDesc_of_table (by decide) htable statu

theorem inLine_decimal (n : Nat) : InLine (decimal n) := by
  constructor
  · intro hmem
    exact absurd (isDigit_of_mem_decimal hmem) (by decide)
  · intro hmem
    exact absurd (isDigit_of_mem_decimal hmem) (by decide)

theorem inLine_decimalInt (n : Int) : InLine (decimalInt n) := by
  unfold decimalInt
  split
  · exact inLine_append.mpr ⟨by decide, inLine_decimal _⟩
  · exact inLine_decimal _

theorem isLine_statusLine {req : HttpRequest} (h : InLine req.version) (rsp : HttpResponse) :
    IsLine (statusLine req rsp) := by
  refine ⟨?_, ?_⟩
  · have hblank : InLine (ascii " ") := by decide
    simp only [statusLine, inLine_append]
    exact ⟨⟨⟨⟨h, hblank⟩, inLine_decimalInt _⟩, hblank⟩, inLine_statuDesc _⟩
  · simp [statusLine, ascii]

theorem isLine_fieldLine {head : Bytes × Bytes} (h : InLine head.1 ∧ InLine head.2) :
    IsLine (fieldLine head) := by
  refine ⟨?_, ?_⟩
  · simp only [fieldLine, inLine_append]
    exact ⟨⟨h.1, by decide⟩, h.2⟩
  · simp [fieldLine, ascii]

/-- The names and values that a handler, the settings of the server and the target of a redirect
bring into a response fit on their lines. -/
structure CleanFields (server : SiteServer ε) (rsp : HttpResponse) : Prop where
  headers : ∀ head ∈ rsp.headers.entries, InLine head.1 ∧ InLine head.2
  defaults : ∀ head ∈ server.defaultHeaders.entries, InLine head.1 ∧ InLine head.2
  location : rsp.redirectFlag = true → InLine rsp.redirectUrl

variable {server}

theorem CleanFields.completeHeaders {rsp : HttpResponse} (h : server.CleanFields rsp)
    (req : HttpRequest) :
    ∀ head ∈ (server.completeHeaders req rsp).headers.entries, InLine head.1 ∧ InLine head.2 := by
  intro head hmem
  have hlength : InLine (ascii "Content-Length") := by decide
  have hlocation : InLine (ascii "Location") := by decide
  rcases (server.completeHeaders_spec req rsp).1.added head hmem with hmem | hadded
  · exact h.headers head hmem
  · cases hadded with
    | default _ hmem => exact h.defaults head hmem
    | close | keepAlive | contentType => exact ⟨by decide, by decide⟩
    | contentLength => exact ⟨hlength, inLine_decimal _⟩
    | location hflag => exact ⟨hlocation, h.location hflag⟩

/-- **The lines of a response**, in any order of its fields. -/
theorem CleanFields.isLine {rsp : HttpResponse} (h : server.CleanFields rsp) {req : HttpRequest}
    (hversion : InLine req.version) {heads : List (Bytes × Bytes)}
    (hheads : heads.Perm (server.completeHeaders req rsp).headers.entries) :
    ∀ line ∈ statusLine req (server.completeHeaders req rsp) :: heads.map fieldLine,
      IsLine line := by
  intro line hmem
  rcases List.mem_cons.mp hmem with rfl | hmem
  · exact isLine_statusLine hversion _
  · obtain ⟨head, hhead, rfl⟩ := List.mem_map.mp hmem
    exact isLine_fieldLine (h.completeHeaders req head (hheads.mem_iff.mp hhead))

end SiteServer

end OnlineJudge.Net
