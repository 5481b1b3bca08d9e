/-
# How long the scan of a multipart body takes

The loop of `ParseMultipartBody` (`net/http.hpp`) is a `while (true)`, and a server with one event
loop waits for it.  A round that does not leave the loop takes one boundary behind the cursor
(`round_takes`), and the next cursor lies behind that boundary.  So the boundaries that the rounds
take do not overlap, and there is at most one round more than such boundaries in the body
(`multipart_rounds`).

The bound is in boundaries and not in bytes.  A round searches the body from its cursor on, so the
rounds say how often that is done, and nothing is said here of what one search costs.
-/
import OnlineJudge.Lib.Occurrences
import OnlineJudge.Net.Multipart

namespace OnlineJudge.Net

open ByteString Occurrences

/-! ## 1. A round

A round ends the loop or finds a part, and a part is found by its boundary.  So there is an
occurrence at the cursor or behind it, and the new cursor is past its end. -/

theorem occursAt_of_findFrom {needle s : Bytes} {pos k : Nat}
    (h : findFrom needle s pos = some k) : OccursAt needle s k := by
  have hle := (findFrom_eq_some h).2
  exact occursAt_iff.mpr ⟨by omega, (prefix_of_findFrom h).1⟩

/-- A round that finds a part takes a boundary, and goes on behind it.  The end of the part does not
matter for this: it may be the end of the body. -/
theorem partAt_takes {boundary body : Bytes} {cursor : Nat} {part : Part}
    (h : partAt boundary body cursor = some part) :
    ∃ pos, cursor ≤ pos ∧ OccursAt boundary body pos ∧
      pos + boundary.length < part.nextBoundary := by
  obtain ⟨pos, hpos, hbegin, -, hnext⟩ := partAt_found h
  have hcontent := (findFrom_eq_some hnext).1
  exact ⟨pos, (findFrom_eq_some hpos).1, occursAt_of_findFrom hpos, by omega⟩

/-- **A round that goes on** takes a boundary at or behind the cursor. -/
theorem round_takes {boundary body : Bytes} {cursor next : Nat} {files files' : StrMap File}
    (h : multipartRound boundary body cursor files = .ok (files', some next)) :
    ∃ pos, cursor ≤ pos ∧ OccursAt boundary body pos ∧ pos + boundary.length < next := by
  rw [multipartRound_eq, Except.ok.injEq] at h
  cases hpart : partAt boundary body cursor with
  | none => simp [hpart] at h
  | some part =>
    simp only [hpart, Prod.mk.injEq, Option.some.injEq] at h
    obtain ⟨-, rfl⟩ := h
    exact partAt_takes hpart

/-! ## 2. The loop

The induction is on the number of boundaries that are still ahead.  Each round takes one of them
away, and any list of boundaries that do not overlap can be extended by the one that was taken. -/

/-- The loop ends within `n + 1` rounds if no more than `n` boundaries lie ahead of the cursor. -/
theorem multipartLoop_within {boundary body : Bytes} {n cursor : Nat} (files : StrMap File)
    (h : ∀ ps, Apart boundary body ps → (∀ p ∈ ps, cursor ≤ p) → ps.length ≤ n) :
    ∃ files', multipartLoop boundary body (n + 1) cursor files = .ok files' := by
  induction n generalizing cursor files with
  | zero =>
    obtain ⟨files', next, hround, -⟩ := multipartRound_ok boundary body cursor files
    cases next with
    | none =>
      refine ⟨files', ?_⟩
      rw [multipartLoop, hround]
    | some next =>
      obtain ⟨pos, hcursor, hpos, -⟩ := round_takes hround
      have hone := h [pos] (Apart.cons hpos (Apart.nil boundary body) (by simp)) (by simpa)
      rw [List.length_singleton] at hone
      omega
  | succ n ih =>
    obtain ⟨files', next, hround, -⟩ := multipartRound_ok boundary body cursor files
    rw [multipartLoop, hround]
    cases next with
    | none => exact ⟨files', rfl⟩
    | some next =>
      obtain ⟨pos, hcursor, hpos, hnext⟩ := round_takes hround
      refine ih files' ?_
      intro ps hps hahead
      -- the boundary of this round stands in front of those ahead of the next cursor
      have hall : Apart boundary body (pos :: ps) := by
        refine Apart.cons hpos hps ?_
        intro q hq
        have := hahead q hq
        omega
      have hbound := h (pos :: ps) hall (by
        intro q hq
        rcases List.mem_cons.mp hq with rfl | hq
        · exact hcursor
        · have := hahead q hq
          omega)
      rw [List.length_cons] at hbound
      omega

/-- How many rounds are allowed makes no difference to a loop that ends. -/
theorem multipartLoop_unique {boundary body : Bytes} {n m cursor : Nat}
    {files files₁ files₂ : StrMap File}
    (h₁ : multipartLoop boundary body n cursor files = .ok files₁)
    (h₂ : multipartLoop boundary body m cursor files = .ok files₂) : files₁ = files₂ := by
  induction n generalizing m cursor files with
  | zero => cases h₁
  | succ n ih =>
    cases m with
    | zero => cases h₂
    | succ m =>
      rw [multipartLoop] at h₁ h₂
      obtain ⟨files', next, hround, -⟩ := multipartRound_ok boundary body cursor files
      rw [hround] at h₁ h₂
      cases next with
      | none =>
        obtain rfl := Except.ok.inj h₁
        exact Except.ok.inj h₂
      | some next => exact ih h₁ h₂

/-- **The scan of a multipart body ends.**  For every body, and every content type that names a
boundary, a round that does not leave the loop moves the cursor forward, and the loop leaves with
the files within one round more than there are boundaries in the body that do not overlap. -/
theorem multipart_rounds (req : HttpRequest) {boundary : Bytes}
    (hboundary : boundaryOf (req.getHeader (ascii "Content-Type")) = some boundary) :
    (∀ cursor next files files',
      multipartRound boundary req.body cursor files = .ok (files', some next) → cursor < next) ∧
    ∃ k, IsGreatest {n | ∃ ps, Apart boundary req.body ps ∧ ps.length = n} k ∧
      ∃ files, multipartLoop boundary req.body (k + 1) 0 req.files = .ok files ∧
        parseMultipartBody req = .ok { req with files := files } := by
  constructor
  · intro cursor next files files' hround
    obtain ⟨pos, hcursor, -, hnext⟩ := round_takes hround
    omega
  · obtain ⟨segs, hsegs⟩ := exists_segments (boundaryOf_ne_nil hboundary) req.body
    have hgreatest := hsegs.isGreatest
    refine ⟨segs.length - 1, hgreatest, ?_⟩
    obtain ⟨files, hfiles⟩ := @multipartLoop_within boundary req.body (segs.length - 1) 0 req.files
      (fun ps hps _ => hgreatest.2 ⟨ps, hps, rfl⟩)
    refine ⟨files, hfiles, ?_⟩
    have hloop := multipartLoop_eq boundary req.body req.files (Nat.zero_le req.body.length)
      (Nat.lt_succ_self (req.body.length + 0))
    rw [parseMultipartBody_eq, parts, hboundary, multipartLoop_unique hfiles hloop]

/-- A body in which the boundary stands twice, with the header of a file between the two. -/
theorem multipart_rounds_emptyFile :
    ∃ k, IsGreatest {n | ∃ ps, Apart (ascii "--B") emptyFileRequest.body ps ∧ ps.length = n} k ∧
      ∃ files, multipartLoop (ascii "--B") emptyFileRequest.body (k + 1) 0
          emptyFileRequest.files = .ok files ∧
        parseMultipartBody emptyFileRequest = .ok { emptyFileRequest with files := files } :=
  (multipart_rounds emptyFileRequest (by decide)).2

end OnlineJudge.Net
