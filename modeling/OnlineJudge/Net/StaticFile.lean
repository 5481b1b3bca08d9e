/-
# Static files and their root directory

`HttpServer::IsFileHandler` and `FileHandler` (`net/http.hpp`) answer a `GET` or `HEAD` request with
the file `_basedir + path`, and with its `index.html` when the path ends in a slash. `ValidPath` is
there to keep clients inside `_basedir`: it counts the directory levels of the path, and refuses a
path that goes below level 0.

The count is not the one of the file system.  It takes `.` for a level, so that `/./..` is at level
0; it does not ask for the slash that separates the path from `_basedir`; and it sees the bytes
behind a NUL, at which the file name ends for the operating system. `static_confined_iff` is the
exact condition on a path, for every root directory at once.

The files themselves are a parameter: `isRegular` says of a name whether a regular file is there,
and the theorem holds for every such function.  A name is resolved by its components alone, so that
links are not followed.
-/
import OnlineJudge.Lib.LexicalPath
import OnlineJudge.Net.HttpContext

namespace OnlineJudge.Net

open ByteString LexicalPath

/-! ## 1. The handlers

The name of a file is put together from two strings and handed to the operating system, which stops
at a NUL and resolves the name from the root or from the working directory.  `Confined` is said of
that name. -/

/-- What the request contributes to the file name.  The code looks at `back()` of the path, which
is undefined for an empty path; no slash is taken for it here. -/
def pathSuffix (path : Bytes) : Bytes :=
  if path.getLast? = some 47 then path ++ ascii "index.html" else path

/-- The file name of `IsFileHandler` and of `FileHandler`. -/
def reqPath (basedir path : Bytes) : Bytes := basedir ++ pathSuffix path

/-- `IsFileHandler`.  `isRegular` is `Util::IsRegular`. -/
def isFileHandler (isRegular : Bytes → Bool) (basedir : Bytes) (req : HttpRequest) : Bool :=
  if basedir.isEmpty then false
  else if req.method ≠ ascii "GET" ∧ req.method ≠ ascii "HEAD" then false
  else if Util.validPath req.path = false then false
  else isRegular (reqPath basedir req.path)

/-- The file that is opened for the path lies inside the root directory.  Both names go to the
operating system as C strings. -/
def Confined (cwd : Dir) (basedir path : Bytes) : Prop :=
  Within (resolve cwd (cStr basedir)) (resolve cwd (cStr (reqPath basedir path)))

instance (cwd : Dir) (basedir path : Bytes) : Decidable (Confined cwd basedir path) :=
  inferInstanceAs (Decidable (Within _ _))

/-! ## 2. Which paths are confined

One direction is about any root directory, the other needs one only: a root whose name is longer
than the path, for which leaving it cannot be made up for. -/

/-- The suffix as the operating system sees it is empty, or it begins with a slash and its
components never climb above the directory they start in. -/
def StaysInside (path : Bytes) : Prop :=
  cStr (pathSuffix path) = [] ∨
    (cStr (pathSuffix path)).head? = some 47 ∧
      staysBelow 0 (components (cStr (pathSuffix path))) = true

instance (path : Bytes) : Decidable (StaysInside path) :=
  inferInstanceAs (Decidable (_ = [] ∨ _ = some 47 ∧ _ = true))

/-- A C string ends at the first NUL of the two parts. -/
theorem cStr_append (s t : Bytes) : cStr (s ++ t) = if 0 ∈ s then cStr s else s ++ cStr t := by
  unfold cStr
  split
  · rename_i hnul
    obtain ⟨pre, post, rfl, hpre⟩ := List.eq_append_cons_of_mem hnul
    rw [List.append_assoc, List.cons_append, (takeWhile_ne_append hpre _).1,
      (takeWhile_ne_append hpre post).1]
  · rename_i hnul
    refine List.takeWhile_append_of_pos fun b hb => ?_
    exact bne_iff_ne.mpr fun hb0 => hnul (hb0 ▸ hb)

/-- Behind a root directory, a suffix with a slash in front is resolved from there. -/
theorem resolve_append_slash (cwd : Dir) {basedir : Bytes} (hbase : basedir ≠ []) (rest : Bytes) :
    resolve cwd (basedir ++ 47 :: rest) = walk (resolve cwd basedir) (components rest) := by
  have hhead : (basedir ++ 47 :: rest).head? = basedir.head? :=
    List.head?_append_of_ne_nil _ hbase
  rw [resolve, components_append_slash, walk_append, hhead]
  rfl

/-- **A path that stays inside is confined**, whatever the root directory. -/
theorem StaysInside.confined {path : Bytes} (h : StaysInside path) (cwd : Dir) {basedir : Bytes}
    (hbase : basedir ≠ []) : Confined cwd basedir path := by
  unfold Confined reqPath
  rw [cStr_append]
  split
  · exact List.prefix_rfl
  · rename_i hnul
    rw [cStr_of_not_mem hnul]
    rcases h with hnil | ⟨hslash, hstays⟩
    · rw [hnil, List.append_nil]
      exact List.prefix_rfl
    · obtain ⟨rest, hrest⟩ := List.head?_eq_some_iff.mp hslash
      have hcomp : components (47 :: rest) = [] :: components rest :=
        components_append_slash [] rest
      rw [hrest, hcomp] at hstays
      rw [hrest, resolve_append_slash cwd hbase]
      have hwithin : Within (resolve cwd basedir)
          (walk (resolve cwd basedir ++ []) (components rest)) := walk_within _ [] hstays
      rwa [List.append_nil] at hwithin

/-- There are names of every length for a directory. -/
theorem exists_root (n : Nat) : ∃ basedir : Bytes, basedir.length = n ∧ 47 ∉ basedir ∧
    0 ∉ basedir ∧ (2 < n → resolve [] basedir = [basedir]) := by
  have hmem : ∀ b ∈ List.replicate n (120 : UInt8), b = 120 := fun b hb =>
    List.eq_of_mem_replicate hb
  have hslash : 47 ∉ List.replicate n (120 : UInt8) := fun hb => absurd (hmem _ hb) (by decide)
  refine ⟨List.replicate n 120, List.length_replicate, hslash,
    fun hb => absurd (hmem _ hb) (by decide), fun hn => ?_⟩
  have hlen : ∀ c : Bytes, c.length ≤ 2 → List.replicate n 120 ≠ c := by
    rintro c hc rfl
    rw [List.length_replicate] at hc
    omega
  have hstays : ¬ Stays (List.replicate n 120) := by
    rintro (hnil | hdot)
    · exact hlen [] (by decide) hnil
    · exact hlen (ascii ".") (by decide) hdot
  rw [resolve, components_of_not_mem hslash, ite_self, walk_cons, walk_nil, enter,
    if_neg hstays, if_neg (hlen (ascii "..") (by decide)), List.nil_append]

/-- A suffix without a slash in front changes the last name of what it is appended to. -/
theorem not_mem_components_append {basedir : Bytes} {b : UInt8} {rest : Bytes}
    (hslash : 47 ∉ basedir) (hb : b ≠ 47) (hlen : (b :: rest).length < basedir.length) :
    basedir ∉ components (basedir ++ b :: rest) := by
  rcases not_mem_or_first 47 (b :: rest) with hno | ⟨pre, post, heq, hpre⟩
  · have hwhole : 47 ∉ basedir ++ b :: rest := by
      rw [List.mem_append]
      exact not_or.mpr ⟨hslash, hno⟩
    rw [components_of_not_mem hwhole, List.mem_singleton]
    intro hsame
    have := congrArg List.length hsame
    rw [List.length_append, List.length_cons] at this
    omega
  · have hfirst : 47 ∉ basedir ++ pre := by
      rw [List.mem_append]
      exact not_or.mpr ⟨hslash, hpre⟩
    rw [heq, ← List.append_assoc, components_append_slash, components_of_not_mem hfirst]
    intro hin
    rcases List.mem_cons.mp hin with hsame | hpost
    · -- `pre` is not empty: it begins with `b`
      have hnil : pre = [] := List.self_eq_append_right.mp hsame
      rw [hnil, List.nil_append] at heq
      exact hb (List.head_eq_of_cons_eq heq)
    · have hle := length_le_of_mem_components hpost
      have hpostlen := congrArg List.length heq
      rw [List.length_append, List.length_cons (a := 47)] at hpostlen
      omega

/-- **A path that does not stay inside escapes**: from a root directory whose name is longer than
the path, the path leads to a file that is not there. -/
theorem exists_escape {path : Bytes} (h : ¬ StaysInside path) :
    ∃ basedir : Bytes, basedir ≠ [] ∧ ¬ Confined [] basedir path := by
  obtain ⟨hne, hclimb⟩ := not_or.mp h
  obtain ⟨basedir, hlen, hslash, hnul, hroot⟩ :=
    exists_root ((cStr (pathSuffix path)).length + 3)
  have hresolve := hroot (by omega)
  have hbase : basedir ≠ [] := List.ne_nil_of_length_pos (by omega)
  refine ⟨basedir, hbase, fun hconfined => ?_⟩
  rw [Confined, reqPath, cStr_append, if_neg hnul, cStr_of_not_mem hnul, hresolve] at hconfined
  -- the name of the root directory would have to be one of the names of the file
  have hmem := hconfined.subset (List.mem_singleton_self basedir)
  revert hmem
  cases hsuffix : cStr (pathSuffix path) with
  | nil => exact absurd hsuffix hne
  | cons b rest =>
    rw [hsuffix] at hclimb hlen
    by_cases hb : b = 47
    · -- the suffix climbs out
      subst hb
      have hcomp : components (47 :: rest) = [] :: components rest :=
        components_append_slash [] rest
      rw [hcomp] at hclimb
      rw [resolve_append_slash [] hbase, hresolve]
      refine not_mem_walk [] (fun hin => ?_) List.not_mem_nil ?_
      · have hle := length_le_of_mem_components hin
        rw [List.length_cons] at hlen
        omega
      · cases hstays : staysBelow 0 (components rest) with
        | false => rfl
        | true => exact absurd ⟨rfl, hstays⟩ hclimb
    · -- the suffix makes a longer name out of the name of the root directory
      intro hmem
      rw [resolve, ite_self] at hmem
      rcases mem_walk hmem with hnil | hin
      · exact List.not_mem_nil hnil
      · exact not_mem_components_append hslash hb (by omega) hin

/-- **When static files are confined to their root directory.**  For a request: every file that
the handlers open for it, under any root directory, lies inside that directory, if and only if
the request is not for a static file (by its method, or because `ValidPath` refuses the path), or
the path stays inside. -/
theorem static_confined_iff (req : HttpRequest) :
    (∀ (cwd : Dir) (basedir : Bytes) (isRegular : Bytes → Bool),
      isFileHandler isRegular basedir req = true → Confined cwd basedir req.path) ↔
    (req.method = ascii "GET" ∨ req.method = ascii "HEAD" → Util.validPath req.path = true →
      StaysInside req.path) := by
  constructor
  · intro h hmethod hvalid
    by_contra hout
    obtain ⟨basedir, hbase, hescape⟩ := exists_escape hout
    refine hescape (h [] basedir (fun _ => true) ?_)
    have hget : ¬ (req.method ≠ ascii "GET" ∧ req.method ≠ ascii "HEAD") := by
      rintro ⟨hget, hhead⟩
      exact hmethod.elim hget hhead
    simp only [isFileHandler, List.isEmpty_iff, hbase, hget, hvalid, if_false, Bool.true_eq_false]
  · intro h cwd basedir isRegular hfile
    unfold isFileHandler at hfile
    split at hfile
    · cases hfile
    · rename_i hbase
      split at hfile
      · cases hfile
      · rename_i hmethod
        split at hfile
        · cases hfile
        · rename_i hvalid
          have hget : req.method = ascii "GET" ∨ req.method = ascii "HEAD" := by
            by_contra hno
            exact hmethod (not_or.mp hno)
          exact (h hget (by simpa using hvalid)).confined cwd
            fun hnil => hbase (List.isEmpty_iff.mpr hnil)

/-- A request line whose path `ValidPath` lets through leads out of the root directory: `.` counts
as a level, so that `..` is at level 0 again. -/
theorem not_always_confined :
    ¬ ∀ (line : Bytes) (ctx : HttpContext),
      HttpContext.parseHttpLine .reSet line = .ok (ctx, true) →
      ∀ (cwd : Dir) (basedir : Bytes) (isRegular : Bytes → Bool), basedir ≠ [] →
        isFileHandler isRegular basedir ctx.request = true →
        Confined cwd basedir ctx.request.path := by
  intro h
  have hparse : HttpContext.parseHttpLine .reSet
      (ascii "GET /./../config/config.yaml HTTP/1.1\r\n") =
      .ok ({ HttpContext.reSet with
        request := { HttpContext.reSet.request with
          method := ascii "GET"
          path := ascii "/./../config/config.yaml"
          version := ascii "HTTP/1.1" } }, true) := by
    decide +kernel
  have hconfined := h _ _ hparse [ascii "srv"] (ascii "wwwroot") (fun _ => true)
    (by decide) (by decide)
  exact absurd hconfined (by decide)

end OnlineJudge.Net
