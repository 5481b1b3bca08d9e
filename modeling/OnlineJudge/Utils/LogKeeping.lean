/-
# No line is lost

A line is written into the file that is open.  When that is rotated, its content is moved into an
archive that was not there, or stays where it is, whatever the archive command does.  So the files
and archives of the logger are containers whose contents move, with the archives sealed.

* `steps_files`: a call is a sequence of such steps, and writes the line of the call.
* `rotation_loses_no_line`: after any run every line that was written into a file stands in exactly
  one file or archive, in order, and the archives are as they were.

What the archive command does is not known: it may fail, it may leave something behind, and it may
do its work.  The logger does not ask.  It loses nothing all the same, since the name is free and a
file that is kept is appended to.
-/
import OnlineJudge.Lib.Shelves
import OnlineJudge.Utils.Logger

namespace OnlineJudge.Utils

open Shelves

/-! ## 1. Files and archives as containers

The library on containers speaks of boxes whose contents are written to or moved.  Here a box is a
log file, or an archive, which is sealed once it is there. -/

/-- A log file, or an archive of a directory. -/
inductive LogContainer (K : Type*)
  | log (key : K × Bytes)
  | archive (dir : K) (name : Bytes)
deriving DecidableEq

/-- Archives are sealed. -/
def LogContainer.Sealed {K : Type*} : LogContainer K → Prop
  | .log _ => False
  | .archive _ _ => True

namespace LogFiles

variable {K : Type*}

/-- What the files and archives hold. -/
def content (f : LogFiles K) : LogContainer K → Option Bytes
  | .log key => f.logs key
  | .archive dir name => (f.archives dir).find? name

/-- The files after these lines have been written. -/
def store (f : LogFiles K) (lines : List Bytes) : Store (LogContainer K) UInt8 :=
  ⟨f.content, lines⟩

end LogFiles

namespace Logger

variable {K : Type*}

/-- The line that a call writes into a file that is open. -/
def lines (s : Logger K) : LogCall → List Bytes
  | .init _ _ _ => []
  | .shutdown => []
  | .log e _ _ => if (s.target e).isSome then [e.text] else []

/-- The lines that a run writes into files. -/
def written [DecidableEq K] (dirOf : Bytes → K) (s : Logger K) : List LogCall → List Bytes
  | [] => []
  | call :: calls => s.lines call ++ written dirOf (s.step dirOf call) calls

end Logger

/-! ## 2. What a call does to the containers

Function by function: an opening makes an empty box, a line goes to the end of one, a rotation moves
or leaves. -/

namespace LogFiles

variable {K : Type*} [DecidableEq K] (dirOf : Bytes → K)

theorem content_update_logs {f g : LogFiles K} {key : K × Bytes} {v : Option Bytes}
    (hlogs : g.logs = Function.update f.logs key v) (harchives : g.archives = f.archives) :
    g.content = Function.update f.content (.log key) v := by
  funext i
  cases i with
  | log key' =>
    rw [content, hlogs]
    by_cases hkey : key' = key
    · subst hkey
      rw [Function.update_self, Function.update_self]
    · have hne : LogContainer.log key' ≠ .log key := fun h => hkey (LogContainer.log.inj h)
      rw [Function.update_of_ne hkey, Function.update_of_ne hne]
      rfl
  | archive dir name =>
    have hne : LogContainer.archive dir name ≠ .log key := by
      intro h
      cases h
    rw [content, harchives, Function.update_of_ne hne]
    rfl

theorem content_putArchive (f : LogFiles K) (name c : Bytes) :
    (f.putArchive dirOf name c).content =
      Function.update f.content (.archive (f.dir dirOf) name) (some c) := by
  funext i
  cases i with
  | log key =>
    have hne : LogContainer.log key ≠ .archive (f.dir dirOf) name := by
      intro h
      cases h
    rw [Function.update_of_ne hne]
    rfl
  | archive dir name' =>
    rw [content, putArchive]
    dsimp only
    by_cases hdir : dir = f.dir dirOf
    · subst hdir
      rw [Function.update_self, StrMap.find?_set]
      by_cases hname : name' = name
      · subst hname
        rw [if_pos rfl, Function.update_self]
      · have hne : LogContainer.archive (f.dir dirOf) name' ≠ .archive (f.dir dirOf) name :=
          fun h => hname (LogContainer.archive.inj h).2
        rw [if_neg hname, Function.update_of_ne hne]
        rfl
    · have hne : LogContainer.archive dir name' ≠ .archive (f.dir dirOf) name :=
        fun h => hdir (LogContainer.archive.inj h).1
      rw [Function.update_of_ne hdir, Function.update_of_ne hne]
      rfl

variable {f : LogFiles K} (w : List Bytes)

/-- The line is written at the end of the file that is open. -/
theorem step_append {key : K × Bytes} {c : Bytes} (hc : f.logs key = some c) (text : Bytes) :
    Step LogContainer.Sealed (f.store w) ((f.append key text).store (w ++ [text])) := by
  have hcontent := content_update_logs (g := f.append key text) (append_logs hc text) rfl
  rw [store, store, hcontent]
  exact Step.write (s := f.store w) (i := .log key) (fun h => h) hc text

/-- An opening makes a file, or does nothing. -/
theorem steps_createNewLogFile (o : Opening) :
    Steps LogContainer.Sealed (f.store w) ((f.createNewLogFile dirOf o).store w) := by
  cases ho : o.opens with
  | false =>
    rw [createNewLogFile_closed dirOf f ho]
    exact .refl
  | true =>
    have hcontent : (f.createNewLogFile dirOf o).content =
        Function.update f.content (.log (f.dir dirOf, o.date.logName))
          (some ((f.logs (f.dir dirOf, o.date.logName)).getD [])) := by
      rw [createNewLogFile_open dirOf f ho]
      exact content_update_logs rfl rfl
    rw [store, store, hcontent]
    cases hlog : f.logs (f.dir dirOf, o.date.logName) with
    | none =>
      exact .single (Step.make (s := f.store w) (i := .log (f.dir dirOf, o.date.logName)) hlog [])
    | some c =>
      have hsame : Function.update f.content (.log (f.dir dirOf, o.date.logName)) (some c) =
          f.content := Function.update_eq_self_iff.mpr hlog.symm
      rw [Option.getD_some, hsame]

/-- The archive command moves the content, or puts an archive down where there was none. -/
theorem steps_runArchive {name : Bytes} {c : Bytes} (hc : f.logs (f.current dirOf) = some c)
    (hfree : (f.archives (f.dir dirOf)).find? name = none) (a : Archiving) :
    Steps LogContainer.Sealed (f.store w) ((f.runArchive dirOf name a).store w) := by
  cases a with
  | done =>
    have hcontent : (f.runArchive dirOf name .done).content =
        Function.update (Function.update f.content (.archive (f.dir dirOf) name) (some c))
          (.log (f.current dirOf)) none := by
      rw [runArchive_done dirOf hc, ← content_putArchive]
      exact content_update_logs rfl rfl
    rw [store, store, hcontent]
    exact .single (Step.move (s := f.store w) (i := .log (f.current dirOf)) (fun h => h) hc hfree)
  | failed left =>
    cases left with
    | none => exact .refl
    | some left =>
      rw [runArchive, store, store, content_putArchive]
      exact .single (Step.make (s := f.store w) (i := .archive (f.dir dirOf) name) hfree left)

theorem steps_rotateLogFile {c : Bytes} (hc : f.logs (f.current dirOf) = some c) (a : Archiving)
    (o : Opening) :
    Steps LogContainer.Sealed (f.store w) ((f.rotateLogFile dirOf a o).store w) := by
  obtain ⟨name, hfree, heq⟩ := exists_rotateLogFile dirOf f a o
  have harchived := steps_runArchive dirOf (f := f.closeFile) w hc hfree a
  rw [heq]
  exact harchived.trans (steps_createNewLogFile dirOf w o)

end LogFiles

namespace Logger

variable {K : Type*} [DecidableEq K] (dirOf : Bytes → K)

/-- **A call writes its line, and moves contents into archives that were not there.** -/
theorem steps_files {s : Logger K} (hs : s.files.Holds dirOf) (w : List Bytes) (call : LogCall) :
    Steps LogContainer.Sealed (s.files.store w)
      ((s.step dirOf call).files.store (w ++ s.lines call)) := by
  cases call with
  | init cfg creates o =>
    rw [step, files_init, lines, List.append_nil]
    split
    · exact .refl
    · dsimp only
      split
      · exact LogFiles.steps_createNewLogFile dirOf
          (f := { s.files.cleared with logDir := cfg.file }) w o
      · exact .refl
  | shutdown =>
    rw [lines, List.append_nil]
    exact .refl
  | log e a o =>
    rw [step, files_log, lines]
    cases htarget : s.target e with
    | none =>
      rw [Option.isSome_none, if_neg Bool.false_ne_true, List.append_nil]
    | some key =>
      have hopen := handle_of_target htarget
      obtain rfl := hs.key key hopen
      obtain ⟨c, hc⟩ := hs.content _ hopen
      have hwrite := Relation.ReflTransGen.single (LogFiles.step_append w hc e.text)
      rw [Option.isSome_some, if_pos rfl]
      dsimp only
      split
      · have hafter := LogFiles.append_current dirOf hc e.text
        exact hwrite.trans (LogFiles.steps_rotateLogFile dirOf _ hafter a o)
      · exact hwrite

/-- A run is a sequence of such steps. -/
theorem steps_run {s : Logger K} (hs : s.files.Holds dirOf) (w : List Bytes)
    (calls : List LogCall) :
    Steps LogContainer.Sealed (s.files.store w)
      ((s.run dirOf calls).files.store (w ++ s.written dirOf calls)) := by
  induction calls generalizing s w with
  | nil =>
    rw [written, List.append_nil]
    exact .refl
  | cons call calls ih =>
    have hfirst := steps_files dirOf hs w call
    have hrest := ih (holds_step dirOf hs call) (w ++ s.lines call)
    rw [List.append_assoc] at hrest
    exact hfirst.trans hrest

/-! ## 3. Every run

The lines that were written, in order, are placed in the boxes, and each box has its own at the end.
-/

/-- **Rotation loses no line.**  After any calls, with any dates, limits and outcomes of the archive
command, on any files and archives: every line that was written into a file has its place in a file
or archive that is there, each of these ends with the lines that are placed in it, in the order in
which they were written, and an archive that was there at any time is there as it was. -/
theorem rotation_loses_no_line (logs : K × Bytes → Option Bytes) (archives : K → StrMap Bytes)
    (calls : List LogCall) :
    (∃ base place, Filed
      (((new logs archives).run dirOf calls).files.store ((new logs archives).written dirOf calls))
        base place) ∧
      ∀ pre post, calls = pre ++ post → ∀ dir name c,
        (((new logs archives).run dirOf pre).files.archives dir).find? name = some c →
          (((new logs archives).run dirOf calls).files.archives dir).find? name = some c := by
  constructor
  · have hcontainer : Nonempty (LogContainer K) := ⟨.log (dirOf [], [])⟩
    have hstart : Kept ((new logs archives).files.store []) := kept_of_written_nil rfl
    exact hstart.steps (steps_run dirOf (holds_new dirOf logs archives) [] calls)
  · intro pre post hsplit dir name c hc
    have hpre := holds_run dirOf (holds_new dirOf logs archives) pre
    have hsteps := steps_run dirOf hpre [] post
    rw [hsplit, run, List.foldl_append]
    exact sealed_steps hsteps (i := .archive dir name) trivial hc

end Logger

end OnlineJudge.Utils
