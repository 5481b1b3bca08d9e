/-
# The logger and its files

`Logger` (`utils/logger.cpp`) writes its lines into a file of the log directory that is named by the
date.  When the counter `current_file_size_` has reached the limit, the file is archived under the
first free name by a command whose result is ignored, and the file of the day is opened, to be
appended to.

The directory is what the operating system makes of the string in the configuration; in a directory,
files are told apart by their names.  What comes from outside is an argument of each call: the
clock, whether directories and files can be opened, and what has become of the archive command.

* `exists_archivePath`: the search for a free name ends with one.
* `Logger.files_log`, `Logger.files_init`: what a call does to the files.
* `Logger.holds_step`: the handle is always that of the current file, which is there.

A line has a level, a place and a text, and the logger is initialised or not.  All of that decides
whether a line is written, and the modules on lost lines and on the counter need no more of it than
`files_log` says.
-/
import Mathlib.Data.List.Perm.Subperm
import OnlineJudge.Lib.ByteString
import OnlineJudge.Lib.StrMap

namespace OnlineJudge.Utils

open ByteString

/-! ## 1. Configuration and names

Names are made of the date and a number.  What can go wrong in the world is an argument of a call:
`Opening` and `Archiving`. -/

inductive LogLevel
  | debug
  | info
  | warn
  | error
deriving DecidableEq, Repr

/-- `static_cast<int>(level)`. -/
def LogLevel.toInt : LogLevel → Int
  | debug => 0
  | info => 1
  | warn => 2
  | error => 3

def LogLevel.levelString : LogLevel → Bytes
  | debug => ascii "DEBUG"
  | info => ascii "INFO"
  | warn => ascii "WARN"
  | error => ascii "ERROR"

structure LoggingConfig where
  level : LogLevel
  toStdout : Bool
  file : Bytes
  maxFileSize : Nat
deriving DecidableEq

/-- The defaults. -/
def LoggingConfig.default : LoggingConfig := ⟨.info, true, [], 10 * 1024 * 1024⟩

/-- The local date. -/
structure LocalDate where
  year : Int
  month : Int
  day : Int
deriving DecidableEq

/-- `GetTimestampParts`: the date in the names of files. -/
def LocalDate.str (d : LocalDate) : Bytes :=
  decimalInt d.year ++ 95 :: (decimalInt d.month ++ 95 :: decimalInt d.day)

/-- `GetTimestampParts`: the name of the file of the day. -/
def LocalDate.logName (d : LocalDate) : Bytes := ascii "log_" ++ (d.str ++ ascii ".txt")

/-- The name of the archive with this number. -/
def archiveName (date : Bytes) (seq : Nat) : Bytes :=
  ascii "log_" ++ (date ++ ((if seq = 0 then [] else 46 :: decimal seq) ++ ascii ".tar.gz"))

/-- What a `Log` call is given, and the time stamp of its line. -/
structure LogEntry where
  level : LogLevel
  file : Bytes
  line : Int
  message : Bytes
  stamp : Bytes
deriving DecidableEq

/-- The line. -/
def LogEntry.text (e : LogEntry) : Bytes :=
  e.stamp ++ ascii " [" ++ e.level.levelString ++ ascii "] " ++ e.file ++ ascii ":" ++
    decimalInt e.line ++ ascii " " ++ e.message ++ [10]

/-- What happens to an attempt to open the file of the day. -/
structure Opening where
  date : LocalDate
  opens : Bool
deriving DecidableEq

/-- What becomes of the archive command: the archive is made and the file removed, or the file is
kept, and there may be something left under the name of the archive. -/
inductive Archiving
  | done
  | failed (left : Option Bytes)
deriving DecidableEq

/-- The calls, each with what the world answers to it: whether the directory and the files can be
made, and what becomes of an archive. -/
inductive LogCall
  | init (cfg : LoggingConfig) (creates : Bool) (o : Opening)
  | shutdown
  | log (e : LogEntry) (a : Archiving) (o : Opening)
deriving DecidableEq

/-! ## 2. The files

The state of the directory and the fields of the logger that speak of it.  An archive is never
opened, so it is only its content. -/

/-- The fields of `Logger` for its files, and the files.  `current_log_path_` is `log_dir_`, a slash
and `currentLogName`; the handle is the file that is open; an archive is what is in it. -/
structure LogFiles (K : Type*) where
  logDir : Bytes
  currentLogName : Bytes
  currentDateStr : Bytes
  currentFileSize : Nat
  fileHandle : Option (K × Bytes)
  logs : K × Bytes → Option Bytes
  archives : K → StrMap Bytes

/-- The search for a name that is free, for at most `n` numbers. -/
def freeName (archives : StrMap Bytes) (date : Bytes) : Nat → Nat → Option Bytes
  | 0, _ => none
  | n + 1, seq =>
    if (archives.find? (archiveName date seq)).isSome then freeName archives date n (seq + 1)
    else some (archiveName date seq)

/-- The name that the search ends with. -/
def archivePath (archives : StrMap Bytes) (date : Bytes) : Option Bytes :=
  freeName archives date (archives.entries.length + 1) 0

namespace LogFiles

variable {K : Type*} [DecidableEq K]

def closeFile (f : LogFiles K) : LogFiles K := { f with fileHandle := none }

/-- Nothing is open. -/
def cleared (f : LogFiles K) : LogFiles K :=
  { f.closeFile with
    logDir := []
    currentLogName := []
    currentDateStr := []
    currentFileSize := 0 }

/-- The line in the file that is open, and the counter. -/
def append (f : LogFiles K) (key : K × Bytes) (text : Bytes) : LogFiles K :=
  { f with
    logs := Function.update f.logs key ((f.logs key).map (· ++ text))
    currentFileSize := f.currentFileSize + text.length }

variable (dirOf : Bytes → K)

/-- The directory of the logger. -/
def dir (f : LogFiles K) : K := dirOf f.logDir

/-- `current_log_path_`. -/
def current (f : LogFiles K) : K × Bytes := (f.dir dirOf, f.currentLogName)

/-- `CreateNewLogFile`.  A file that is there is appended to. -/
def createNewLogFile (f : LogFiles K) (o : Opening) : LogFiles K :=
  let f := { f.closeFile with
    currentDateStr := o.date.str
    currentLogName := o.date.logName }
  let key := f.current dirOf
  if o.opens then
    { f with
      fileHandle := some key
      logs := Function.update f.logs key (some ((f.logs key).getD []))
      currentFileSize := 0 }
  else f

/-- A file under the name of an archive. -/
def putArchive (f : LogFiles K) (name content : Bytes) : LogFiles K :=
  { f with
    archives := Function.update f.archives (f.dir dirOf)
      ((f.archives (f.dir dirOf)).set name content) }

/-- The archive command. -/
def runArchive (f : LogFiles K) (name : Bytes) : Archiving → LogFiles K
  | .done =>
    match f.logs (f.current dirOf) with
    | none => f
    | some content =>
      { f.putArchive dirOf name content with
        logs := Function.update f.logs (f.current dirOf) none }
  | .failed none => f
  | .failed (some left) => f.putArchive dirOf name left

def rotateLogFile (f : LogFiles K) (a : Archiving) (o : Opening) : LogFiles K :=
  let f := f.closeFile
  match archivePath (f.archives (f.dir dirOf)) f.currentDateStr with
  | none => f.createNewLogFile dirOf o
  | some name => (f.runArchive dirOf name a).createNewLogFile dirOf o

end LogFiles

/-! ## 3. The logger

The functions of the interface.  They take a lock in the source, so that a run of calls is a list.
-/

/-- `Logger`.  `stdout` is a record of the standard output. -/
structure Logger (K : Type*) where
  cfg : LoggingConfig
  initialized : Bool
  files : LogFiles K
  stdout : Bytes

namespace Logger

variable {K : Type*}

/-- The logger before the first call, with the files that are there. -/
def new (logs : K × Bytes → Option Bytes) (archives : K → StrMap Bytes) : Logger K where
  cfg := .default
  initialized := false
  files := ⟨[], [], [], 0, none, logs, archives⟩
  stdout := []

def shutdown (s : Logger K) : Logger K :=
  { s with files := s.files.closeFile, initialized := false }

/-- A logger that is not initialized writes to the standard output. -/
def prepared (s : Logger K) : Logger K :=
  if s.initialized then s else { s with cfg := { s.cfg with level := .info, toStdout := true } }

def shouldLog (s : Logger K) (level : LogLevel) : Bool := s.cfg.level.toInt ≤ level.toInt

/-- The line on the standard output. -/
def print (s : Logger K) (text : Bytes) : Logger K :=
  if s.cfg.toStdout then { s with stdout := s.stdout ++ text } else s

variable [DecidableEq K] (dirOf : Bytes → K)

/-- `Init`, and whether it returns. -/
def init (s : Logger K) (cfg : LoggingConfig) (creates : Bool) (o : Opening) : Logger K × Bool :=
  let s := { s with cfg := cfg, files := s.files.cleared }
  if cfg.file.isEmpty then ({ s with initialized := true }, true)
  else
    let s := { s with files := { s.files with logDir := cfg.file } }
    if creates then
      let s := { s with files := s.files.createNewLogFile dirOf o }
      if s.files.fileHandle.isNone then (s, false) else ({ s with initialized := true }, true)
    else (s, false)

def log (s : Logger K) (e : LogEntry) (a : Archiving) (o : Opening) : Logger K :=
  let s := s.prepared
  if s.shouldLog e.level then
    let s := s.print e.text
    match s.files.fileHandle with
    | none => s
    | some key =>
      let s := { s with files := s.files.append key e.text }
      if s.cfg.maxFileSize ≤ s.files.currentFileSize then
        { s with files := s.files.rotateLogFile dirOf a o }
      else s
  else s

def step (s : Logger K) : LogCall → Logger K
  | .init cfg creates o => (s.init dirOf cfg creates o).1
  | .shutdown => s.shutdown
  | .log e a o => s.log dirOf e a o

def run (s : Logger K) (calls : List LogCall) : Logger K := calls.foldl (step dirOf) s

end Logger

/-! ## 4. The name of an archive

The numbers are tried one after the other.  The directory has finitely many archives, and different
numbers are different names. -/

theorem archiveName_inj {date : Bytes} {m n : Nat} (h : archiveName date m = archiveName date n) :
    m = n := by
  have hseq : (if m = 0 then [] else 46 :: decimal m) = (if n = 0 then [] else 46 :: decimal n) :=
    List.append_cancel_right (List.append_cancel_left (List.append_cancel_left h))
  by_cases hm : m = 0
  · by_cases hn : n = 0
    · rw [hm, hn]
    · rw [if_pos hm, if_neg hn] at hseq
      cases hseq
  · by_cases hn : n = 0
    · rw [if_neg hm, if_pos hn] at hseq
      cases hseq
    · rw [if_neg hm, if_neg hn] at hseq
      have hvalue := congrArg digitsValue (List.cons.inj hseq).2
      rwa [digitsValue_decimal, digitsValue_decimal] at hvalue

/-- A search that does not end has found every name taken. -/
theorem taken_of_freeName_eq_none {archives : StrMap Bytes} {date : Bytes} {n seq : Nat}
    (h : freeName archives date n seq = none) :
    ∀ k < n, archiveName date (seq + k) ∈ archives.entries.map Prod.fst := by
  induction n generalizing seq with
  | zero =>
    intro k hk
    omega
  | succ n ih =>
    rw [freeName] at h
    split at h
    · rename_i htaken
      intro k hk
      cases k with
      | zero =>
        by_contra hfree
        rw [Nat.add_zero] at hfree
        rw [StrMap.find?_eq_none.mpr hfree] at htaken
        cases htaken
      | succ k =>
        have hnext := ih h k (by omega)
        rwa [Nat.add_assoc, Nat.add_comm 1 k] at hnext
    · cases h

/-- What the search ends with is free. -/
theorem find?_of_freeName {archives : StrMap Bytes} {date name : Bytes} {n seq : Nat}
    (h : freeName archives date n seq = some name) : archives.find? name = none := by
  induction n generalizing seq with
  | zero => cases h
  | succ n ih =>
    rw [freeName] at h
    split at h
    · exact ih h
    · rename_i hfree
      obtain rfl := Option.some.inj h
      rwa [Option.not_isSome_iff_eq_none] at hfree

/-- **The search ends, with a name that is free**: there are fewer archives than numbers tried. -/
theorem exists_archivePath (archives : StrMap Bytes) (date : Bytes) :
    ∃ name, archivePath archives date = some name ∧ archives.find? name = none := by
  cases hpath : archivePath archives date with
  | some name => exact ⟨name, rfl, find?_of_freeName hpath⟩
  | none =>
    have htaken := taken_of_freeName_eq_none hpath
    have hnames : ((List.range (archives.entries.length + 1)).map (archiveName date)).Nodup :=
      List.nodup_range.map (fun _ _ h => archiveName_inj h)
    have hsub : (List.range (archives.entries.length + 1)).map (archiveName date) ⊆
        archives.entries.map Prod.fst := by
      intro name hname
      obtain ⟨k, hk, rfl⟩ := List.mem_map.mp hname
      have := htaken k (List.mem_range.mp hk)
      rwa [Nat.zero_add] at this
    have hlen := (hnames.subperm hsub).length_le
    rw [List.length_map, List.length_map, List.length_range] at hlen
    omega

/-! ## 5. What a call does to the files

The two equations for all that follows: the rest of a call is on the standard output. -/

namespace Logger

variable {K : Type*}

/-- The file into which a `Log` call writes its line. -/
def target (s : Logger K) (e : LogEntry) : Option (K × Bytes) :=
  if s.prepared.shouldLog e.level then s.files.fileHandle else none

@[simp] theorem prepared_files (s : Logger K) : s.prepared.files = s.files := by
  unfold prepared
  split <;> rfl

@[simp] theorem prepared_maxFileSize (s : Logger K) :
    s.prepared.cfg.maxFileSize = s.cfg.maxFileSize := by
  unfold prepared
  split <;> rfl

@[simp] theorem print_files (s : Logger K) (text : Bytes) : (s.print text).files = s.files := by
  unfold print
  split <;> rfl

@[simp] theorem print_cfg (s : Logger K) (text : Bytes) : (s.print text).cfg = s.cfg := by
  unfold print
  split <;> rfl

variable [DecidableEq K] (dirOf : Bytes → K)

/-- **What `Log` does to the files.** -/
theorem files_log (s : Logger K) (e : LogEntry) (a : Archiving) (o : Opening) :
    (s.log dirOf e a o).files =
      match s.target e with
      | none => s.files
      | some key =>
        if s.cfg.maxFileSize ≤ s.files.currentFileSize + e.text.length then
          (s.files.append key e.text).rotateLogFile dirOf a o
        else s.files.append key e.text := by
  rw [log, target]
  by_cases hlevel : s.prepared.shouldLog e.level = true
  · simp only [hlevel, if_true, print_files, prepared_files]
    cases s.files.fileHandle with
    | none => simp
    | some key =>
      simp only [print_cfg, prepared_maxFileSize, LogFiles.append]
      split <;> rfl
  · rw [if_neg hlevel, if_neg hlevel, prepared_files]

/-- **What `Init` does to the files.** -/
theorem files_init (s : Logger K) (cfg : LoggingConfig) (creates : Bool) (o : Opening) :
    (s.init dirOf cfg creates o).1.files =
      if cfg.file = [] then s.files.cleared
      else
        let f := { s.files.cleared with logDir := cfg.file }
        if creates then f.createNewLogFile dirOf o else f := by
  rw [init]
  by_cases hfile : cfg.file = []
  · simp [hfile]
  · cases creates with
    | false => simp [hfile]
    | true =>
      simp only [List.isEmpty_iff, hfile, if_false, if_true]
      split <;> rfl

end Logger

/-! ## 6. The file that is open

Writing goes to the handle and opening goes by the name.  That the two are one file is an invariant
of the calls. -/

namespace LogFiles

variable {K : Type*} [DecidableEq K] (dirOf : Bytes → K)

/-- The handle is that of the current file, which is there.  Writing goes by the one and rotating by
the other. -/
structure Holds (f : LogFiles K) : Prop where
  key : ∀ key, f.fileHandle = some key → key = f.current dirOf
  content : ∀ key, f.fileHandle = some key → ∃ c, f.logs key = some c

omit [DecidableEq K] in
theorem holds_of_closed {f : LogFiles K} (h : f.fileHandle = none) : f.Holds dirOf := by
  constructor
  · intro key hkey
    rw [h] at hkey
    cases hkey
  · intro key hkey
    rw [h] at hkey
    cases hkey

/-- A file that does not open leaves no handle. -/
theorem createNewLogFile_closed (f : LogFiles K) {o : Opening} (ho : o.opens = false) :
    f.createNewLogFile dirOf o =
      { f.closeFile with
        currentDateStr := o.date.str
        currentLogName := o.date.logName } := by
  simp only [createNewLogFile, ho, Bool.false_eq_true, if_false]

theorem createNewLogFile_open (f : LogFiles K) {o : Opening} (ho : o.opens = true) :
    f.createNewLogFile dirOf o =
      { f with
        fileHandle := some (f.dir dirOf, o.date.logName)
        currentDateStr := o.date.str
        currentLogName := o.date.logName
        currentFileSize := 0
        logs := Function.update f.logs (f.dir dirOf, o.date.logName)
          (some ((f.logs (f.dir dirOf, o.date.logName)).getD [])) } := by
  simp only [createNewLogFile, ho, if_true]
  rfl

theorem holds_createNewLogFile (f : LogFiles K) (o : Opening) :
    (f.createNewLogFile dirOf o).Holds dirOf := by
  cases ho : o.opens with
  | false =>
    rw [createNewLogFile_closed dirOf f ho]
    exact holds_of_closed dirOf rfl
  | true =>
    rw [createNewLogFile_open dirOf f ho]
    constructor
    · intro key hkey
      exact (Option.some.inj hkey).symm
    · intro key hkey
      obtain rfl := Option.some.inj hkey
      exact ⟨_, Function.update_self _ _ _⟩

/-- `RotateLogFile` archives under a name that is free. -/
theorem exists_rotateLogFile (f : LogFiles K) (a : Archiving) (o : Opening) :
    ∃ name, (f.archives (f.dir dirOf)).find? name = none ∧
      f.rotateLogFile dirOf a o =
        (f.closeFile.runArchive dirOf name a).createNewLogFile dirOf o := by
  obtain ⟨name, hpath, hfree⟩ := exists_archivePath (f.archives (f.dir dirOf)) f.currentDateStr
  refine ⟨name, hfree, ?_⟩
  simp only [rotateLogFile, closeFile, dir] at hpath ⊢
  rw [hpath]

/-- The command that is done moves the content into the archive. -/
theorem runArchive_done {f : LogFiles K} {c : Bytes} (hc : f.logs (f.current dirOf) = some c)
    (name : Bytes) :
    f.runArchive dirOf name .done =
      { f.putArchive dirOf name c with
        logs := Function.update f.logs (f.current dirOf) none } := by
  simp only [runArchive, hc]

theorem runArchive_dir (f : LogFiles K) (name : Bytes) (a : Archiving) :
    (f.runArchive dirOf name a).dir dirOf = f.dir dirOf := by
  cases a with
  | done =>
    rw [runArchive]
    split <;> rfl
  | failed left => cases left <;> rfl

theorem holds_rotateLogFile (f : LogFiles K) (a : Archiving) (o : Opening) :
    (f.rotateLogFile dirOf a o).Holds dirOf := by
  obtain ⟨name, -, heq⟩ := exists_rotateLogFile dirOf f a o
  rw [heq]
  exact holds_createNewLogFile dirOf _ o

/-- The line stands at the end of the file. -/
theorem append_logs {f : LogFiles K} {key : K × Bytes} {c : Bytes} (hc : f.logs key = some c)
    (text : Bytes) :
    (f.append key text).logs = Function.update f.logs key (some (c ++ text)) := by
  simp only [append, hc, Option.map_some]

theorem append_current {f : LogFiles K} {c : Bytes} (hc : f.logs (f.current dirOf) = some c)
    (text : Bytes) :
    (f.append (f.current dirOf) text).logs ((f.append (f.current dirOf) text).current dirOf) =
      some (c ++ text) := by
  rw [append_logs hc]
  exact Function.update_self _ _ _

theorem Holds.append {f : LogFiles K} (h : f.Holds dirOf) {key : K × Bytes}
    (hkey : f.fileHandle = some key) (text : Bytes) : (f.append key text).Holds dirOf := by
  refine ⟨h.key, ?_⟩
  intro key' hkey'
  obtain rfl := Option.some.inj (hkey.symm.trans hkey')
  obtain ⟨c, hc⟩ := h.content key hkey
  refine ⟨c ++ text, ?_⟩
  rw [append_logs hc, Function.update_self]

end LogFiles

namespace Logger

variable {K : Type*} [DecidableEq K] (dirOf : Bytes → K)

omit [DecidableEq K] in
theorem handle_of_target {s : Logger K} {e : LogEntry} {key : K × Bytes}
    (h : s.target e = some key) : s.files.fileHandle = some key := by
  rw [target] at h
  split at h
  · exact h
  · cases h

/-- **Every call keeps the handle on the current file.** -/
theorem holds_step {s : Logger K} (h : s.files.Holds dirOf) (call : LogCall) :
    (s.step dirOf call).files.Holds dirOf := by
  cases call with
  | init cfg creates o =>
    rw [step, files_init]
    split
    · exact LogFiles.holds_of_closed dirOf rfl
    · dsimp only
      split
      · exact LogFiles.holds_createNewLogFile dirOf _ o
      · exact LogFiles.holds_of_closed dirOf rfl
  | shutdown => exact LogFiles.holds_of_closed dirOf rfl
  | log e a o =>
    rw [step, files_log]
    cases htarget : s.target e with
    | none => exact h
    | some key =>
      dsimp only
      split
      · exact LogFiles.holds_rotateLogFile dirOf _ a o
      · exact h.append dirOf (handle_of_target htarget) e.text

theorem holds_run {s : Logger K} (h : s.files.Holds dirOf) (calls : List LogCall) :
    (s.run dirOf calls).files.Holds dirOf := by
  induction calls generalizing s with
  | nil => exact h
  | cons call calls ih => exact ih (holds_step dirOf h call)

omit [DecidableEq K] in
theorem holds_new (logs : K × Bytes → Option Bytes) (archives : K → StrMap Bytes) :
    (new logs archives).files.Holds dirOf := LogFiles.holds_of_closed dirOf rfl

end Logger

end OnlineJudge.Utils
