/-
# The size of the log file

`current_file_size_` is the number of bytes that have been written to the current file, says
`utils/logger.h`, and `Log` rotates when it has reached the limit.  `CreateNewLogFile` opens the
file to append to it and sets the counter to zero, whatever the file holds.

* `counted_createNewLogFile`: after an opening the counter is right exactly for a file that was
  absent or empty.
* `size_counter_iff`: over a run, the counter is right after every call exactly when every opening
  found such a file.
-/
import OnlineJudge.Utils.Logger

namespace OnlineJudge.Utils

open ByteString

/-! ## 1. The counter and the openings

The condition is about the file as it is found by an opening, which can be looked at before the
counter is set. -/

namespace LogFiles

variable {K : Type*}

/-- The counter is the size of the file that is open.  With no file open there is nothing to count.
-/
def Counted (f : LogFiles K) : Prop :=
  ∀ key, f.fileHandle = some key → ∃ c, f.logs key = some c ∧ c.length = f.currentFileSize

/-- A file that is absent or empty: for either the counter is right to begin at 0. -/
def Fresh (f : LogFiles K) (key : K × Bytes) : Prop := (f.logs key).getD [] = []

end LogFiles

namespace Logger

variable {K : Type*} (dirOf : Bytes → K)

/-- The counter is right, and a `Log` call rotates exactly when the file, with the line behind it,
has reached the limit. -/
structure SizeKept [DecidableEq K] (s : Logger K) : Prop where
  counted : s.files.Counted
  rotates : ∀ e a o key c, s.target e = some key → s.files.logs key = some c →
    (s.step dirOf (.log e a o)).files =
      if s.cfg.maxFileSize ≤ (c ++ e.text).length then
        (s.files.append key e.text).rotateLogFile dirOf a o
      else s.files.append key e.text

/-- If the call opens a file, that file is absent or empty then.  A rotation on the same day opens
the file that it has archived, which is absent when the command has removed it. -/
def OpensFresh (s : Logger K) : LogCall → Prop
  | .init cfg creates o =>
    cfg.file ≠ [] → creates = true → o.opens = true →
      s.files.Fresh (dirOf cfg.file, o.date.logName)
  | .shutdown => True
  | .log e a o =>
    s.target e ≠ none → s.cfg.maxFileSize ≤ s.files.currentFileSize + e.text.length →
      o.opens = true →
        if o.date.logName = s.files.currentLogName then a = .done
        else s.files.Fresh (s.files.dir dirOf, o.date.logName)

end Logger

/-! ## 2. One call

Where nothing is opened the counter goes with the line.  Where a file is opened it starts at zero,
and that is its size or not. -/

theorem LogEntry.text_ne_nil (e : LogEntry) : e.text ≠ [] := by
  intro h
  rw [text] at h
  exact absurd (List.append_eq_nil_iff.mp h).2 (List.cons_ne_nil _ _)

namespace LogFiles

variable {K : Type*} [DecidableEq K] (dirOf : Bytes → K)

omit [DecidableEq K] in
theorem counted_of_closed {f : LogFiles K} (h : f.fileHandle = none) : f.Counted := by
  intro key hkey
  rw [h] at hkey
  cases hkey

/-- **The counter starts at zero, and so must the file.** -/
theorem counted_createNewLogFile (f : LogFiles K) (o : Opening) :
    (f.createNewLogFile dirOf o).Counted ↔
      (o.opens = true → f.Fresh (f.dir dirOf, o.date.logName)) := by
  cases ho : o.opens with
  | false =>
    rw [createNewLogFile_closed dirOf f ho]
    constructor
    · intro _ h
      cases h
    · intro _
      exact counted_of_closed rfl
  | true =>
    rw [createNewLogFile_open dirOf f ho]
    constructor
    · intro h _
      obtain ⟨c, hc, hlen⟩ := h _ rfl
      dsimp only at hc hlen
      rw [Function.update_self, Option.some.injEq] at hc
      rw [Fresh, hc]
      exact List.eq_nil_of_length_eq_zero hlen
    · intro h key hkey
      obtain rfl := Option.some.inj hkey
      refine ⟨_, Function.update_self _ _ _, ?_⟩
      dsimp only
      rw [h rfl, List.length_nil]

theorem Counted.append {f : LogFiles K} (h : f.Counted) {key : K × Bytes}
    (hkey : f.fileHandle = some key) (text : Bytes) : (f.append key text).Counted := by
  intro key' hkey'
  obtain rfl := Option.some.inj (hkey.symm.trans hkey')
  obtain ⟨c, hc, hlen⟩ := h key hkey
  refine ⟨c ++ text, ?_, ?_⟩
  · rw [append_logs hc, Function.update_self]
  · rw [List.length_append, hlen, LogFiles.append]

/-- A line in the current file does not change the others. -/
theorem fresh_append (f : LogFiles K) (text logName : Bytes) (a : Archiving) :
    (if logName = (f.append (f.current dirOf) text).currentLogName then a = .done
      else (f.append (f.current dirOf) text).Fresh (f.dir dirOf, logName)) ↔
      if logName = f.currentLogName then a = .done else f.Fresh (f.dir dirOf, logName) := by
  by_cases hname : logName = f.currentLogName
  · rw [if_pos hname, if_pos]
    exact hname
  · have hne : (f.dir dirOf, logName) ≠ f.current dirOf := fun h => hname (congrArg Prod.snd h)
    have hsame : (f.append (f.current dirOf) text).logs (f.dir dirOf, logName) =
        f.logs (f.dir dirOf, logName) := Function.update_of_ne hne _ _
    rw [if_neg hname, if_neg]
    · rw [Fresh, Fresh, hsame]
    · exact hname

/-- The command leaves the other files alone, and the current one only if it is done. -/
theorem fresh_runArchive {f : LogFiles K} {c : Bytes} (hc : f.logs (f.current dirOf) = some c)
    (hne : c ≠ []) (name : Bytes) (a : Archiving) (logName : Bytes) :
    (f.runArchive dirOf name a).Fresh (f.dir dirOf, logName) ↔
      if logName = f.currentLogName then a = .done else f.Fresh (f.dir dirOf, logName) := by
  have hkept : logName = f.currentLogName → ¬ f.Fresh (f.dir dirOf, logName) := by
    rintro rfl hfresh
    rw [Fresh, ← current, hc] at hfresh
    exact hne hfresh
  cases a with
  | done =>
    have hlogs : (f.runArchive dirOf name .done).logs =
        Function.update f.logs (f.current dirOf) none := by
      rw [runArchive_done dirOf hc]
    rw [Fresh, hlogs]
    by_cases hname : logName = f.currentLogName
    · subst hname
      rw [if_pos rfl, ← current, Function.update_self]
      exact iff_of_true rfl rfl
    · have hkey : (f.dir dirOf, logName) ≠ f.current dirOf :=
        fun h => hname (congrArg Prod.snd h)
      rw [if_neg hname, Function.update_of_ne hkey]
      rfl
  | failed left =>
    have hlogs : (f.runArchive dirOf name (.failed left)).logs = f.logs := by
      cases left <;> rfl
    rw [Fresh, hlogs]
    by_cases hname : logName = f.currentLogName
    · rw [if_pos hname]
      exact iff_of_false (hkept hname) (by simp)
    · rw [if_neg hname]
      rfl

/-- **After a rotation the counter is right for a file that was not there, and for the same file if
the command has removed it.** -/
theorem counted_rotateLogFile {f : LogFiles K} {c : Bytes}
    (hc : f.logs (f.current dirOf) = some c) (hne : c ≠ []) (a : Archiving) (o : Opening) :
    (f.rotateLogFile dirOf a o).Counted ↔
      (o.opens = true →
        if o.date.logName = f.currentLogName then a = .done
        else f.Fresh (f.dir dirOf, o.date.logName)) := by
  obtain ⟨name, -, heq⟩ := exists_rotateLogFile dirOf f a o
  rw [heq, counted_createNewLogFile, runArchive_dir]
  have hclosed : f.closeFile.logs (f.closeFile.current dirOf) = some c := hc
  exact imp_congr_right fun _ => fresh_runArchive dirOf hclosed hne name a o.date.logName

end LogFiles

namespace Logger

variable {K : Type*} [DecidableEq K] (dirOf : Bytes → K)

/-- **One call keeps the counter right exactly when it opens no file that holds something.** -/
theorem counted_step {s : Logger K} (hs : s.files.Holds dirOf) (h : s.files.Counted)
    (call : LogCall) : (s.step dirOf call).files.Counted ↔ s.OpensFresh dirOf call := by
  cases call with
  | init cfg creates o =>
    rw [step, files_init, OpensFresh]
    by_cases hfile : cfg.file = []
    · rw [if_pos hfile]
      exact iff_of_true (LogFiles.counted_of_closed rfl) fun hne => absurd hfile hne
    · rw [if_neg hfile]
      cases creates with
      | false =>
        refine iff_of_true (LogFiles.counted_of_closed rfl) ?_
        intro _ hcreates
        cases hcreates
      | true =>
        simp only [if_true, LogFiles.counted_createNewLogFile, ne_eq, hfile, not_false_eq_true,
          forall_const]
        rfl
  | shutdown => exact iff_of_true (LogFiles.counted_of_closed rfl) trivial
  | log e a o =>
    rw [step, files_log, OpensFresh]
    cases htarget : s.target e with
    | none => exact iff_of_true h fun hne => absurd rfl hne
    | some key =>
      have hopen := handle_of_target htarget
      obtain rfl := hs.key key hopen
      obtain ⟨c, hc⟩ := hs.content _ hopen
      have hlogs := LogFiles.append_current dirOf hc e.text
      have hne : c ++ e.text ≠ [] := List.append_ne_nil_of_right_ne_nil c e.text_ne_nil
      dsimp only
      by_cases hlimit : s.cfg.maxFileSize ≤ s.files.currentFileSize + e.text.length
      · rw [if_pos hlimit, LogFiles.counted_rotateLogFile dirOf hlogs hne a o]
        have happend := LogFiles.fresh_append dirOf s.files e.text o.date.logName a
        constructor
        · intro hfresh _ _ ho
          exact happend.mp (hfresh ho)
        · intro hfresh ho
          exact happend.mpr (hfresh (Option.some_ne_none _) hlimit ho)
      · rw [if_neg hlimit]
        exact iff_of_true (h.append hopen e.text) fun _ hle => absurd hle hlimit

/-! ## 3. A run

An opening that finds something makes the counter wrong at once.  So for the whole run the two sides
agree step by step. -/

/-- The counter is right in every state of a run exactly when every opening is a fresh one. -/
theorem counted_run_iff {s : Logger K} (hs : s.files.Holds dirOf) (h : s.files.Counted)
    (calls : List LogCall) :
    (∀ pre post, calls = pre ++ post → (s.run dirOf pre).files.Counted) ↔
      ∀ pre call post, calls = pre ++ call :: post → (s.run dirOf pre).OpensFresh dirOf call := by
  induction calls generalizing s with
  | nil =>
    constructor
    · intro _ pre call post hsplit
      exact absurd hsplit.symm (List.append_ne_nil_of_right_ne_nil pre (List.cons_ne_nil _ _))
    · intro _ pre post hsplit
      rw [(List.append_eq_nil_iff.mp hsplit.symm).1]
      exact h
  | cons call calls ih =>
    constructor
    · intro hcounted pre call' post hsplit
      have hfirst : (s.step dirOf call).files.Counted := hcounted [call] calls rfl
      cases pre with
      | nil =>
        obtain ⟨rfl, -⟩ := List.cons.inj hsplit
        exact (counted_step dirOf hs h call).mp hfirst
      | cons call'' pre =>
        obtain ⟨rfl, hrest⟩ := List.cons.inj hsplit
        refine (ih (holds_step dirOf hs call) hfirst).mp ?_ pre call' post hrest
        intro pre post hsplit
        exact hcounted (call :: pre) post (by rw [hsplit, List.cons_append])
    · intro hfresh pre post hsplit
      cases pre with
      | nil => exact h
      | cons call' pre =>
        obtain ⟨rfl, hrest⟩ := List.cons.inj hsplit
        have hfirst := (counted_step dirOf hs h call).mpr (hfresh [] call calls rfl)
        refine (ih (holds_step dirOf hs call) hfirst).mpr ?_ pre post hrest
        intro pre call' post hsplit
        exact hfresh (call :: pre) call' post (by rw [hsplit, List.cons_append])

/-- With the right counter, `Log` rotates at the right size. -/
theorem sizeKept_of_counted {s : Logger K} (h : s.files.Counted) : s.SizeKept dirOf := by
  refine ⟨h, ?_⟩
  intro e a o key c htarget hc
  obtain ⟨c', hc', hlen⟩ := h key (handle_of_target htarget)
  obtain rfl := Option.some.inj (hc.symm.trans hc')
  rw [step, files_log, htarget, List.length_append, hlen]

/-- **The counter of the logger is the size of its file after every call of a run, so that it
rotates at the right size, exactly when every opening, by `Init` or after a rotation, finds a file
that is absent or empty.** -/
theorem size_counter_iff (logs : K × Bytes → Option Bytes) (archives : K → StrMap Bytes)
    (calls : List LogCall) :
    (∀ pre post, calls = pre ++ post → ((new logs archives).run dirOf pre).SizeKept dirOf) ↔
      ∀ pre call post, calls = pre ++ call :: post →
        ((new logs archives).run dirOf pre).OpensFresh dirOf call := by
  have hiff := counted_run_iff dirOf (holds_new dirOf logs archives)
    (LogFiles.counted_of_closed rfl) calls
  constructor
  · intro hkept
    refine hiff.mp ?_
    intro pre post hsplit
    exact (hkept pre post hsplit).counted
  · intro hfresh pre post hsplit
    exact sizeKept_of_counted dirOf (hiff.mpr hfresh pre post hsplit)

/-- The line of a program that starts, at this time of the day. -/
def startLine (time : String) : LogEntry where
  level := .info
  file := ascii "main.cpp"
  line := 61
  message := ascii "start"
  stamp := ascii "2026-05-28 " ++ ascii time

/-- After a restart on the same day: the file holds the line of the first start, and that of the
second, of 49 bytes as well, is written behind it. -/
def restarted : Logger Unit :=
  (new (fun _ => some (startLine "08:00:00.000").text) fun _ => .empty).run (fun _ => ())
    [.init ⟨.info, false, ascii "logs", 64⟩ true ⟨⟨2026, 5, 28⟩, true⟩,
      .log (startLine "09:30:00.000") .done ⟨⟨2026, 5, 28⟩, true⟩]

/-- The file is longer than the limit, and has not been rotated, for the counter is that of one line
and not the size of the file. -/
theorem restarted_not_counted :
    restarted.files.fileHandle = some ((), ascii "log_2026_5_28.txt") ∧
      restarted.cfg.maxFileSize = 64 ∧ restarted.files.currentFileSize = 49 ∧
      restarted.files.logs ((), ascii "log_2026_5_28.txt") =
        some ((startLine "08:00:00.000").text ++ (startLine "09:30:00.000").text) ∧
      ((startLine "08:00:00.000").text ++ (startLine "09:30:00.000").text).length = 98 ∧
      ¬ restarted.files.Counted := by
  have hopen : restarted.files.fileHandle = some ((), ascii "log_2026_5_28.txt") := by
    decide +kernel
  have hsize : restarted.files.currentFileSize = 49 := by decide +kernel
  have hcontent : restarted.files.logs ((), ascii "log_2026_5_28.txt") =
      some ((startLine "08:00:00.000").text ++ (startLine "09:30:00.000").text) := by decide +kernel
  have hlength : ((startLine "08:00:00.000").text ++
      (startLine "09:30:00.000").text).length = 98 := by decide +kernel
  refine ⟨hopen, rfl, hsize, hcontent, hlength, ?_⟩
  intro h
  obtain ⟨c, hc, hlen⟩ := h _ hopen
  obtain rfl := Option.some.inj (hcontent.symm.trans hc)
  rw [hsize, hlength] at hlen
  exact absurd hlen (by decide)

end Logger

end OnlineJudge.Utils
