import Linewise.Proofs.Attribution
import Linewise.Proofs.Cancellation
import Linewise.Proofs.Exposition
import Linewise.Proofs.FileLines
import Linewise.Proofs.Preflight

/-!
# What is reported after a run

Once a run over files has ended, its metrics are written, its failure is reported, and a
summary is shown. The failure of the run comes first: a failure to write the metrics counts
only if the run itself went well, and either is reported with a note on what was run. The
metrics are those of this one run, also of one that failed, and writing them touches no other
file. The summary is shown only after success, so a stream on the standard output holds what
the run wrote and nothing else.

A run never takes a count away, so its counts can be recorded if the name they are kept under is
text. If it is not, and there is a file for metrics, the program stops at once.

## Main definitions

* `FileSystem.Replaceable`: a path leads to where a file can be put as a whole
* `Stats.Counts`: counts under a name, none of them negative
* `Job.report`: the text of the metrics of a run

## Main results

* `FileSystem.walk_of_directories`: as long as no directory goes away, a path leads to where it
  led
* `counts_transformFile`: what a run over files counts
* `Summary.block_eq`, `Summary.withElapsed_eq`: the text of a summary
* `Job.conclude_of_error`, `Job.conclude_of_ok`: the end of a job
* `Job.exists_writeMetrics`, `Job.report_of_counts`: the metrics are written, and report the run
* `Program.run_reported`: what the program reports of a run
-/

namespace Linewise

/-! ## Where paths lead after a change -/

namespace FileSystem

variable {before after files : FileSystem} {path : Bytes} {place target : Place}

/-- **A path leads to where a file can be put**: to anything that is no directory, or to a free
place. -/
structure Replaceable (files : FileSystem) (path : Bytes) (place : Place) : Prop where
  /-- The path does not ask for a directory. -/
  noSlash : endsInSlash path = false
  /-- The path leads to no directory. -/
  follow : (∃ entry, entry ≠ .directory ∧ files.follow path = .ok (.taken place entry)) ∨
    files.follow path = .ok (.free place)

theorem entry?_of_walk_free {names : List Bytes}
    (h : files.walk place names = .ok (.free target)) : files.entry? target = none := by
  fun_induction walk files place names with
  | case1 place => simp at h
  | case2 place rest ih => exact ih h
  | case3 place rest _ ih => exact ih h
  | case4 => simp at h
  | case5 place name rest _ _ _ _ ih => exact ih h
  | case6 => simp at h
  | case7 => simp at h
  | case8 place name rest _ _ _ hentry =>
    obtain rfl : place ++ [name] = target := by simpa using h
    exact hentry
  | case9 => simp at h

/-- There is nothing at a free place. -/
theorem entry?_of_follow_free (h : files.follow path = .ok (.free place)) :
    files.entry? place = none := by
  rw [follow] at h
  split_ifs at h
  exact entry?_of_walk_free h

/-- The end of a way at a place where there is something, or nothing. -/
def destination (target : Place) : Option Entry → Destination
  | some entry => .taken target entry
  | none => .free target

/-- The last name of a way leads to what is there, unless that is a directory. -/
theorem walk_last {name : Bytes} {rest : List Bytes} (hdot : name ≠ utf8 ".")
    (hdots : name ≠ utf8 "..") (hlength : ¬ longestName < name.length) (hrest : rest.isEmpty)
    (hentry : files.entry? (place ++ [name]) ≠ some .directory) :
    files.walk place (name :: rest)
      = .ok (destination (place ++ [name]) (files.entry? (place ++ [name]))) := by
  rw [walk, if_neg hdot, if_neg hdots, if_neg hlength]
  rcases hfound : files.entry? (place ++ [name]) with _ | _ | _ | _
  · simp [hrest, destination]
  · simp [hrest, destination]
  · exact absurd hfound hentry
  · simp [hrest, destination]

/-- **As long as no directory goes away, names lead to where they led**, if that was no directory
and is none now. -/
theorem walk_of_directories {names : List Bytes}
    (hdirectories : ∀ place, before.entry? place = some .directory →
      after.entry? place = some .directory)
    (h : (∃ entry, entry ≠ .directory ∧ before.walk place names = .ok (.taken target entry)) ∨
      before.walk place names = .ok (.free target))
    (htarget : after.entry? target ≠ some .directory) :
    after.walk place names = .ok (destination target (after.entry? target)) := by
  fun_induction walk before place names with
  | case1 place =>
    -- a way without names ends at a directory
    rcases h with ⟨entry, hentry, h⟩ | h
    · simp only [Except.ok.injEq, Destination.taken.injEq] at h
      exact absurd h.2.symm hentry
    · simp at h
  | case2 place rest ih => simpa [walk] using ih h
  | case3 place rest hdot ih => simpa [walk, hdot] using ih h
  | case4 => simp at h
  | case5 place name rest hdot hdots hlength hentry ih =>
    simpa [walk, hdot, hdots, hlength, hdirectories _ hentry] using ih h
  | case6 place name rest hdot hdots hlength there hthere hentry hrest =>
    obtain rfl : target = place ++ [name] := by
      rcases h with ⟨entry, -, h⟩ | h
      · simp only [Except.ok.injEq, Destination.taken.injEq] at h
        exact h.1.symm
      · simp at h
    exact walk_last hdot hdots hlength hrest htarget
  | case7 => simp at h
  | case8 place name rest hdot hdots hlength hentry hrest =>
    obtain rfl : target = place ++ [name] := by simpa [eq_comm] using h
    exact walk_last hdot hdots hlength hrest htarget
  | case9 => simp at h

theorem follow_of_directories (hworking : after.working = before.working)
    (hdirectories : ∀ place, before.entry? place = some .directory →
      after.entry? place = some .directory)
    (h : Replaceable before path target) (htarget : after.entry? target ≠ some .directory) :
    after.follow path = .ok (destination target (after.entry? target)) := by
  have hstart : after.start path = before.start path := by rw [start, start, hworking]
  have hfollow := h.follow
  simp only [follow, hstart] at hfollow ⊢
  split_ifs at hfollow ⊢
  · simp at hfollow
  · simp at hfollow
  · simp at hfollow
  · exact walk_of_directories hdirectories hfollow htarget

namespace Replaceable

theorem place_ne_nil (h : Replaceable files path place) : place ≠ [] := by
  rcases h.follow with ⟨entry, hentry, hfollow⟩ | hfollow
  · exact (entry?_of_follow hfollow hentry).1
  · exact ne_nil_of_follow_free hfollow

/-- The place is no directory. -/
theorem entry?_ne (h : Replaceable files path place) : files.entry? place ≠ some .directory := by
  rcases h.follow with ⟨entry, hentry, hfollow⟩ | hfollow
  · rw [(entry?_of_follow hfollow hentry).2]
    simpa using hentry
  · rw [entry?_of_follow_free hfollow]
    nofun

/-- A path stays replaceable when no directory goes away and its place stays as it is. -/
theorem of_directories (h : Replaceable before path place)
    (hworking : after.working = before.working)
    (hdirectories : ∀ place, before.entry? place = some .directory →
      after.entry? place = some .directory)
    (hplace : after.entry? place = before.entry? place) : Replaceable after path place := by
  have hne : after.entry? place ≠ some .directory := hplace ▸ h.entry?_ne
  have hfollow := follow_of_directories hworking hdirectories h hne
  refine ⟨h.noSlash, ?_⟩
  cases hentry : after.entry? place with
  | none =>
    rw [hentry] at hfollow
    exact .inr hfollow
  | some entry =>
    rw [hentry] at hfollow hne
    exact .inl ⟨entry, by simpa using hne, hfollow⟩

theorem replaceFile_eq (h : Replaceable files path place) (content : Bytes) :
    files.replaceFile path content = .ok (files.put place (.file content)) := by
  rcases h.follow with ⟨entry, hentry, hfollow⟩ | hfollow
  · cases entry with
    | directory => exact absurd rfl hentry
    | file old => simp [replaceFile, hfollow, h.noSlash]
    | device device => simp [replaceFile, hfollow, h.noSlash]
  · simp [replaceFile, hfollow, h.noSlash]

/-- **A file that was put at the end of a path is read back.** -/
theorem read_put (h : Replaceable files path place) (content : Bytes) :
    (files.put place (.file content)).read path = .ok content := by
  have hput := entry?_put files h.place_ne_nil (.file content)
  have hdirectories (other : Place) (hother : files.entry? other = some .directory) :
      entry? (files.put place (.file content)) other = some .directory := by
    have hne : other ≠ place := by
      rintro rfl
      exact h.entry?_ne hother
    rw [entry?_put_of_ne files hne, hother]
  have hworking : (files.put place (.file content)).working = files.working := rfl
  have hfollow := follow_of_directories hworking hdirectories h (by rw [hput]; nofun)
  rw [hput] at hfollow
  simp [read, openInput, hfollow, destination, h.noSlash, contents, hput]

end Replaceable

end FileSystem

/-- A place where an output can be written is no directory. -/
theorem FileRun.Writable.entry?_ne {files : FileSystem} {path : Bytes}
    {place : FileSystem.Place} (h : FileRun.Writable files path place) :
    files.entry? place ≠ some .directory := by
  rcases h.follow with ⟨old, hfollow⟩ | hfollow
  · rw [(FileSystem.entry?_of_follow hfollow nofun).2]
    nofun
  · rw [FileSystem.entry?_of_follow_free hfollow]
    nofun

/-- **A run does not get in the way of another file**: a path that does not lead to the output stays
replaceable. -/
theorem FileRun.OnlyOutput.replaceable {before after : FileSystem} {outputPath path : Bytes}
    {place : FileSystem.Place} (h : FileRun.OnlyOutput before after outputPath)
    (hpath : FileSystem.Replaceable before path place)
    (hplace : ¬ FileRun.Writable before outputPath place) :
    FileSystem.Replaceable after path place := by
  apply hpath.of_directories h.working
  · intro other hother
    rcases h.elsewhere other with hsame | hwritable
    · rw [hsame, hother]
    · exact absurd hother hwritable.entry?_ne
  · exact (h.elsewhere place).resolve_right hplace

/-- The same run, had it lasted for another time. -/
def FileRun.Outcome.lasting (outcome : FileRun.Outcome) (duration : Int) : FileRun.Outcome :=
  { outcome with stats := { outcome.stats with duration } }

@[simp] theorem FileRun.Outcome.lasting_duration (outcome : FileRun.Outcome) :
    outcome.lasting outcome.stats.duration = outcome :=
  rfl

/-! ## What a run counts -/

/-- **The counts of a run**: they are kept under a name, and none of them is negative. -/
structure Stats.Counts (name : Bytes) (stats : Stats) : Prop where
  /-- The name they are kept under. -/
  name : stats.transform = name
  /-- The count of lines read is not negative. -/
  linesRead : 0 ≤ stats.linesRead
  /-- The count of lines written is not negative. -/
  linesWritten : 0 ≤ stats.linesWritten
  /-- The count of lines left out is not negative. -/
  linesSkipped : 0 ≤ stats.linesSkipped

/-- Counts under a name that is text can be recorded. -/
theorem Stats.Counts.valid {name : Bytes} {stats : Stats} (h : stats.Counts name)
    (hname : isValidUtf8 name = true) (failure : Option Fault) :
    (⟨stats, failure⟩ : Metrics.Observation).Valid :=
  ⟨h.name ▸ hname, h.linesRead, h.linesWritten, h.linesSkipped⟩

/-- The time a run took does not matter. -/
theorem Stats.Counts.timed {name : Bytes} {stats : Stats} (h : stats.Counts name) (duration : Int) :
    Stats.Counts name { stats with duration } :=
  ⟨h.name, h.linesRead, h.linesWritten, h.linesSkipped⟩

namespace Run

section Counts

variable {name : Bytes} {state : State}

theorem counts_begin (transform : Transform) (sink : Sink) :
    (begin transform sink).stats.Counts transform.name :=
  ⟨rfl, Int.le_refl 0, Int.le_refl 0, Int.le_refl 0⟩

theorem counts_counted (h : state.stats.Counts name) : state.counted.stats.Counts name :=
  { h with linesRead := Int.add_nonneg h.linesRead Int.one_nonneg }

theorem counts_emit (h : state.stats.Counts name) (result : Bytes) :
    (state.emit result).1.stats.Counts name := by
  rw [State.emit]
  cases (state.writer.put (result ++ [Bytes.lineFeed])).failure with
  | some fault => exact h
  | none => exact { h with linesWritten := Int.add_nonneg h.linesWritten Int.one_nonneg }

/-- **One line** takes no count away. -/
theorem counts_step (transform : Transform) (options : Options) (h : state.stats.Counts name)
    (line : Bytes) : (step transform options state line).1.stats.Counts name := by
  rw [step_eq_carryOut]
  have hcounted := counts_counted h
  cases action transform options state.stats line with
  | callOff fault => exact h
  | stop fault => exact hcounted
  | leaveOut warning =>
    exact { hcounted with linesSkipped := Int.add_nonneg h.linesSkipped Int.one_nonneg }
  | emit result warnings =>
    have hlogged : ({ state.counted with logged := warnings ++ state.logged } : State).stats.Counts
        name := hcounted
    exact counts_emit hlogged result

/-- **All lines**, until one of them ends the run. -/
theorem counts_overLines (transform : Transform) (options : Options) (h : state.stats.Counts name)
    (ls : List Bytes) : (overLines transform options state ls).1.stats.Counts name := by
  induction ls generalizing state with
  | nil => exact h
  | cons line ls ih =>
    have hstep := counts_step transform options h line
    simp only [overLines]
    rcases hnext : step transform options state line with ⟨next, _ | fault⟩
    · rw [hnext] at hstep
      exact ih hstep
    · rw [hnext] at hstep
      exact hstep

end Counts

end Run

/-- **A run over files keeps count under the name of its transformation**, however it ends. -/
theorem counts_transformFile (transform : Transform) (options : Options) (files : FileSystem)
    (stdin input output : Bytes) :
    (transformFile transform options files stdin input output).stats.Counts transform.name := by
  simp only [transformFile]
  cases FileRun.openInput files stdin input with
  | error fault => exact Run.counts_begin transform {}
  | ok opened =>
    cases FileRun.openOutput files output with
    | error fault => exact Run.counts_begin transform {}
    | ok opened =>
      simp only [run, Run.stats_overScanned]
      exact Run.counts_overLines transform options (Run.counts_begin transform _) _

/-! ## How names are shown -/

namespace Bytes

/-- A text without the first byte of a separator is in one piece. -/
theorem splitOnLoop_of_not_mem {b : UInt8} {separator text : Bytes} (h : b ∉ text)
    (done : List Bytes) (word : Bytes) :
    splitOnLoop (b :: separator) done word 0 text
      = (((text.reverse ++ word).reverse) :: done).reverse := by
  induction text generalizing word with
  | nil => rfl
  | cons c text ih =>
    obtain ⟨hc, htext⟩ := not_or.mp (mt List.mem_cons.mpr h)
    rw [splitOnLoop, if_neg (by simp [hc]), ih htext]
    simp

theorem splitOn_of_not_mem {b : UInt8} {separator text : Bytes} (h : b ∉ text) :
    splitOn (b :: separator) text = [text] := by
  rw [splitOn, splitOnLoop_of_not_mem h]
  simp

theorem replaceAll_of_not_mem {b : UInt8} {old text : Bytes} (h : b ∉ text) (new : Bytes) :
    replaceAll (b :: old) new text = text := by
  rw [replaceAll, splitOn_of_not_mem h]
  simp [join, List.intercalate]

end Bytes

/-- **A name without control characters is shown as it is.** -/
theorem Summary.block_eq {text : Bytes} (h : ∀ b ∈ text, 0x20 ≤ b) : block text = text := by
  have hcontrol (b : UInt8) (hb : b < 0x20) : b ∉ text := fun hmem =>
    absurd (h b hmem) (UInt8.not_le.mpr hb)
  have htab : utf8 "\t" = [0x09] := by decide
  have hreturn : utf8 "\x0d\x0a" = [0x0D, 0x0A] := by decide
  rw [block, htab, hreturn, Bytes.replaceAll_of_not_mem (hcontrol _ (by decide)),
    Bytes.replaceAll_of_not_mem (hcontrol _ (by decide)), alignLines,
    Bytes.splitOn_of_not_mem (hcontrol Bytes.lineFeed (by decide))]
  simp [Bytes.join, List.intercalate, Bytes.spaces]

/-- The text of a summary, name by name and number by number. -/
theorem Summary.withElapsed_eq (stats : Stats) (input output elapsed : Bytes) :
    let shown := fun text : Bytes => if text.all (0x20 ≤ ·) then text else block text
    withElapsed stats input output elapsed
      = doneIcon ++ utf8 " " ++ shown stats.transform ++ utf8 " " ++ shown input ++ utf8 " "
        ++ arrowIcon ++ utf8 " " ++ shown output ++ utf8 "\n  "
        ++ Bytes.decimal stats.linesRead ++ utf8 " lines read, "
        ++ Bytes.decimal stats.linesWritten ++ utf8 " written (" ++ sizeText stats.bytesWritten
        ++ utf8 ") in " ++ elapsed ++ utf8 "\n"
        ++ if 0 < stats.linesSkipped then
            utf8 "  " ++ Bytes.decimal stats.linesSkipped
              ++ utf8 " lines skipped (no binary digits)\n"
          else [] := by
  intro shown
  have hshown (text : Bytes) : shown text = block text := by
    simp only [shown]
    split_ifs with h
    · refine (block_eq fun b hb => ?_).symm
      simpa using List.all_eq_true.mp h b hb
    · rfl
  have hspace : utf8 " " = [Bytes.space] := by decide
  have hfeed : utf8 "\n" = [Bytes.lineFeed] := by decide
  have hnext : utf8 "\n  " = Bytes.lineFeed :: utf8 "  " := by decide
  simp only [hshown, withElapsed, countsLine, skippedLine, hspace, hfeed, hnext, Bytes.join]
  simp [List.intercalate]

/-! ## The end of a job -/

namespace Job

variable (job : Job) (elapsed : Int → Bytes) (result : FileRun.Outcome)

/-- **The text of the metrics of a run**: those of one observation and nothing before it. -/
def report (result : FileRun.Outcome) : Bytes :=
  (({} : Metrics).observe result.stats result.failure).1.exposition

/-- The metrics of a run are written, unless there is no file for them. -/
def Exported (job : Job) (result : FileRun.Outcome) : Prop :=
  job.metricsFile ≠ [] →
    ∃ files, result.files.replaceFile job.metricsFile (report result) = .ok files

variable {job result} {files : FileSystem} {unwritten : Option Fault}

/-- A run under a name that is no text cannot be counted. -/
theorem writeMetrics_of_malformed (hmetrics : job.metricsFile ≠ [])
    (hname : isValidUtf8 result.stats.transform = false) :
    job.writeMetrics result = .error (.malformedLabel result.stats.transform) := by
  simp [writeMetrics, metrics, Metrics.observe, hmetrics, hname]

/-- **The metrics of a run are written or their failure is known**, if it can be counted or there
is no file for them. -/
theorem exists_writeMetrics {name : Bytes} (hcounts : result.stats.Counts name)
    (hname : job.metricsFile ≠ [] → isValidUtf8 name = true) :
    ∃ files unwritten, job.writeMetrics result = .ok (files, unwritten) ∧
      (unwritten = none ↔ job.Exported result) ∧
      ∀ place, job.metricsFile ≠ [] →
        FileSystem.Replaceable result.files job.metricsFile place →
        files = result.files.put place (.file (report result)) := by
  by_cases hempty : job.metricsFile = []
  · refine ⟨result.files, none, by simp [writeMetrics, hempty], ?_, ?_⟩
    · simp [Exported, hempty]
    · exact fun place hmetrics => absurd hempty hmetrics
  · have hvalid := hcounts.valid (hname hempty) result.failure
    obtain ⟨hrefusal, -⟩ := Metrics.series_observe {} hvalid
    rcases hobserved : ({} : Metrics).observe result.stats result.failure with ⟨recorded, refusal⟩
    obtain rfl : refusal = none := (congrArg Prod.snd hobserved).symm.trans hrefusal
    have hreport : report result = recorded.exposition := by rw [report, hobserved]
    rw [Exported]
    cases hreplace : result.files.replaceFile job.metricsFile (report result) with
    | ok files =>
      have hwrite : job.writeMetrics result = .ok (files, none) := by
        simp [writeMetrics, metrics, hempty, hobserved, ← hreport, hreplace]
      refine ⟨files, none, hwrite, by simp, fun place hmetrics hplace => ?_⟩
      rw [hplace.replaceFile_eq] at hreplace
      exact (Except.ok.inj hreplace).symm
    | error reason =>
      have hwrite : job.writeMetrics result
          = .ok (result.files, some (.metricsNotWritten reason)) := by
        simp [writeMetrics, metrics, hempty, hobserved, ← hreport, hreplace]
      refine ⟨result.files, some (.metricsNotWritten reason), hwrite, by simp [hempty], ?_⟩
      intro place hmetrics hplace
      rw [hplace.replaceFile_eq] at hreplace
      cases hreplace

/-- A run that cannot be counted ends the program, with everything as the run left it. -/
theorem conclude_of_error {refusal : Metrics.Refusal}
    (h : job.writeMetrics result = .error refusal) :
    job.conclude elapsed result
      = { files := result.files, stdout := result.stdout, log := job.logText result.log,
          crash := some refusal } := by
  rw [conclude, h]

/-- **The end of a job whose metrics are dealt with.** The failure is that of the run, or else that
of writing the metrics, with a note on what was run, and the summary is shown if there was none
and the job shows one. -/
theorem conclude_of_ok (h : job.writeMetrics result = .ok (files, unwritten)) :
    let outcome := job.conclude elapsed result
    outcome.crash = none ∧ outcome.files = files ∧
      outcome.failure = (result.failure <|> unwritten).map (.noted job.note) ∧
      outcome.stdout = result.stdout ++
        if outcome.failure = none ∧ job.showsSummary = true then
          Summary.withElapsed result.stats job.input job.output (elapsed result.stats.duration)
            ++ utf8 "\n\n"
        else [] := by
  simp only [conclude, h]
  cases hfailure : result.failure <|> unwritten with
  | some fault => simp
  | none => simp

/-- A job that shows no summary shows what its run wrote, and nothing else. -/
theorem stdout_conclude_of_not_shows (h : job.showsSummary = false) :
    (job.conclude elapsed result).stdout = result.stdout := by
  rw [conclude]
  rcases job.writeMetrics result with refusal | ⟨files, unwritten⟩
  · rfl
  · cases hfailure : result.failure <|> unwritten <;> simp [h, hfailure]

/-- **The metrics of a run that can be counted** are accepted, and their text reports the run. -/
theorem report_of_counts {name : Bytes} (hcounts : result.stats.Counts name)
    (hname : isValidUtf8 name = true) :
    (({} : Metrics).observe result.stats result.failure).2 = none ∧
      ∃ lines, Exposition.read? (report result) = some lines ∧
        Metrics.Reports lines ⟨result.stats, result.failure⟩ := by
  have hvalid := hcounts.valid hname result.failure
  obtain ⟨hnone, -⟩ := Metrics.series_observe {} hvalid
  obtain ⟨lines, hread, hreports⟩ := Metrics.exposition_observe hvalid
  rw [report]
  exact ⟨hnone, lines, hread, hreports⟩

/-- **A job that was prepared**, in every detail. -/
theorem eq_of_prepare {session : Session} {given : Flags.Given} {name : Bytes} {job : Job}
    (h : prepare session given name = .ok job) :
    ∃ settings transform policy, resolve session given = .ok settings ∧
      session.registry.find? (nameOrDefault name settings) = some transform ∧
      Policy.parse settings.onEmpty = .ok policy ∧
      job = { name := nameOrDefault name settings
              transform
              options := { onEmpty := policy, maxLineBytes := settings.maxLineBytes }
              input := given.arguments.head?.getD settings.input
              output := given.arguments[1]?.getD settings.output
              level := Log.Level.ofName settings.logLevel
              metricsFile := settings.metricsFile
              quiet := given.isOn "quiet" } := by
  cases hresolve : resolve session given with
  | error fault => simp [prepare, hresolve] at h
  | ok settings =>
    obtain ⟨policy, hpolicy⟩ := exists_policy_of_resolve hresolve
    cases hfind : session.registry.find? (nameOrDefault name settings) with
    | none =>
      obtain ⟨fault, hfault⟩ := prepare_of_unknown hresolve hfind
      simp [hfault] at h
    | some transform =>
      have hget := Registry.get_eq_ok_iff.mpr hfind
      rw [nameOrDefault] at hget
      simp only [prepare, hresolve, hget, hpolicy] at h
      exact ⟨settings, transform, policy, rfl, hfind, hpolicy, (Except.ok.inj h).symm⟩

end Job

/-! ## The program -/

/-- The names of the built-in transformations are text. -/
theorem Registry.isValidUtf8_of_find? {name : Bytes} {transform : Transform}
    (h : builtin.find? name = some transform) : isValidUtf8 transform.name = true := by
  have hentries : builtin.entries
      = [(Transform.binary.name, Transform.binary), (Transform.squeeze.name, Transform.squeeze)] :=
    rfl
  obtain ⟨entry, hfind, rfl⟩ := Option.map_eq_some_iff.mp h
  have hmem := List.mem_of_find?_eq_some hfind
  simp only [hentries, List.mem_cons, List.not_mem_nil, or_false] at hmem
  rcases hmem with rfl | rfl <;> decide

/-- With the standard output as its output, a run over files shows what the run between its
streams wrote, and nothing if its input cannot be opened. -/
theorem stdout_transformFile_dash (transform : Transform) (options : Options)
    (files : FileSystem) (stdin input : Bytes) :
    (transformFile transform options files stdin input FileRun.dash).stdout
      = match FileRun.openInput files stdin input with
        | .ok opened => (run transform options (opened.source files) {}).sink.accepted
        | .error _ => [] := by
  simp only [transformFile]
  cases FileRun.openInput files stdin input with
  | error fault => rfl
  | ok opened => rfl

namespace Program

/-- **What the program reports of a run.** A command that runs a transformation has prepared its
job, and its run over files, perhaps called off and however long it took, has come to a result.
The program stops at once just if there is a file for metrics and the name of the transformation
is no text, which no built-in one has; everything is then as the run left it. Otherwise the
command fails just if the run did or there is a file for metrics and they could not be written to
it; a failure of the run is reported with a note on what was run, whatever becomes of the metrics.
Where a file for metrics is given that can be replaced and is not the output, it holds the metrics
of this one run afterwards, and every other file is as the run left it. Their text can be read,
and reports this run; its amounts are exact up to `2 ^ 53`. The summary is shown just if the
command succeeds, is not told to be quiet and does not write to the standard output. So with the
standard output as its output, a command shows exactly what its run wrote. The program itself
ends such a command with the run that is never called off. -/
theorem run_reported (elapsed : Int → Bytes) (session : Session) (command : Command)
    (given : Flags.Given) (job : Job) (hasks : Asks session command given)
    (hcommand : command ∈ running) (hjob : plan session = .job job) :
    let base := session.workspace session.files session.environment
    let loaded := Settings.loadOver base session.registry session.files session.environment
      (Job.document given)
    let settings := Job.overlay given loaded.settings
    let name := Job.nameOrDefault (toldName command given) settings
    let input := given.arguments.head?.getD settings.input
    let output := given.arguments[1]?.getD settings.output
    ∃ transform policy, session.registry.find? name = some transform ∧
      Policy.parse settings.onEmpty = .ok policy ∧
      execute elapsed session
        = job.conclude elapsed
            (transformFile transform { onEmpty := policy, maxLineBytes := settings.maxLineBytes }
              session.files session.stdin input output) ∧
      ∀ (cancellation : Option Cancellation) (duration : Int),
        let options : Options :=
          { onEmpty := policy, maxLineBytes := settings.maxLineBytes, cancellation }
        let ran := transformFile transform options session.files session.stdin input output
        let result := ran.lasting duration
        let observed := ({} : Metrics).observe result.stats result.failure
        let report := observed.1.exposition
        let outcome := job.conclude elapsed result
        let shown := fun text : Bytes => if text.all (0x20 ≤ ·) then text else Summary.block text
        let summary := Summary.doneIcon ++ utf8 " " ++ shown transform.name ++ utf8 " "
          ++ shown input ++ utf8 " " ++ Summary.arrowIcon ++ utf8 " " ++ shown output ++ utf8 "\n  "
          ++ Bytes.decimal result.stats.linesRead ++ utf8 " lines read, "
          ++ Bytes.decimal result.stats.linesWritten ++ utf8 " written ("
          ++ sizeText result.stats.bytesWritten ++ utf8 ") in " ++ elapsed duration ++ utf8 "\n"
          ++ (if 0 < result.stats.linesSkipped then utf8 "  "
                ++ Bytes.decimal result.stats.linesSkipped
                ++ utf8 " lines skipped (no binary digits)\n"
              else [])
          ++ utf8 "\n\n"
        result.stats.transform = transform.name ∧
        (session.registry = Registry.builtin → isValidUtf8 transform.name = true) ∧
        (settings.metricsFile ≠ [] → isValidUtf8 transform.name = false →
          outcome.crash = some (.malformedLabel transform.name) ∧ outcome.failure = none ∧
            outcome.files = result.files ∧ outcome.stdout = result.stdout) ∧
        ((settings.metricsFile ≠ [] → isValidUtf8 transform.name = true) →
          outcome.crash = none ∧
          (outcome.failure = none ↔ result.failure = none ∧ (settings.metricsFile ≠ [] →
            ∃ files, result.files.replaceFile settings.metricsFile report = .ok files)) ∧
          (∀ fault, result.failure = some fault → outcome.failure
            = some (.noted (name ++ [Bytes.space] ++ input ++ utf8 " -> " ++ output) fault)) ∧
          (∀ place, settings.metricsFile ≠ [] →
            FileSystem.Replaceable session.files settings.metricsFile place →
            ¬ FileRun.Writable session.files output place →
            outcome.files.read settings.metricsFile = .ok report ∧
              ∀ other, other ≠ place → outcome.files.entry? other = result.files.entry? other) ∧
          summary ≠ [] ∧ outcome.stdout = result.stdout ++
            if outcome.failure = none ∧ given.isOn "quiet" = false ∧ output ≠ FileRun.dash then
              summary
            else []) ∧
        (isValidUtf8 transform.name = true → observed.2 = none ∧
          ∃ lines, Exposition.read? report = some lines ∧
            Metrics.Reports lines ⟨result.stats, result.failure⟩) ∧
        (∀ amount : Nat, amount ≤ 2 ^ 53 →
          (Metrics.Counter.add {} amount).value = Binary64.ofInt amount) ∧
        (output = FileRun.dash → outcome.stdout
          = match FileRun.openInput session.files session.stdin input with
            | .ok opened =>
              (run transform options (opened.source session.files) {}).sink.accepted
            | .error _ => []) := by
  intro base loaded settings name input output
  have hprepare := runs_eq_job_iff.mp ((hasks.plan_eq hcommand).symm.trans hjob)
  obtain ⟨resolved, transform, policy, hresolve, hfind, hpolicy, hfields⟩ :=
    Job.eq_of_prepare hprepare
  obtain rfl : resolved = settings := (Settings.settle_eq_ok_iff.mp hresolve).2.2
  refine ⟨transform, policy, hfind, hpolicy, ?_, ?_⟩
  · rw [execute, hjob, hfields]
    rfl
  · intro cancellation duration options ran result observed report outcome shown summary
    have hmetricsFile : job.metricsFile = settings.metricsFile := by rw [hfields]
    have hinput : job.input = input := by rw [hfields]
    have houtput : job.output = output := by rw [hfields]
    have hcounts : result.stats.Counts transform.name :=
      (counts_transformFile transform options session.files session.stdin input output).timed _
    have hdash : output = FileRun.dash → result.stdout
        = match FileRun.openInput session.files session.stdin input with
          | .ok opened => (run transform options (opened.source session.files) {}).sink.accepted
          | .error _ => [] := by
      intro hdash
      refine Eq.trans ?_ (stdout_transformFile_dash transform options session.files session.stdin
        input)
      simp only [result, ran, hdash, FileRun.Outcome.lasting]
    have hshows : job.showsSummary = true ↔
        given.isOn "quiet" = false ∧ output ≠ FileRun.dash := by
      rw [Job.showsSummary, houtput, hfields]
      simp
    have honly := (onlyOutput_transformFile transform options session.files session.stdin input
      output).1
    refine ⟨hcounts.name, ?_, ?_, ?_, Job.report_of_counts hcounts,
      fun amount => Metrics.value_add, ?_⟩
    · intro hbuiltin
      rw [hbuiltin] at hfind
      exact Registry.isValidUtf8_of_find? hfind
    · intro hmetrics hname
      have hwrite : job.writeMetrics result = .error (.malformedLabel transform.name) := by
        rw [← hcounts.name] at hname ⊢
        exact Job.writeMetrics_of_malformed (hmetricsFile ▸ hmetrics) hname
      simp only [outcome, Job.conclude_of_error elapsed hwrite, and_self]
    · rw [← hmetricsFile]
      intro hname
      obtain ⟨files, unwritten, hwrite, hunwritten, hput⟩ := Job.exists_writeMetrics hcounts hname
      obtain ⟨hnocrash, hfiles, hfailure, hstdout⟩ := Job.conclude_of_ok elapsed hwrite
      have hnone : outcome.failure = none ↔ result.failure = none ∧ job.Exported result := by
        rw [show outcome.failure = _ from hfailure, Option.map_eq_none_iff, ← hunwritten]
        cases result.failure <;> simp
      refine ⟨hnocrash, hnone, ?_, ?_, List.append_ne_nil_of_right_ne_nil _ (by decide), ?_⟩
      · intro fault hfault
        rw [show outcome.failure = _ from hfailure, hfault, Job.note, hfields]
        rfl
      · intro place hmetrics hplace hwritable
        have hplace := honly.replaceable hplace hwritable
        rw [show outcome.files = _ from hfiles, hput place hmetrics hplace]
        exact ⟨hplace.read_put _, fun other hother => FileSystem.entry?_put_of_ne _ hother _⟩
      · rw [hinput, houtput, Summary.withElapsed_eq, hcounts.name] at hstdout
        simp only [← hshows]
        exact hstdout
    · intro hto
      have hquiet : job.showsSummary = false := by
        simpa [hto] using hshows
      rw [show outcome.stdout = _ from Job.stdout_conclude_of_not_shows elapsed hquiet]
      exact hdash hto

/-- A run that writes the value of its first line and fails at the second. -/
theorem transformFile_failing_line :
    let ran := transformFile Transform.binary {}
      (FileSystem.fresh.install (utf8 "in.txt") (utf8 "101\nzz\n")) [] (utf8 "in.txt")
      FileRun.dash
    ran.failure = some (.parse (utf8 "binary") 2 (utf8 "zz") .emptyNumeral) ∧
      ran.stats = { transform := utf8 "binary", linesRead := 2, linesWritten := 1,
                    bytesWritten := 2 } ∧
      ran.stdout = utf8 "5\n" := by
  intro ran
  let outcome := run Transform.binary {} { data := utf8 "101\nzz\n" } {}
  have hfailure : ran.failure
      = (outcome.failure.map (Fault.locate (utf8 "in.txt") FileRun.dash) <|> none) := rfl
  have hstats : ran.stats = outcome.stats := rfl
  have hstdout : ran.stdout = outcome.sink.accepted := rfl
  have hlines : lines (decodeText (utf8 "101\nzz\n")) = [utf8 "101", utf8 "zz"] := by decide
  have hrun : outcome = Run.overScanned Transform.binary {} {} ⟨[utf8 "101", utf8 "zz"], none⟩ := by
    rw [← hlines]
    exact run_default Transform.binary _
  have hstop : Reference.verdict Transform.binary [] (utf8 "zz") = .stop .emptyNumeral := by decide
  have hkept : [utf8 "101", utf8 "zz"]
      = Reference.kept Transform.binary [] [utf8 "101", utf8 "zz"] ++ [utf8 "zz"] := by decide
  obtain ⟨haccepted, htally, hended⟩ := Reference.overScanned_of_stop {} {}
    ⟨[utf8 "101", utf8 "zz"], none⟩ rfl rfl rfl hkept hstop
  rw [hfailure, hstats, hstdout, hrun, haccepted, htally, hended]
  decide

set_option maxRecDepth 20000 in
/-- A run onto the standard output that fails at its second line, with a file for metrics: the
failure of the line is reported, the first result is all that was printed, and the file holds the
metrics of the failed run: two lines read, and one run that a line ended. -/
theorem run_reported_failed_line :
    let session : Session :=
      { arguments := ["decode", "--metrics-file", "m.prom", "in.txt", "-"].map utf8
        files := FileSystem.fresh.install (utf8 "in.txt") (utf8 "101\nzz\n") }
    let outcome := execute (fun _ => []) session
    let fault := Fault.parse (utf8 "binary") 2 (utf8 "zz") .emptyNumeral
    outcome.crash = none ∧ outcome.failure = some (.noted (utf8 "binary in.txt -> -") fault) ∧
      outcome.stdout = utf8 "5\n" ∧
      ∃ report lines, outcome.files.read (utf8 "m.prom") = .ok report ∧
        Exposition.read? report = some lines ∧
        Exposition.values (utf8 "codeclean_lines_read_total") lines
          = [(utf8 "binary", some (Binary64.ofInt 2))] ∧
        Exposition.values (utf8 "codeclean_parse_errors_total") lines
          = [(utf8 "binary", some (Binary64.ofInt 1))] := by
  intro session outcome fault
  let given : Flags.Given :=
    { values := [(utf8 "metrics-file", .text (utf8 "m.prom"))]
      arguments := [utf8 "in.txt", FileRun.dash] }
  let settings : Settings := { Settings.initial with metricsFile := utf8 "m.prom" }
  have hasks : Asks session .decode given :=
    ⟨["--metrics-file", "m.prom", "in.txt", "-"].map utf8, rfl, rfl, rfl, rfl⟩
  have hload : session.load (Job.document given) = ⟨Settings.initial, none⟩ := by decide
  have hresolve : Job.resolve session given = .ok settings := by
    rw [Job.resolve, hload]
    rfl
  let job : Job :=
    { name := utf8 "binary"
      transform := Transform.binary
      options := {}
      input := utf8 "in.txt"
      output := FileRun.dash
      level := .info
      metricsFile := utf8 "m.prom"
      quiet := false }
  have hjob : plan session = .job job := by
    rw [hasks.plan_eq (by decide), runs_eq_job_iff, Job.prepare, hresolve]
    rfl
  have hreported := run_reported (fun _ => []) session .decode given job hasks (by decide) hjob
  have hsettings : Job.overlay given (Settings.loadOver
      (session.workspace session.files session.environment) session.registry session.files
      session.environment (Job.document given)).settings = settings :=
    (Settings.settle_eq_ok_iff.mp hresolve).2.2.symm
  simp only [hsettings] at hreported
  obtain ⟨transform, policy, hfind, hpolicy, hexecute, hall⟩ := hreported
  have hfound : session.registry.find? (utf8 "binary") = some Transform.binary := rfl
  obtain rfl : transform = Transform.binary := Option.some.inj (hfind.symm.trans hfound)
  have hparsed : Policy.parse settings.onEmpty = .ok .fail := by decide
  obtain rfl : policy = .fail := Except.ok.inj (hpolicy.symm.trans hparsed)
  let ran := transformFile Transform.binary {} session.files session.stdin (utf8 "in.txt")
    FileRun.dash
  obtain ⟨hfailure, hstats, hprinted⟩ : ran.failure = some fault ∧
    ran.stats = { transform := utf8 "binary", linesRead := 2, linesWritten := 1,
                  bytesWritten := 2 } ∧
    ran.stdout = utf8 "5\n" := transformFile_failing_line
  have hran : outcome = job.conclude (fun _ => []) ran := hexecute
  have hnever := hall none ran.stats.duration
  have hsame : transformFile Transform.binary { maxLineBytes := settings.maxLineBytes }
      session.files session.stdin (given.arguments.head?.getD settings.input)
      (given.arguments[1]?.getD settings.output) = ran := rfl
  rw [hsame, FileRun.Outcome.lasting_duration, ← hran] at hnever
  obtain ⟨-, -, -, hcounted, hreport, -, -⟩ := hnever
  obtain ⟨hnocrash, -, hwraps, hmetrics, -, hstdout⟩ := hcounted fun _ => by decide
  obtain ⟨-, lines, hread, hreports⟩ := hreport (by decide)
  have hplace : FileSystem.Replaceable session.files (utf8 "m.prom")
      [utf8 "tmp", utf8 "work", utf8 "m.prom"] := ⟨by decide, .inr (by decide)⟩
  obtain ⟨hfile, -⟩ := hmetrics _ (by decide) hplace fun hwritable => hwritable.ne_dash rfl
  have hnote : Job.nameOrDefault (toldName .decode given) settings ++ [Bytes.space]
      ++ given.arguments.head?.getD settings.input ++ utf8 " -> "
      ++ given.arguments[1]?.getD settings.output = utf8 "binary in.txt -> -" := by decide
  rw [hnote] at hwraps
  refine ⟨hnocrash, hwraps fault hfailure, ?_, _, lines, hfile, hread, ?_, ?_⟩
  · rw [if_neg fun hshown => hshown.2.2 rfl, List.append_nil] at hstdout
    exact hstdout.trans hprinted
  · refine hreports.linesRead.trans ?_
    rw [hstats]
    decide
  · refine hreports.parseErrors.trans ?_
    rw [hfailure, hstats]
    rfl

end Program

end Linewise
