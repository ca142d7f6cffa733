/-
# A run of the command writes everything or nothing

A run reads its source, decides about it and only then writes, so nothing that is wrong with a
source can harm a file, not even the file that holds the source.  What a run has done is told by its
exit code.  With code 0 the whole text stands on the standard output or in the one file that was
asked for; with any other code every file is as it was and nothing has been printed.  That code is 1
and comes with a message, but for one case: a source that is refused for a place which no report can
show breaks the run off with code 101.

Of the host it is assumed that a read gives what a file holds, that a write replaces a whole file or
else fails and leaves it as it was, and that printing succeeds.  The rest is up to the run.

* `Host.Reliable`: what is assumed of a host.
* `emitText_cases`: which sources are accepted.
* `run_all_or_nothing`: the ways in which a run can end.
* `Folder.reliable`: a folder is a host of which all this holds.
-/
import IntC.Command.Folder
import IntC.Command.Run
import IntC.Proofs.Reports

namespace IntC.Command

/-! ## 1. Hosts -/

/-- The files of a host: where paths lead, and what the files hold.  Several paths can lead to one
file. -/
structure Disk (File : Type) where
  leads : String → Option File
  contents : File → Option ByteArray

namespace Disk

variable {File : Type}

/-- The path leads to a file that holds the text and nothing else. -/
def Holds (disk : Disk File) (path text : String) : Prop :=
  ∃ file, disk.leads path = some file ∧ disk.contents file = some text.toUTF8

/-- The text has been written to the file that the path leads to, and nothing else has changed:
paths lead where they led, and every other file holds what it held. -/
structure Replaced (disk changed : Disk File) (path text : String) (file : File) : Prop where
  leads_path : changed.leads path = some file
  leads_of_leads {other : String} {file' : File} (h : disk.leads other = some file') :
    changed.leads other = some file'
  contents_file : changed.contents file = some text.toUTF8
  contents_of_ne {other : File} (h : other ≠ file) : changed.contents other = disk.contents other

end Disk

/-- What is seen of a state of a host: its files, and the texts that it has been given to print and
to report.  What a run logs of its progress is not among them. -/
structure View (File : Type) where
  disk : Disk File
  stdout : String
  reported : String

/-- What is assumed of a host. -/
structure Host.Reliable {World File : Type} (host : Host (StateM World))
    (view : World → View File) : Prop where
  /-- Reading changes nothing. -/
  read_keeps (path : String) (w : World) : view ((host.read path).run w).2 = view w
  /-- What is read is what the file holds. -/
  read_holds {path text : String} {w : World} (h : ((host.read path).run w).1 = .ok text) :
    (view w).disk.Holds path text
  /-- A write that fails changes nothing. -/
  write_fails {path text : String} {w : World} {fault : Fault}
    (h : ((host.write path text).run w).1 = .error fault) :
    view ((host.write path text).run w).2 = view w
  /-- A write that does not fail replaces a whole file. -/
  write_replaces {path text : String} {w : World} (h : ((host.write path text).run w).1 = .ok ()) :
    ∃ changed file, view ((host.write path text).run w).2 = { view w with disk := changed } ∧
      (view w).disk.Replaced changed path text file
  /-- Printing succeeds. -/
  print_succeeds (text : String) (w : World) : ((host.print text).run w).1 = .ok ()
  print_appends (text : String) (w : World) :
    view ((host.print text).run w).2 = { view w with stdout := (view w).stdout ++ text }
  report_appends (text : String) (w : World) :
    view ((host.report text).run w).2 = { view w with reported := (view w).reported ++ text }

/-! ## 2. Accepting a source -/

/-- The text that an accepted source comes to: a line for each of its tokens, or its program. -/
inductive Emits (source file : String) : Emit → String → Prop
  | tokens {ts : List Token} (h : Lexer.tokens source (some file) = .ok ts) :
      Emits source file .tokens (String.join (ts.map fun t => t.summary ++ "\n"))
  | tree {u : Program} (h : Program.ofSource source file = .ok u) : Emits source file .tree u.text

/-- What is wrong with a source that is not accepted: it has no tokens, or they are no program where
the program is asked for. -/
inductive Refuses (source file : String) : Emit → Diagnostic → Prop
  | lexer {d : Diagnostic} (emit : Emit) (h : Lexer.tokens source (some file) = .error d) :
      Refuses source file emit d
  | grammar {ts : List Token} {d : Diagnostic} (hlex : Lexer.tokens source (some file) = .ok ts)
      (h : Program.ofTokens ts file = .error d) : Refuses source file .tree d

/-- Every source is accepted or not, and `emitText` says which. -/
theorem emitText_cases (emit : Emit) (source file : String) :
    (∃ text, emitText emit source file = .ok text ∧ Emits source file emit text) ∨
      ∃ d, emitText emit source file = .error d ∧ Refuses source file emit d := by
  cases hlex : Lexer.tokens source (some file) with
  | error d =>
    refine .inr ⟨d, ?_, .lexer emit hlex⟩
    cases emit with
    | tokens => rw [emitText, hlex]; rfl
    | tree => rw [emitText, Program.ofSource, hlex]; rfl
  | ok ts =>
    cases emit with
    | tokens => exact .inl ⟨_, by rw [emitText, hlex]; rfl, .tokens hlex⟩
    | tree =>
      have hsource : Program.ofSource source file = Program.ofTokens ts file := by
        rw [Program.ofSource, hlex]
        rfl
      cases hread : Program.ofTokens ts file with
      | error d => exact .inr ⟨d, by rw [emitText, hsource, hread]; rfl, .grammar hlex hread⟩
      | ok u => exact .inl ⟨_, by rw [emitText, hsource, hread]; rfl, .tree (hsource.trans hread)⟩

/-- The decision about a source: its text is printed or saved, its diagnostic is reported, or there
is no report. -/
theorem Decision.ofInput_ok_cases (args : Arguments) (source : String) :
    (∃ text, Emits source args.input args.emit text ∧
      ofInput args (.ok source) =
        if args.output = "-" then .print text else .save args.output text) ∨
    ∃ d, Refuses source args.input args.emit d ∧
      ((∃ message, d.render? source = some message ∧ ofInput args (.ok source) = .report message) ∨
        d.render? source = none ∧ ofInput args (.ok source) = .breakOff) := by
  rcases emitText_cases args.emit source args.input with ⟨text, hemit, htext⟩ | ⟨d, hemit, hd⟩
  · exact .inl ⟨text, htext, by simp only [ofInput, hemit]⟩
  · refine .inr ⟨d, hd, ?_⟩
    cases hreport : d.render? source with
    | some message => exact .inl ⟨message, rfl, by simp only [ofInput, hemit, hreport]⟩
    | none => exact .inr ⟨rfl, by simp only [ofInput, hemit, hreport]⟩

/-! ## 3. Runs -/

section Runs

variable {World File : Type} {host : Host (StateM World)} {view : World → View File}

/-- Why a run ends with a message: the input cannot be read, it is not accepted, or the output
cannot be written. -/
inductive Stopped (host : Host (StateM World)) (args : Arguments) (w : World) : String → Prop
  | unreadable {fault : Fault} (h : ((host.read args.input).run w).1 = .error fault) :
      Stopped host args w ("failed to read " ++ args.input ++ ": " ++ fault.message)
  | refused {source report : String} {d : Diagnostic}
      (hread : ((host.read args.input).run w).1 = .ok source)
      (h : Refuses source args.input args.emit d) (hreport : d.render? source = some report) :
      Stopped host args w report
  | unwritable {source text : String} {fault : Fault}
      (hread : ((host.read args.input).run w).1 = .ok source)
      (htext : Emits source args.input args.emit text) (hfile : args.output ≠ "-")
      (h : ((host.write args.output text).run ((host.read args.input).run w).2).1 = .error fault) :
      Stopped host args w ("failed to write " ++ args.output ++ ": " ++ fault.message)

/-- A run is a read and what has been decided about it. -/
theorem run_run (host : Host (StateM World)) (args : Arguments) (w : World) :
    (run host args).run w =
      ((Decision.ofInput args ((host.read args.input).run w).1).perform host).run
        ((host.read args.input).run w).2 :=
  rfl

section Finish

variable {step : StateM World (Except Fault Unit)} {message : Fault → String} {w : World}

theorem run_finish_of_ok (h : (step.run w).1 = .ok ()) :
    (Decision.finish host step message).run w = (0, (step.run w).2) := by
  rw [Decision.finish, StateT.run_bind]
  cases hstep : step.run w with
  | mk result after =>
    rw [hstep] at h
    cases h
    rfl

theorem run_finish_of_error {fault : Fault} (h : (step.run w).1 = .error fault) :
    (Decision.finish host step message).run w =
      (1, ((host.report (message fault ++ "\n")).run (step.run w).2).2) := by
  rw [Decision.finish, StateT.run_bind]
  cases hstep : step.run w with
  | mk result after =>
    rw [hstep] at h
    cases h
    rfl

end Finish

variable {args : Arguments} {w : World} {path text message : String}

theorem run_of_breakOff
    (h : Decision.ofInput args ((host.read args.input).run w).1 = .breakOff) :
    (run host args).run w = (101, ((host.read args.input).run w).2) := by
  rw [run_run, h]
  rfl

namespace Host.Reliable

theorem run_report (hhost : host.Reliable view)
    (h : Decision.ofInput args ((host.read args.input).run w).1 = .report message) :
    ∃ after, (run host args).run w = (1, after) ∧
      view after = { view w with reported := (view w).reported ++ (message ++ "\n") } := by
  refine ⟨_, by rw [run_run, h]; rfl, ?_⟩
  rw [← hhost.read_keeps args.input w]
  exact hhost.report_appends _ _

theorem run_print (hhost : host.Reliable view)
    (h : Decision.ofInput args ((host.read args.input).run w).1 = .print text) :
    ∃ after, (run host args).run w = (0, after) ∧
      view after = { view w with stdout := (view w).stdout ++ text } := by
  have hprint := hhost.print_succeeds text ((host.read args.input).run w).2
  refine ⟨_, by rw [run_run, h, Decision.perform, run_finish_of_ok hprint], ?_⟩
  rw [← hhost.read_keeps args.input w]
  exact hhost.print_appends _ _

/-- A write is the last step of a run, unless it fails and is reported. -/
theorem run_save (hhost : host.Reliable view)
    (h : Decision.ofInput args ((host.read args.input).run w).1 = .save path text) :
    (∃ fault after, ((host.write path text).run ((host.read args.input).run w).2).1 =
        .error fault ∧ (run host args).run w = (1, after) ∧
      view after = { view w with reported := (view w).reported ++
        ("failed to write " ++ path ++ ": " ++ fault.message ++ "\n") }) ∨
    ∃ after, (run host args).run w = (0, after) ∧
      ∃ changed file, view after = { view w with disk := changed } ∧
        (view w).disk.Replaced changed path text file := by
  rw [run_run, h, Decision.perform, ← hhost.read_keeps args.input w]
  cases hwrite : ((host.write path text).run ((host.read args.input).run w).2).1 with
  | error fault =>
    refine .inl ⟨fault, _, rfl, run_finish_of_error hwrite, ?_⟩
    rw [← hhost.write_fails hwrite]
    exact hhost.report_appends _ _
  | ok _ => exact .inr ⟨_, run_finish_of_ok hwrite, hhost.write_replaces hwrite⟩

end Host.Reliable

/-- **A run writes everything or nothing.**  It ends in one of three ways.

* With code 1 and a message; nothing is printed and every file is as it was.  So it ends if the
  input holds no text.
* With code 101, if the input is refused for a place that no report can show; again nothing is
  printed and every file is as it was.
* With code 0: the input holds a source that is accepted, and all of its text goes to the standard
  output, with every file as it was, or to the file that was asked for, with nothing printed and
  every other file as it was.  That file may be the input. -/
theorem run_all_or_nothing (hhost : host.Reliable view) (args : Arguments) (w : World) :
    ∃ code after, (run host args).run w = (code, after) ∧
      (code = 1 ∧ (∃ message, Stopped host args w message ∧
          view after = { view w with reported := (view w).reported ++ (message ++ "\n") }) ∨
        code = 101 ∧ view after = view w ∧
          (∃ source d line, (view w).disk.Holds args.input source ∧
            Refuses source args.input args.emit d ∧
            lineAt? source d.position.offset = some line ∧
            Excerpt.maxWidth ≤ line.column - Excerpt.indentation line.text) ∨
        code = 0 ∧ ∃ source text, (view w).disk.Holds args.input source ∧
          Emits source args.input args.emit text ∧
          (args.output = "-" ∧ view after = { view w with stdout := (view w).stdout ++ text } ∨
            args.output ≠ "-" ∧ ∃ changed file, view after = { view w with disk := changed } ∧
              (view w).disk.Replaced changed args.output text file)) := by
  cases hread : ((host.read args.input).run w).1 with
  | error fault =>
    obtain ⟨after, hrun, hview⟩ := hhost.run_report (congrArg (Decision.ofInput args) hread)
    exact ⟨1, after, hrun, .inl ⟨rfl, _, .unreadable hread, hview⟩⟩
  | ok source =>
    have hholds := hhost.read_holds hread
    have hcases := Decision.ofInput_ok_cases args source
    rw [← hread] at hcases
    rcases hcases with
      ⟨text, htext, hdecision⟩ | ⟨d, hd, ⟨message, hreport, hdecision⟩ | ⟨hnone, hdecision⟩⟩
    · by_cases hfile : args.output = "-"
      · rw [if_pos hfile] at hdecision
        obtain ⟨after, hrun, hview⟩ := hhost.run_print hdecision
        exact ⟨0, after, hrun, .inr (.inr ⟨rfl, source, text, hholds, htext, .inl ⟨hfile, hview⟩⟩)⟩
      · rw [if_neg hfile] at hdecision
        rcases hhost.run_save hdecision with
          ⟨fault, after, hwrite, hrun, hview⟩ | ⟨after, hrun, hsaved⟩
        · exact ⟨1, after, hrun, .inl ⟨rfl, _, .unwritable hread htext hfile hwrite, hview⟩⟩
        · exact ⟨0, after, hrun,
            .inr (.inr ⟨rfl, source, text, hholds, htext, .inr ⟨hfile, hsaved⟩⟩)⟩
    · obtain ⟨after, hrun, hview⟩ := hhost.run_report hdecision
      exact ⟨1, after, hrun, .inl ⟨rfl, message, .refused hread hd hreport, hview⟩⟩
    · obtain ⟨line, hline, hwidth⟩ := Diagnostic.render?_eq_none_iff.mp hnone
      exact ⟨101, _, run_of_breakOff hdecision, .inr (.inl ⟨rfl, hhost.read_keeps _ w, source, d,
        line, hholds, hd, hline, hwidth⟩)⟩

end Runs

/-! ## 4. Folders -/

namespace Folder

variable {f : Folder} {path text : String} {names : List String}

/-- Putting a file somewhere leaves every directory a directory. -/
theorem isDirectory_put {dir : List String} (h : f.isDirectory dir = true) (names : List String)
    (bytes : ByteArray) : (f.put names bytes).isDirectory dir = true := by
  unfold isDirectory at h ⊢
  rcases Bool.or_eq_true_iff.mp h with hempty | hany
  · simp [hempty]
  · obtain ⟨file, hfile, hinside⟩ := List.any_eq_true.mp hany
    refine Bool.or_eq_true_iff.mpr (.inr (List.any_eq_true.mpr ?_))
    by_cases hn : file.1 = names
    · exact ⟨(names, bytes), by simp [put], by rw [← hn]; exact hinside⟩
    · exact ⟨file, by simp [put, hfile, hn], hinside⟩

/-- A step that can be made along a path can still be made when a file has been put in a place that
is no directory. -/
theorem follow_put (hplace : f.place names ≠ .directory) (bytes : ByteArray)
    {start next : Location} {name : String} (h : f.follow start name = .ok next) :
    (f.put names bytes).follow start name = .ok next := by
  cases start with
  | outside => exact h
  | inside dir =>
    cases hdir : f.place dir with
    | file _ => simp [follow, hdir] at h
    | nothing => simp [follow, hdir] at h
    | directory =>
      have hne : dir ≠ names := by
        rintro rfl
        exact hplace hdir
      have hafter : (f.put names bytes).place dir = .directory := by
        unfold place at hdir ⊢
        rw [contents?_put, if_neg hne]
        cases hc : f.contents? dir with
        | some _ => simp [hc] at hdir
        | none =>
          rw [hc] at hdir
          by_cases hd : f.isDirectory dir = true
          · simp [isDirectory_put hd]
          · simp [hd] at hdir
      simpa [follow, hdir, hafter] using h

/-- So can all of its steps, one after the other. -/
theorem foldlM_follow_put (hplace : f.place names ≠ .directory) (bytes : ByteArray)
    {location : Location} : ∀ {steps : List String} {start : Location},
      steps.foldlM f.follow start = .ok location →
        steps.foldlM (f.put names bytes).follow start = .ok location
  | [], _, h => h
  | name :: more, start, h => by
    rw [List.foldlM_cons] at h ⊢
    cases hfirst : f.follow start name with
    | error fault => rw [hfirst] at h; cases h
    | ok next =>
      rw [hfirst] at h
      rw [follow_put hplace bytes hfirst]
      exact foldlM_follow_put hplace bytes h

theorem locate_put (hplace : f.place names ≠ .directory) (bytes : ByteArray) {location : Location}
    (h : f.locate path = .ok location) : (f.put names bytes).locate path = .ok location := by
  unfold locate at h ⊢
  by_cases hpath : path = ""
  · rw [if_pos hpath] at h
    cases h
  · rw [if_neg hpath] at h ⊢
    exact foldlM_follow_put hplace bytes h

/-- A folder as a disk, in which a file is the row of names that leads to it. -/
def disk (f : Folder) : Disk (List String) where
  leads path :=
    match namesDirectory path, f.locate path with
    | false, .ok (.inside names) => (f.contents? names).map fun _ => names
    | _, _ => none
  contents := f.contents?

theorem leads_disk_eq_some_iff : f.disk.leads path = some names ↔
    namesDirectory path = false ∧ f.locate path = .ok (.inside names) ∧
      (f.contents? names).isSome = true := by
  cases hslash : namesDirectory path with
  | true => simp [disk, hslash]
  | false =>
    cases hl : f.locate path with
    | error fault => simp [disk, hslash, hl]
    | ok location =>
      cases location with
      | outside => simp [disk, hslash, hl]
      | inside names' =>
        simp only [disk, hslash, hl, Option.map_eq_some_iff, Option.isSome_iff_exists,
          Except.ok.injEq, Location.inside.injEq, true_and]
        constructor
        · rintro ⟨bytes, hbytes, rfl⟩
          exact ⟨rfl, bytes, hbytes⟩
        · rintro ⟨rfl, bytes, hbytes⟩
          exact ⟨bytes, hbytes, rfl⟩

/-- What has been written to a path can be read there, and nothing else has changed. -/
theorem replaced_of_write {changed : Folder} (h : f.write path text = .ok changed) :
    ∃ names, f.disk.Replaced changed.disk path text names := by
  obtain ⟨hslash, names, hl, hplace, rfl⟩ := write_eq_ok_iff.mp h
  refine ⟨names, ?_, ?_, ?_, ?_⟩
  · exact leads_disk_eq_some_iff.mpr ⟨hslash, locate_put hplace _ hl, by simp [contents?_put]⟩
  · intro other names' hother
    obtain ⟨hslash', hl', hsome⟩ := leads_disk_eq_some_iff.mp hother
    refine leads_disk_eq_some_iff.mpr ⟨hslash', locate_put hplace _ hl', ?_⟩
    rw [contents?_put]
    split
    · rfl
    · exact hsome
  · exact (contents?_put f names names _).trans (if_pos rfl)
  · intro other hne
    exact (contents?_put f names other _).trans (if_neg hne)

end Folder

/-- What is seen of a folder with its outputs. -/
def Terminal.view (t : Terminal) : View (List String) := ⟨t.folder.disk, t.stdout, t.reported⟩

theorem run_host_write (path text : String) (t : Terminal) :
    (Folder.host.write path text).run t =
      match t.folder.write path text with
      | .ok folder => (.ok (), { t with folder })
      | .error fault => (.error fault, t) := by
  cases h : t.folder.write path text with
  | ok folder =>
    simp only [Folder.host, StateT.run_bind, StateT.run_get, pure_bind, h]
    rfl
  | error fault =>
    simp only [Folder.host, StateT.run_bind, StateT.run_get, pure_bind, h]
    rfl

/-- **A folder is a reliable host.** -/
theorem Folder.reliable : Folder.host.Reliable Terminal.view where
  read_keeps _ _ := rfl
  read_holds h := by
    obtain ⟨hslash, names, hl, hbytes⟩ := read_eq_ok_iff.mp h
    exact ⟨names, leads_disk_eq_some_iff.mpr ⟨hslash, hl, by rw [hbytes]; rfl⟩, hbytes⟩
  write_fails {path text t fault} h := by
    rw [run_host_write] at h ⊢
    cases hwrite : t.folder.write path text with
    | ok folder => rw [hwrite] at h; cases h
    | error fault => rfl
  write_replaces {path text t} h := by
    rw [run_host_write] at h ⊢
    cases hwrite : t.folder.write path text with
    | ok folder =>
      obtain ⟨names, hreplaced⟩ := replaced_of_write hwrite
      exact ⟨folder.disk, names, rfl, hreplaced⟩
    | error fault => rw [hwrite] at h; cases h
  print_succeeds _ _ := rfl
  print_appends _ _ := rfl
  report_appends _ _ := rfl

/-- A folder with two files, of which the first holds a source. -/
def cluttered : Terminal where
  folder := ⟨[(["a.c"], "int f( );".toUTF8), (["b.c"], "int".toUTF8)]⟩

/-- The source is replaced by its own program, and by way of another path than the one that it has
been read from. -/
theorem run_all_or_nothing_in_place :
    Folder.host.Reliable Terminal.view ∧
      ∃ after, (run Folder.host { input := "a.c", output := "./a.c" }).run cluttered = (0, after) ∧
        ∃ source text, cluttered.view.disk.Holds "a.c" source ∧ Emits source "a.c" .tree text ∧
          ∃ changed file, after.view = { cluttered.view with disk := changed } ∧
            cluttered.view.disk.Replaced changed "./a.c" text file := by
  refine ⟨Folder.reliable, ?_⟩
  have hcode : ((run Folder.host { input := "a.c", output := "./a.c" }).run cluttered).1 = 0 := by
    cbv
  obtain ⟨code, after, hrun, hend⟩ :=
    run_all_or_nothing Folder.reliable { input := "a.c", output := "./a.c" } cluttered
  rw [hrun] at hcode
  subst hcode
  rcases hend with ⟨hone, -⟩ | ⟨hbroken, -⟩ | ⟨-, source, text, hholds, htext, houtput⟩
  · cases hone
  · cases hbroken
  · rcases houtput with ⟨hdash, -⟩ | ⟨-, hsaved⟩
    · exact absurd hdash (by decide)
    · exact ⟨after, hrun, source, text, hholds, htext, hsaved⟩

theorem Folder.read_single (text : String) :
    (⟨[(["a.c"], text.toUTF8)]⟩ : Folder).read "a.c" = .ok text := by
  refine read_eq_ok_iff.mpr ⟨by cbv, ["a.c"], ?_, rfl⟩
  cbv

theorem run_single_of_unshown {text : String} {d : Diagnostic}
    (hsource : Program.ofSource text "a.c" = .error d) (hnone : d.render? text = none) :
    (run Folder.host { input := "a.c" }).run { folder := ⟨[(["a.c"], text.toUTF8)]⟩ } =
      (101, { folder := ⟨[(["a.c"], text.toUTF8)]⟩ }) := by
  have hread : ((Folder.host.read "a.c").run { folder := ⟨[(["a.c"], text.toUTF8)]⟩ }).1 =
      .ok text := Folder.read_single text
  have hemit : emitText .tree text "a.c" = .error d := by
    rw [emitText, hsource]
    rfl
  apply run_of_breakOff
  rw [hread]
  simp only [Decision.ofInput, hemit, hnone]

/-- A source that is refused too far to the right makes a third ending, with neither code 0 nor
code 1. -/
theorem run_overlong :
    let t : Terminal := { folder := ⟨[(["a.c"], (overlong 65535).toUTF8)]⟩ }
    (run Folder.host { input := "a.c" }).run t = (101, t) :=
  run_single_of_unshown (ofSource_overlong (by decide) "a.c") (render?_overlong (Nat.le_refl _) rfl)

end IntC.Command
