import ServiceDoc.CommandLine.Program
import ServiceDoc.Proofs.Files.Storage

/-! The program on a tree. Until its request is read a run changes nothing; what it has by then is its
job. From there on it keeps the request, if that is wanted, and hands over a file, and nothing else
changes; a run that fails hands over nothing. -/
namespace ServiceDoc.CommandLine

open Files (Tree Location Storage)

/-- A run on a tree, with a standard input that may not be readable. -/
def runOn (standard : Option ByteArray) (c : Call) (t : Tree) : Outcome × Tree :=
  (run (pure standard) c : StateM Tree Outcome).run t

/-! ### Before the request is read -/

/-- The text of a file of a tree. -/
def textAt (t : Tree) (path : String) : Option String :=
  (t.read path).toOption.bind String.fromUTF8?

/-- The settings that options give in a tree: flags over the file they name, over defaults. -/
def settingsIn (t : Tree) (o : Options) : Except Failure Settings :=
  match o.config with
  | none => .ok (o.layer.apply {})
  | some path =>
    match textAt t path with
    | none => .error (.configUnread path)
    | some text =>
      match Layer.read text with
      | none => .error (.configRefused path)
      | some file => .ok (o.layer.apply (file.apply {}))

/-- The text at a path of a tree, or without a path that of the standard input. -/
def inputIn (t : Tree) (standard : Option ByteArray) (path : Option String) :
    Except Failure String :=
  match path.elim (standard.bind String.fromUTF8?) (textAt t) with
  | some text => .ok text
  | none => .error (.inputUnread path)

/-- All that options give in a tree: settings and a request. -/
def prepare (standard : Option ByteArray) (o : Options) (t : Tree) :
    Except Failure (Settings × Idl.Request) := do
  let settings ← settingsIn t o
  let text ← inputIn t standard o.input
  match Idl.Request.read text with
  | .error _ => .error .requestRefused
  | .ok request => .ok (settings, request)

theorem loadSettings_run (o : Options) (t : Tree) :
    (loadSettings o : StateM Tree _).run t = (settingsIn t o, t) := by
  unfold loadSettings settingsIn
  cases o.config with
  | none => rfl
  | some path =>
      dsimp only
      rw [StateT.run_bind, Files.readText_run, textAt]
      cases (t.read path).toOption.bind String.fromUTF8? with
      | none => rfl
      | some text =>
          dsimp only [bind]
          cases Layer.read text <;> rfl

theorem readInput_run (standard : Option ByteArray) (path : Option String) (t : Tree) :
    (readInput (pure standard) path : StateM Tree _).run t = (inputIn t standard path, t) := by
  unfold readInput inputIn
  cases path with
  | none =>
      dsimp only [Option.elim]
      rw [map_pure, pure_bind]
      cases standard.bind String.fromUTF8? <;> rfl
  | some path =>
      dsimp only [Option.elim]
      rw [StateT.run_bind, Files.readText_run, textAt]
      cases (t.read path).toOption.bind String.fromUTF8? <;> rfl

/-! ### Keeping the request -/

/-- Where settings let a request be kept. -/
def keptAt (s : Settings) (t : Tree) (l : Location) : Prop :=
  ∃ path, s.debugDump = some path ∧ t.locate path = .ok l

/-- Keeps a request if settings say where. -/
def keepIfWanted (s : Settings) (request : Idl.Request) : StateM Tree (List Log.Line) :=
  match s.debugDump with
  | some path => keepRequest request path
  | none => pure []

theorem keepRequest_run (request : Idl.Request) (path : String) (t : Tree) :
    (keepRequest request path : StateM Tree _).run t =
      match t.write path request.write.toUTF8 with
      | .ok u => ([], u)
      | .error p => ([said .debug ("Failed to dump request to " ++ path ++ ": " ++ p.message)], t) := by
  rw [keepRequest, StateT.run_bind, Files.writeFile_run]
  cases t.write path request.write.toUTF8 <;> rfl

theorem alike_keepIfWanted (s : Settings) (request : Idl.Request) (t : Tree) :
    t.Alike (keptAt s t) ((keepIfWanted s request).run t).2 := by
  unfold keepIfWanted keptAt
  cases s.debugDump with
  | none => exact .refl _ t
  | some path =>
      dsimp only
      rw [keepRequest_run]
      cases written : t.write path request.write.toUTF8 with
      | error p => exact .refl _ t
      | ok u => exact (Files.Tree.alike_write written).mono fun l located => ⟨path, rfl, located⟩

/-! ### Files handed over -/

theorem writeFiles_run (dir : String) (file : GeneratedFile) (rest : List GeneratedFile) (t : Tree) :
    (writeFiles dir (file :: rest) : StateM Tree _).run t =
      match (Files.haveDirectories dir : StateM Tree _).run t with
      | (.error _, u) => (.failed (.directoryNotMade dir), u)
      | (.ok (), u) =>
        match u.write (Files.join dir file.name) file.content.toUTF8 with
        | .error _ => (.failed (.fileNotWritten (Files.join dir file.name)), u)
        | .ok v =>
          let (report, w) := (writeFiles dir rest : StateM Tree _).run v
          ({ report with
              log := said .info ("wrote " ++ Files.join dir file.name) :: report.log }, w) := by
  rw [writeFiles, StateT.run_bind]
  rcases (Files.haveDirectories dir : StateM Tree _).run t with ⟨p | _, u⟩
  · rfl
  · change (Storage.writeFile _ _ >>= _ : StateM Tree _).run u = _
    rw [StateT.run_bind, Files.writeFile_run]
    dsimp only
    cases u.write (Files.join dir file.name) file.content.toUTF8 <;> rfl

/-- Some files are written into a directory: the last one is there, and nothing else changes than what
they lead to. -/
structure Wrote (dir : String) (written : List GeneratedFile) (t u : Tree) : Prop
    extends t.Keeps (fun l => ∃ f ∈ written, u.locate (Files.join dir f.name) = .ok l) u where
  last : ∀ f ∈ written.getLast?, u.read (Files.join dir f.name) = .ok f.content.toUTF8

namespace Wrote

variable {dir : String} {t u v w : Tree}

theorem nil (h : t.Keeps (fun _ => False) u) : Wrote dir [] t u where
  toKeeps := h.mono fun _ none => none.elim
  last _ none := nomatch none

theorem cons {file : GeneratedFile} {rest : List GeneratedFile} (made : t.Keeps (fun _ => False) u)
    (written : u.write (Files.join dir file.name) file.content.toUTF8 = .ok v)
    (others : Wrote dir rest v w) : Wrote dir (file :: rest) t w := by
  have wrote := (Files.Tree.alike_write written).toKeeps
  obtain ⟨l, located, found⟩ := Files.Tree.file?_of_write written
  refine ⟨((made.mono fun _ none => none.elim).trans (wrote.mono ?_)).trans (others.mono ?_), ?_⟩
  · intro k located
    exact ⟨file, List.mem_cons_self, others.locate (wrote.locate located)⟩
  · rintro k ⟨f, member, located⟩
    exact ⟨f, List.mem_cons_of_mem file member, located⟩
  · intro f last
    -- The file is the last one if no other is written, and then nothing changes after it.
    cases rest with
    | nil =>
        cases last
        refine Files.Tree.read_of_file? (others.locate (wrote.locate located)) ?_
        rw [others.files l (by simp), found]
        rfl
    | cons g rest => exact others.last f last

end Wrote

/-- Files are written in their order until one fails. -/
theorem writeFiles_spec (dir : String) (files : List GeneratedFile) (t : Tree) :
    ∃ written, written <+: files ∧ Wrote dir written t ((writeFiles dir files : StateM Tree _).run t).2 ∧
      ((writeFiles dir files : StateM Tree _).run t).1.output = "" ∧
      (((writeFiles dir files : StateM Tree _).run t).1.failure = none ↔ written = files) := by
  induction files generalizing t with
  | nil => exact ⟨[], List.nil_prefix, .nil (.refl _ t), rfl, iff_of_true rfl rfl⟩
  | cons file rest ih =>
      rw [writeFiles_run]
      have made := Files.keeps_haveDirectories dir t
      generalize (Files.haveDirectories dir : StateM Tree _).run t = first at made ⊢
      obtain ⟨p | _, u⟩ := first
      · exact ⟨[], List.nil_prefix, .nil made, rfl, by simp [Report.failed]⟩
      · dsimp only
        cases written : u.write (Files.join dir file.name) file.content.toUTF8 with
        | error p => exact ⟨[], List.nil_prefix, .nil made, rfl, by simp [Report.failed]⟩
        | ok v =>
            obtain ⟨others, within, wrote, silent, all⟩ := ih v
            exact ⟨file :: others, List.cons_prefix_cons.mpr ⟨rfl, within⟩, .cons made written wrote,
              silent, all.trans (by simp)⟩

/-- What handing over one file leaves: nothing of it unless all of it. -/
theorem deliver_spec {d : Delivery} {file : GeneratedFile} (accepted : d.error = none)
    (alone : d.files = [file]) (dir : Option String) (t : Tree) :
    let after := (deliver d dir : StateM Tree _).run t
    (after.1.failure ≠ none → after.1.output = "" ∧ t.Keeps (fun _ => False) after.2) ∧
      (after.1.failure = none →
        match dir with
        | none => after.1.output = file.content ∧ after.2 = t
        | some dir => after.1.output = "" ∧ Wrote dir [file] t after.2) := by
  unfold deliver
  rw [accepted, alone]
  cases dir with
  | none =>
      have whole : String.join [file.content] = file.content := by simp [String.join]
      exact ⟨fun failed => absurd rfl failed, fun _ => ⟨whole, rfl⟩⟩
  | some dir =>
      obtain ⟨written, within, wrote, silent, all⟩ := writeFiles_spec dir [file] t
      refine ⟨fun failed => ⟨silent, ?_⟩, fun done => ⟨silent, ?_⟩⟩
      · rcases List.prefix_cons_iff.mp within with rfl | ⟨others, rfl, none⟩
        · exact wrote.mono (by simp)
        · rw [List.prefix_nil.mp none] at all
          exact absurd (all.mpr rfl) failed
      · rw [all.mp done] at wrote
        exact wrote

/-! ### Whole runs -/

/-- What a run works with once its request is read. -/
structure Job where
  options : Options
  settings : Settings
  request : Idl.Request

/-- The job of a call. There is none if something fails before or in reading the request, if the
filter of the log is torn, or if only help or the version is asked for. -/
def job? (standard : Option ByteArray) (c : Call) (t : Tree) : Option Job :=
  match Log.Filter.ofText? c.filterText, Options.read c.arguments with
  | some _, .ok o =>
    match prepare standard o t with
    | .error _ => none
    | .ok (settings, request) => some ⟨o, settings, request⟩
  | _, _ => none

theorem runOptions_run (standard : Option ByteArray) (o : Options) (t : Tree) :
    (runOptions (pure standard) o : StateM Tree _).run t =
      match prepare standard o t with
      | .error f => (.failed f, t)
      | .ok (settings, request) =>
        let (kept, u) := (keepIfWanted settings request).run t
        let (report, v) := (deliver (generate settings request) o.outputDir : StateM Tree _).run u
        ({ report with log := kept ++ generationLog settings request ++ report.log }, v) := by
  rw [runOptions, StateT.run_bind, loadSettings_run, prepare]
  cases settingsIn t o with
  | error f => rfl
  | ok settings =>
      change (readInput (pure standard) o.input >>= _ : StateM Tree _).run t = _
      rw [StateT.run_bind, readInput_run]
      dsimp only [bind, Except.bind]
      cases inputIn t standard o.input with
      | error f => rfl
      | ok text =>
          dsimp only
          cases Idl.Request.read text with
          | error f => rfl
          | ok request =>
              dsimp only
              unfold keepIfWanted
              cases settings.debugDump <;> rfl

/-- How a run goes. Only what is said of the filter comes before it. -/
theorem runOn_eq (standard : Option ByteArray) (c : Call) (t : Tree) :
    runOn standard c t =
      let complaints := Log.Filter.complaints c.filterText
      match Log.Filter.ofText? c.filterText with
      | none => ({ code := 101, errors := complaints }, t)
      | some filter =>
        match Options.read c.arguments with
        | .error s => ({ Outcome.ofStop s with errors := complaints ++ (Outcome.ofStop s).errors }, t)
        | .ok o =>
          let (report, u) := (runOptions (pure standard) o : StateM Tree _).run t
          let outcome := Outcome.ofReport report filter
          ({ outcome with errors := complaints ++ outcome.errors }, u) := by
  unfold runOn run
  cases Log.Filter.ofText? c.filterText with
  | none => rfl
  | some filter =>
      dsimp only
      unfold runArguments
      cases Options.read c.arguments <;> rfl

theorem ofReport_output (r : Report) (filter : Log.Filter) :
    (Outcome.ofReport r filter).output = r.output := by
  unfold Outcome.ofReport
  cases r.failure <;> rfl

theorem ofReport_code (r : Report) (filter : Log.Filter) :
    (Outcome.ofReport r filter).code = if r.failure.isSome then 1 else 0 := by
  unfold Outcome.ofReport
  cases r.failure <;> rfl

theorem ofStop_code (s : Stop) : (Outcome.ofStop s).code = if s.isFailure then 2 else 0 := by
  unfold Outcome.ofStop
  cases s.isFailure <;> rfl

theorem ofStop_code_eq_zero_iff (s : Stop) : (Outcome.ofStop s).code = 0 ↔ s.isFailure = false := by
  rw [ofStop_code]
  cases s.isFailure <;> decide

/-- A run without a job changes nothing. It is no failure only if help or the version is wanted. -/
theorem runOn_of_no_job {standard : Option ByteArray} {c : Call} {t : Tree}
    (none : job? standard c t = none) :
    (runOn standard c t).2 = t ∧
      ((runOn standard c t).1.code ≠ 0 → (runOn standard c t).1.output = "") ∧
      ((runOn standard c t).1.code = 0 →
        ∃ s, Options.read c.arguments = .error s ∧ s.isFailure = false) := by
  rw [runOn_eq]
  unfold job? at none
  cases whole : Log.Filter.ofText? c.filterText with
  | none =>
      refine ⟨rfl, fun _ => rfl, fun done => ?_⟩
      cases done
  | some filter =>
      rw [whole] at none
      cases read : Options.read c.arguments with
      | error s =>
          refine ⟨rfl, fun failed => ?_, fun done => ⟨s, rfl, (ofStop_code_eq_zero_iff s).mp done⟩⟩
          have failed : s.isFailure = true := by simpa using mt (ofStop_code_eq_zero_iff s).mpr failed
          simp only [Outcome.ofStop, failed, if_true]
      | ok o =>
          rw [read] at none
          dsimp only at none ⊢
          rw [runOptions_run]
          cases given : prepare standard o t with
          | error f =>
              refine ⟨rfl, fun _ => ofReport_output _ _, fun done => ?_⟩
              cases done
          | ok _ =>
              rw [given] at none
              cases none

/-- The request kept and its file handed over. -/
def Job.finish (j : Job) (t : Tree) : Report × Tree :=
  (deliver (generate j.settings j.request) j.options.outputDir : StateM Tree _).run
    ((keepIfWanted j.settings j.request).run t).2

/-- A finished job has handed over all of its file or nothing. -/
theorem Job.finish_spec (j : Job) (t : Tree) :
    ((j.finish t).1.failure ≠ none →
      (j.finish t).1.output = "" ∧ t.Keeps (keptAt j.settings t) (j.finish t).2) ∧
    ((j.finish t).1.failure = none →
      ∃ content, (generate j.settings j.request).files = [⟨j.settings.outputFilename, content⟩] ∧
        match j.options.outputDir with
        | none => (j.finish t).1.output = content ∧ t.Keeps (keptAt j.settings t) (j.finish t).2
        | some dir =>
          let path := Files.join dir j.settings.outputFilename
          (j.finish t).1.output = "" ∧ (j.finish t).2.read path = .ok content.toUTF8 ∧
            t.Keeps (fun l => (j.finish t).2.locate path = .ok l ∨ keptAt j.settings t l)
              (j.finish t).2) := by
  have kept := (alike_keepIfWanted j.settings j.request t).toKeeps
  unfold Job.finish
  generalize ((keepIfWanted j.settings j.request).run t).2 = u at kept ⊢
  obtain ⟨content, alone⟩ : ∃ content,
      (generate j.settings j.request).files = [⟨j.settings.outputFilename, content⟩] := ⟨_, rfl⟩
  obtain ⟨failing, done⟩ := deliver_spec (d := generate j.settings j.request) rfl alone
    j.options.outputDir u
  refine ⟨fun failed => ?_, fun ends => ⟨content, alone, ?_⟩⟩
  · obtain ⟨silent, nothing⟩ := failing failed
    exact ⟨silent, kept.trans (nothing.mono fun _ none => none.elim)⟩
  · replace done := done ends
    cases dir : j.options.outputDir with
    | none =>
        simp only [dir] at done ⊢
        obtain ⟨output, same⟩ := done
        exact ⟨output, same ▸ kept⟩
    | some dir =>
        simp only [dir] at done ⊢
        obtain ⟨silent, wrote⟩ := done
        have there := wrote.last ⟨j.settings.outputFilename, content⟩ rfl
        refine ⟨silent, there, (kept.mono fun _ => .inr).trans (wrote.mono ?_)⟩
        rintro l ⟨f, member, located⟩
        cases List.mem_singleton.mp member
        exact .inl located

/-- What there is when there is a job: a filter, options that are accepted, settings and a request. -/
theorem job?_eq_some_iff {standard : Option ByteArray} {c : Call} {t : Tree} {j : Job} :
    job? standard c t = some j ↔ (∃ filter, Log.Filter.ofText? c.filterText = some filter) ∧
      Options.read c.arguments = .ok j.options ∧
        prepare standard j.options t = .ok (j.settings, j.request) := by
  obtain ⟨options, settings, request⟩ := j
  unfold job?
  cases Log.Filter.ofText? c.filterText with
  | none => simp
  | some filter =>
      cases Options.read c.arguments with
      | error s => simp
      | ok o =>
          simp only [Except.ok.injEq, Option.some.injEq, exists_eq', true_and]
          cases given : prepare standard o t with
          | error f =>
              refine iff_of_false nofun ?_
              rintro ⟨rfl, other⟩
              cases given.symm.trans other
          | ok both =>
              constructor
              · rintro ⟨⟩
                exact ⟨rfl, given⟩
              · rintro ⟨rfl, other⟩
                cases given.symm.trans other
                rfl

/-- A run with a job finishes it. -/
theorem runOn_of_job {standard : Option ByteArray} {c : Call} {t : Tree} {j : Job}
    (found : job? standard c t = some j) :
    (runOn standard c t).2 = (j.finish t).2 ∧
      (runOn standard c t).1.output = (j.finish t).1.output ∧
      (runOn standard c t).1.code = if (j.finish t).1.failure.isSome then 1 else 0 := by
  obtain ⟨⟨filter, whole⟩, read, given⟩ := job?_eq_some_iff.mp found
  rw [runOn_eq, whole, read]
  dsimp only
  rw [runOptions_run, given]
  exact ⟨rfl, ofReport_output _ _, ofReport_code _ _⟩

/-- Where a run keeps its request. -/
def dumped (standard : Option ByteArray) (c : Call) (t : Tree) (l : Location) : Prop :=
  ∃ j, job? standard c t = some j ∧ keptAt j.settings t l

/-- A failed run puts nothing out and changes no file, but the one that keeps the request, and not
even that one before there is a request. A run that ends well has generated one file: it has put it
out, or written it, and changed no other. -/
theorem run_all_or_nothing (standard : Option ByteArray) (c : Call) (t : Tree) :
    let outcome := (runOn standard c t).1
    let after := (runOn standard c t).2
    (outcome.code ≠ 0 → outcome.output = "" ∧ t.Keeps (dumped standard c t) after) ∧
    (job? standard c t = none →
      after = t ∧
        (outcome.code = 0 → ∃ s, Options.read c.arguments = .error s ∧ s.isFailure = false)) ∧
    ∀ j, job? standard c t = some j → outcome.code = 0 →
      ∃ content, (generate j.settings j.request).files = [⟨j.settings.outputFilename, content⟩] ∧
        match j.options.outputDir with
        | none => outcome.output = content ∧ t.Keeps (keptAt j.settings t) after
        | some dir =>
          let path := Files.join dir j.settings.outputFilename
          outcome.output = "" ∧ after.read path = .ok content.toUTF8 ∧
            t.Keeps (fun l => after.locate path = .ok l ∨ keptAt j.settings t l) after := by
  refine ⟨fun failed => ?_, fun none => ?_, fun j found done => ?_⟩
  · cases found : job? standard c t with
    | none =>
        obtain ⟨same, silent, -⟩ := runOn_of_no_job found
        rw [same]
        exact ⟨silent failed, .refl _ t⟩
    | some j =>
        obtain ⟨same, output, code⟩ := runOn_of_job found
        have stopped : (j.finish t).1.failure ≠ none := fun none => failed (by simp [code, none])
        obtain ⟨silent, nothing⟩ := (j.finish_spec t).1 stopped
        rw [same, output]
        exact ⟨silent, nothing.mono fun l here => ⟨j, found, here⟩⟩
  · obtain ⟨same, -, asked⟩ := runOn_of_no_job none
    exact ⟨same, asked⟩
  · obtain ⟨same, output, code⟩ := runOn_of_job found
    have went : (j.finish t).1.failure = none := by simpa [code] using done
    rw [same, output]
    exact (j.finish_spec t).2 went

/-- A call that keeps its request and writes a file. -/
def writingCall : Call := { arguments := ["-o", "out", "--debug-dump", "seen.json"] }

/-- A file stands where the call wants a directory. -/
def blockedTree : Tree := { nodes := [(["out"], .file "here".toUTF8)] }

/-- The shortest request. -/
def emptyRequest : Option ByteArray := some "\x7b\x7d".toUTF8

theorem writingCall_all_or_nothing :
    ((runOn emptyRequest writingCall blockedTree).1.code ≠ 0 ∧
      (runOn emptyRequest writingCall blockedTree).1.output = "" ∧
      blockedTree.Keeps (dumped emptyRequest writingCall blockedTree)
        (runOn emptyRequest writingCall blockedTree).2) ∧
    ∃ j, job? emptyRequest writingCall {} = some j ∧
      (runOn emptyRequest writingCall {}).1.code = 0 ∧
      ∃ content, (generate j.settings j.request).files = [⟨"openapi.yaml", content⟩] ∧
        (runOn emptyRequest writingCall {}).1.output = "" ∧
        (runOn emptyRequest writingCall {}).2.read "out/openapi.yaml" = .ok content.toUTF8 := by
  have failed : (runOn emptyRequest writingCall blockedTree).1.code ≠ 0 := by decide +kernel
  have done : (runOn emptyRequest writingCall {}).1.code = 0 := by decide +kernel
  have ready : (job? emptyRequest writingCall {}).isSome = true := by decide +kernel
  have dir : (job? emptyRequest writingCall {}).map (·.options.outputDir) = some (some "out") := by
    decide +kernel
  have name : (job? emptyRequest writingCall {}).map (·.settings.outputFilename) =
      some "openapi.yaml" := by decide +kernel
  have path : Files.join "out" "openapi.yaml" = "out/openapi.yaml" := by decide
  obtain ⟨j, found⟩ := Option.isSome_iff_exists.mp ready
  simp only [found, Option.map_some, Option.some.injEq] at dir name
  have failing := (run_all_or_nothing emptyRequest writingCall blockedTree).1 failed
  obtain ⟨content, files, whole⟩ := (run_all_or_nothing emptyRequest writingCall {}).2.2 j found done
  simp only [dir, name, path] at files whole
  exact ⟨⟨failed, failing⟩, j, found, done, content, files, whole.1, whole.2.1⟩

end ServiceDoc.CommandLine
