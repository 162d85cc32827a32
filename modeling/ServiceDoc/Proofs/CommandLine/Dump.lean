import ServiceDoc.Proofs.CommandLine.Options
import ServiceDoc.Proofs.CommandLine.Program
import ServiceDoc.Proofs.Files.Alike
import ServiceDoc.Proofs.Log.Filter

/-! Diagnostics only observe, but for a filter that is torn. Two runs that keep their requests in
different places, or not at all, and that show different parts of their logs, end alike: what is kept
is a file, and files are in the way only where directories are wanted. A torn filter ends its run
before anything is done. -/
namespace ServiceDoc

/-- Settings but for the debug dump. -/
def Settings.withoutDump (s : Settings) : Settings := { s with debugDump := none }

theorem generate_withoutDump (s : Settings) (request : Idl.Request) :
    generate s.withoutDump request = generate s request := rfl

theorem Layer.withoutDump_apply {l k : Layer} (below : Settings)
    (same : { l with debugDump := none } = { k with debugDump := none }) :
    (l.apply below).withoutDump = (k.apply below).withoutDump := by
  have apart (l : Layer) : (l.apply below).withoutDump =
      ({ l with debugDump := none }.apply below).withoutDump := rfl
  rw [apart l, apart k, same]

namespace CommandLine

open Files (Tree Location Agree Reaches)

/-- What is the same of two results: the failure, or what is seen of the values. -/
theorem both_of_map_eq {ε α β : Type} {x y : Except ε α} {f : α → β} (h : x.map f = y.map f) :
    (∃ e, x = .error e ∧ y = .error e) ∨ ∃ a b, x = .ok a ∧ y = .ok b ∧ f a = f b := by
  cases x with
  | error e =>
      cases y with
      | error e' =>
          cases h
          exact .inl ⟨e, rfl, rfl⟩
      | ok b => cases h
  | ok a =>
      cases y with
      | error e => cases h
      | ok b => exact .inr ⟨a, b, rfl, rfl, Except.ok.inj h⟩

/-! ### Before the request is kept -/

theorem settingsIn_withoutDump (t : Tree) {o p : Options} (same : o.withoutDump = p.withoutDump) :
    (settingsIn t o).map Settings.withoutDump = (settingsIn t p).map Settings.withoutDump := by
  have config : o.config = p.config := (congrArg Options.config same :)
  have layer : { o.layer with debugDump := none } = { p.layer with debugDump := none } :=
    (congrArg Options.layer same :)
  unfold settingsIn
  rw [config]
  cases p.config with
  | none => exact congrArg Except.ok (Layer.withoutDump_apply {} layer)
  | some path =>
      dsimp only
      cases textAt t path with
      | none => rfl
      | some text =>
          dsimp only
          cases Layer.read text with
          | none => rfl
          | some file => exact congrArg Except.ok (Layer.withoutDump_apply (file.apply {}) layer)

theorem prepare_withoutDump (standard : Option ByteArray) (t : Tree) {o p : Options}
    (same : o.withoutDump = p.withoutDump) :
    (prepare standard o t).map (Prod.map Settings.withoutDump id) =
      (prepare standard p t).map (Prod.map Settings.withoutDump id) := by
  have input : o.input = p.input := (congrArg Options.input same :)
  unfold prepare
  rw [input]
  rcases both_of_map_eq (settingsIn_withoutDump t same) with
    ⟨f, first, second⟩ | ⟨s, s', first, second, alike⟩
  · rw [first, second]
  · rw [first, second]
    dsimp only [bind, Except.bind]
    cases inputIn t standard p.input with
    | error f => rfl
    | ok text =>
        dsimp only
        cases Idl.Request.read text with
        | error f => rfl
        | ok request => exact congrArg (fun s => Except.ok (s, request)) alike

/-! ### After the request is kept -/

variable {differs : Location → Prop} {t u : Tree}

theorem writeFiles_agree (h : t.Alike differs u) {dir : String}
    (apart : ∀ l, Reaches t.here dir l → ¬ differs l) (files : List GeneratedFile) :
    Agree differs ((writeFiles dir files : StateM Tree _).run t)
      ((writeFiles dir files : StateM Tree _).run u) := by
  induction files generalizing t u with
  | nil => exact ⟨rfl, h⟩
  | cons file rest ih =>
      obtain ⟨result, after⟩ := Files.haveDirectories_alike h apart
      have made := (Files.keeps_haveDirectories dir t).here
      rw [writeFiles_run, writeFiles_run]
      generalize (Files.haveDirectories dir : StateM Tree _).run t = one at result after made ⊢
      generalize (Files.haveDirectories dir : StateM Tree _).run u = other at result after ⊢
      obtain ⟨p | _, v⟩ := one
      · obtain ⟨q | _, w⟩ := other
        · exact ⟨rfl, after⟩
        · cases result
      · obtain ⟨q | _, w⟩ := other
        · cases result
        · dsimp only
          rcases after.write (Files.join dir file.name) file.content.toUTF8 with
            ⟨p, q, first, second⟩ | ⟨v', w', first, second, alike⟩
          · rw [first, second]
            exact ⟨rfl, after⟩
          · rw [first, second]
            have here := (Files.Tree.alike_write first).here.trans made
            obtain ⟨same, trees⟩ := ih alike (here ▸ apart)
            let wrote := said .info ("wrote " ++ Files.join dir file.name)
            exact ⟨congrArg (fun r : Report => { r with log := wrote :: r.log }) same, trees⟩

theorem deliver_agree (h : t.Alike differs u) (d : Delivery) {dir : Option String}
    (apart : ∀ path, dir = some path → ∀ l, Reaches t.here path l → ¬ differs l) :
    Agree differs ((deliver d dir : StateM Tree _).run t) ((deliver d dir : StateM Tree _).run u) := by
  unfold deliver
  cases d.error with
  | some reason => exact ⟨rfl, h⟩
  | none =>
      cases dir with
      | none => exact ⟨rfl, h⟩
      | some path => exact writeFiles_agree h (apart path rfl) d.files

theorem Job.finish_agree {j k : Job} (dir : j.options.outputDir = k.options.outputDir)
    (settings : j.settings.withoutDump = k.settings.withoutDump) (request : j.request = k.request)
    (t : Tree) (apart : ∀ path, k.options.outputDir = some path → ∀ l, Reaches t.here path l →
      ¬ (keptAt j.settings t l ∨ keptAt k.settings t l)) :
    Agree (fun l => keptAt j.settings t l ∨ keptAt k.settings t l) (j.finish t) (k.finish t) := by
  have first := alike_keepIfWanted j.settings j.request t
  have second := alike_keepIfWanted k.settings k.request t
  have generated : generate j.settings j.request = generate k.settings k.request := by
    rw [← generate_withoutDump, settings, generate_withoutDump, request]
  unfold Job.finish
  rw [generated, dir]
  refine deliver_agree (first.symm.trans second) _ ?_
  rw [first.here]
  exact apart

/-! ### Two runs -/

/-- A run keeps its request apart from where it writes: not in the place of the directory it writes
into, nor in that of one its path names on the way. -/
def KeepsApart (standard : Option ByteArray) (c : Call) (t : Tree) : Prop :=
  ∀ j dir, job? standard c t = some j → j.options.outputDir = some dir →
    ∀ l, keptAt j.settings t l → ¬ Reaches t.here dir l

/-- Two runs end alike: with the same code and output, with the same directories, and with the same
files but where one of them keeps its request. -/
structure EndAlike (standard : Option ByteArray) (c d : Call) (t : Tree) : Prop where
  code : (runOn standard d t).1.code = (runOn standard c t).1.code
  output : (runOn standard d t).1.output = (runOn standard c t).1.output
  trees : (runOn standard c t).2.Alike (fun l => dumped standard c t l ∨ dumped standard d t l)
    (runOn standard d t).2

/-- Two runs end alike that leave their tree as it is, with the same code and output. -/
theorem endAlike_of_unchanged {standard : Option ByteArray} {c d : Call} {t : Tree}
    {x y : Outcome} (ends : runOn standard c t = (x, t)) (ends' : runOn standard d t = (y, t))
    (code : y.code = x.code) (output : y.output = x.output) : EndAlike standard c d t where
  code := by rw [ends, ends', code]
  output := by rw [ends, ends', output]
  trees := by
    rw [ends, ends']
    exact .refl _ t

theorem runOn_of_torn {c : Call} (standard : Option ByteArray) (t : Tree)
    (torn : Log.Filter.Torn c.filterText) :
    runOn standard c t = ({ code := 101, errors := Log.Filter.complaints c.filterText }, t) := by
  rw [runOn_eq, Log.Filter.ofText?_eq_none_iff.mpr torn]

theorem exists_filter {c : Call} (whole : ¬ Log.Filter.Torn c.filterText) :
    ∃ filter, Log.Filter.ofText? c.filterText = some filter :=
  Option.ne_none_iff_exists'.mp (mt Log.Filter.ofText?_eq_none_iff.mp whole)

/-- The code of a torn filter is that of no other run. -/
theorem code_eq_iff_torn (standard : Option ByteArray) (c : Call) (t : Tree) :
    (runOn standard c t).1.code = 101 ↔ Log.Filter.Torn c.filterText := by
  by_cases torn : Log.Filter.Torn c.filterText
  · rw [runOn_of_torn standard t torn]
    exact iff_of_true rfl torn
  · obtain ⟨filter, found⟩ := exists_filter torn
    refine iff_of_false ?_ torn
    rw [runOn_eq, found]
    cases Options.read c.arguments with
    | error s =>
        change (Outcome.ofStop s).code ≠ 101
        rw [ofStop_code]
        split <;> decide
    | ok o =>
        dsimp only
        rcases (runOptions (pure standard) o : StateM Tree _).run t with ⟨report, u⟩
        change (Outcome.ofReport report filter).code ≠ 101
        rw [ofReport_code]
        split <;> decide

/-- Calls that ask for the same but a debug dump end alike. -/
theorem runOn_agree {standard : Option ByteArray} {c d : Call} {t : Tree}
    (same : (Options.read c.arguments).map Options.withoutDump =
      (Options.read d.arguments).map Options.withoutDump)
    (whole : ¬ Log.Filter.Torn c.filterText) (whole' : ¬ Log.Filter.Torn d.filterText)
    (apart : KeepsApart standard c t) (apart' : KeepsApart standard d t) :
    EndAlike standard c d t := by
  obtain ⟨filter, found⟩ := exists_filter whole
  obtain ⟨filter', found'⟩ := exists_filter whole'
  rcases both_of_map_eq same with ⟨s, read, read'⟩ | ⟨o, p, read, read', same⟩
  · have ends := runOn_eq standard c t
    have ends' := runOn_eq standard d t
    rw [found, read] at ends
    rw [found', read'] at ends'
    exact endAlike_of_unchanged ends ends' rfl rfl
  rcases both_of_map_eq (prepare_withoutDump standard t same) with
    ⟨f, given, given'⟩ | ⟨⟨s, request⟩, ⟨s', request'⟩, given, given', alike⟩
  · have ends := runOn_eq standard c t
    have ends' := runOn_eq standard d t
    rw [found, read] at ends
    rw [found', read'] at ends'
    dsimp only at ends ends'
    rw [runOptions_run, given] at ends
    rw [runOptions_run, given'] at ends'
    exact endAlike_of_unchanged ends ends' rfl rfl
  obtain ⟨settings, requests⟩ := Prod.mk.inj alike
  have dir : o.outputDir = p.outputDir := (congrArg Options.outputDir same :)
  have job : job? standard c t = some ⟨o, s, request⟩ :=
    job?_eq_some_iff.mpr ⟨⟨filter, found⟩, read, given⟩
  have job' : job? standard d t = some ⟨p, s', request'⟩ :=
    job?_eq_some_iff.mpr ⟨⟨filter', found'⟩, read', given'⟩
  have ends : Agree (fun l => keptAt s t l ∨ keptAt s' t l)
      (Job.finish ⟨o, s, request⟩ t) (Job.finish ⟨p, s', request'⟩ t) := by
    refine Job.finish_agree (j := ⟨o, s, request⟩) (k := ⟨p, s', request'⟩) dir settings requests t ?_
    rintro path wanted l reached (kept | kept)
    · exact apart _ path job (dir.trans wanted) l kept reached
    · exact apart' _ path job' wanted l kept reached
  obtain ⟨after, output, code⟩ := runOn_of_job job
  obtain ⟨after', output', code'⟩ := runOn_of_job job'
  refine ⟨?_, ?_, ?_⟩
  · rw [code, code', ends.result]
  · rw [output, output', ends.result]
  · rw [after, after']
    refine ends.trees.mono ?_
    rintro l (kept | kept)
    · exact .inl ⟨_, job, kept⟩
    · exact .inr ⟨_, job', kept⟩

/-- Diagnostics only observe, but for a filter that is torn. Two calls that differ only in their debug
dump and in what they show of their logs, and that keep their requests apart from where they write, end
alike exactly if the filters of both or of neither are torn. A torn filter ends its run with a code of
its own, no output and the tree as it was. No filter is torn whose words are of ASCII or do not start
with a blank. -/
theorem diagnostics_only_observe_iff {standard : Option ByteArray} {t : Tree}
    {arguments : List String} {c d : Call} (adds : AddsDump arguments c.arguments)
    (adds' : AddsDump arguments d.arguments) (accepted : Accepted (Options.read c.arguments))
    (accepted' : Accepted (Options.read d.arguments))
    (apart : KeepsApart standard c t) (apart' : KeepsApart standard d t) :
    (EndAlike standard c d t ↔
      (Log.Filter.Torn c.filterText ↔ Log.Filter.Torn d.filterText)) ∧
    (∀ b : Call, Log.Filter.Torn b.filterText →
      (runOn standard b t).1.code = 101 ∧ (runOn standard b t).1.output = "" ∧
        (runOn standard b t).2 = t) ∧
    ∀ text, (∀ word ∈ Log.Filter.words text, Log.Directive.Plain word) → ¬ Log.Filter.Torn text := by
  refine ⟨⟨fun alike => ?_, fun both => ?_⟩, fun b torn => ?_,
    fun text plain => Log.Filter.not_torn_of_plain plain⟩
  · rw [← code_eq_iff_torn standard c t, ← code_eq_iff_torn standard d t, alike.code]
  · by_cases torn : Log.Filter.Torn c.filterText
    · exact endAlike_of_unchanged (runOn_of_torn standard t torn)
        (runOn_of_torn standard t (both.mp torn)) rfl rfl
    · have same := (read_addsDump adds accepted).trans (read_addsDump adds' accepted').symm
      exact runOn_agree same torn (mt both.mpr torn) apart apart'
  · rw [runOn_of_torn standard t torn]
    exact ⟨rfl, rfl, rfl⟩

/-- A call that keeps no request and shows all of its log. -/
def loudCall : Call := { arguments := ["-o", "out"], log := some "debug" }

theorem writingCall_keepsApart : KeepsApart emptyRequest writingCall {} := by
  intro j dir found wanted l kept reached
  have options : (job? emptyRequest writingCall {}).map (·.options.outputDir) =
      some (some "out") := by decide +kernel
  have settings : (job? emptyRequest writingCall {}).map (·.settings.debugDump) =
      some (some "seen.json") := by decide +kernel
  simp only [found, Option.map_some, Option.some.injEq] at options settings
  obtain ⟨path, kept, located⟩ := kept
  cases wanted.symm.trans options
  cases kept.symm.trans settings
  have place : ({} : Tree).locate "seen.json" = .ok ["seen.json"] := by decide
  cases place.symm.trans located
  obtain ⟨done, named, within, same⟩ := reached
  rw [show Files.names "out" = ["out"] by decide] at within
  cases done with
  | nil => exact named rfl
  | cons name rest =>
      obtain ⟨rfl, none⟩ := List.cons_prefix_cons.mp within
      rw [List.prefix_nil.mp none] at same
      revert same
      decide

theorem loudCall_keepsApart : KeepsApart emptyRequest loudCall {} := by
  intro j dir found wanted l kept reached
  have settings : (job? emptyRequest loudCall {}).map (·.settings.debugDump) = some none := by
    decide +kernel
  simp only [found, Option.map_some, Option.some.injEq] at settings
  obtain ⟨path, kept, -⟩ := kept
  cases kept.symm.trans settings

theorem writingCall_loudCall_endAlike :
    AddsDump ["-o", "out"] writingCall.arguments ∧ AddsDump ["-o", "out"] loudCall.arguments ∧
      EndAlike emptyRequest writingCall loudCall {} := by
  have adds : AddsDump ["-o", "out"] writingCall.arguments := .next ["-o", "out"] [] "seen.json" rfl
  have adds' : AddsDump ["-o", "out"] loudCall.arguments := .none
  have read : Options.read writingCall.arguments =
      .ok { outputDir := some "out", debugDump := some "seen.json" } := by decide
  have read' : Options.read loudCall.arguments = .ok { outputDir := some "out" } := by decide
  have accepted : Accepted (Options.read writingCall.arguments) := read ▸ accepted_ok _
  have accepted' : Accepted (Options.read loudCall.arguments) := read' ▸ accepted_ok _
  obtain ⟨alike, -, plain⟩ := diagnostics_only_observe_iff adds adds' accepted accepted'
    writingCall_keepsApart loudCall_keepsApart
  have words : Log.Filter.words writingCall.filterText = [] := by decide
  have words' : Log.Filter.words loudCall.filterText = ["debug"] := by decide
  have visible : Log.Directive.Plain "debug" := .inl fun c first => by cases first; decide
  have whole : ¬ Log.Filter.Torn writingCall.filterText :=
    plain _ (words ▸ List.forall_mem_nil _)
  have whole' : ¬ Log.Filter.Torn loudCall.filterText :=
    plain _ (words' ▸ List.forall_mem_singleton.mpr visible)
  exact ⟨adds, adds', alike.mpr (iff_of_false whole whole')⟩

def quietCall : Call := { arguments := [] }

/-- The first word is ignored. The blank at the start of the other one moves the end of its target
into a character. -/
def tornCall : Call := { arguments := [], log := some "?\nCaused by:\n, é=info" }

/-- A run that writes into no directory keeps its request apart. -/
theorem keepsApart_of_no_dir {standard : Option ByteArray} {c : Call} {t : Tree} {o : Options}
    (read : Options.read c.arguments = .ok o) (none : o.outputDir = none) :
    KeepsApart standard c t := by
  intro j dir found wanted
  obtain ⟨-, same, -⟩ := job?_eq_some_iff.mp found
  cases read.symm.trans same
  cases none.symm.trans wanted

/-- What a log shows can decide whether the program does anything. -/
theorem tornCall_observed :
    ¬ ∀ (standard : Option ByteArray) (t : Tree) (arguments : List String) (c d : Call),
      AddsDump arguments c.arguments → AddsDump arguments d.arguments →
      Accepted (Options.read c.arguments) → Accepted (Options.read d.arguments) →
      KeepsApart standard c t → KeepsApart standard d t → EndAlike standard c d t := by
  intro all
  have read : Options.read [] = .ok {} := by decide
  have accepted : Accepted (Options.read []) := read ▸ accepted_ok _
  have alike := all emptyRequest {} [] quietCall tornCall .none .none accepted accepted
    (keepsApart_of_no_dir read rfl) (keepsApart_of_no_dir read rfl)
  have done : (runOn emptyRequest quietCall {}).1.code = 0 := by decide +kernel
  have torn : (runOn emptyRequest tornCall {}).1.code = 101 := by decide +kernel
  have same := alike.code
  rw [done, torn] at same
  cases same

end CommandLine
end ServiceDoc
