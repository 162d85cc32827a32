import ServiceDoc.Proofs.CommandLine.Program
import Mathlib.Logic.Function.Basic

/-! Files handed over in a directory. Each is tried in the tree that those before it have left, and the
first that cannot be written ends it. The regular files are then the former ones with the written ones
put in their order where their paths lead, so of two with one path the later stays. -/
namespace ServiceDoc.Files

/-- Where a path leads, whatever is there. -/
def place (here : Location) (path : String) : Location :=
  (names path).foldl follow (origin here path)

namespace Tree

theorem place_of_locate {t : Tree} {path : String} {l : Location} (h : t.locate path = .ok l) :
    place t.here path = l := by
  obtain ⟨start, started, walked⟩ := Json.ok_of_bind h
  rw [start_eq_ok started] at walked
  exact follow_of_walk walked

/-- A write puts one regular file where its path leads. -/
theorem files_of_write {t u : Tree} {path : String} {content : ByteArray}
    (h : t.write path content = .ok u) :
    t.locate path = .ok (place t.here path) ∧
      u.file? = Function.update t.file? (place t.here path) (some content) := by
  obtain ⟨l, named, located, -, rfl⟩ := write_eq_ok h
  rw [place_of_locate located]
  refine ⟨located, funext fun k => ?_⟩
  by_cases same : k = l
  · subst same
    simp [file?, at?_set named]
  · simp [file?, at?_set named, same]

theorem Keeps.files_eq {t u : Tree} (h : t.Keeps (fun _ => False) u) : u.file? = t.file? :=
  funext fun l => h.files l not_false

theorem Extends.trans {t u v : Tree} (first : t.Extends u) (next : u.Extends v) : t.Extends v where
  here := next.here.trans first.here
  directories l h := next.directories l (first.directories l h)

end Tree

theorem keeps_of_had {dir : String} {result : Except Problem Unit} {t u : Tree}
    (h : (haveDirectories dir : StateM Tree _).run t = (result, u)) : t.Keeps (fun _ => False) u := by
  have kept := keeps_haveDirectories dir t
  rwa [h] at kept

end ServiceDoc.Files

namespace ServiceDoc.CommandLine

open Files (Tree Location place)

/-- A file can be written into a directory: the directory is there or can be made, and then the file's
path takes the content. -/
def Writes (dir : String) (file : GeneratedFile) (t u : Tree) : Prop :=
  ∃ v, (Files.haveDirectories dir : StateM Tree _).run t = (.ok (), v) ∧
    v.write (Files.join dir file.name) file.content.toUTF8 = .ok u

/-- All of some files can be written, each in the tree that the one before it leaves. -/
inductive WritesAll (dir : String) : List GeneratedFile → Tree → Tree → Prop
  | nil (t : Tree) : WritesAll dir [] t t
  | cons {file : GeneratedFile} {rest : List GeneratedFile} {t u v : Tree} :
      Writes dir file t u → WritesAll dir rest u v → WritesAll dir (file :: rest) t v

/-- Why a file cannot be written into a directory, and the tree that is left: the directory cannot be
had, or it can and the path does not take the content. -/
inductive Refuses (dir : String) (file : GeneratedFile) (t u : Tree) : Failure → Prop
  | directory {p : Files.Problem} :
      (Files.haveDirectories dir : StateM Tree _).run t = (.error p, u) →
        Refuses dir file t u (.directoryNotMade dir)
  | path {p : Files.Problem} :
      (Files.haveDirectories dir : StateM Tree _).run t = (.ok (), u) →
        u.write (Files.join dir file.name) file.content.toUTF8 = .error p →
          Refuses dir file t u (.fileNotWritten (Files.join dir file.name))

/-- Regular files with some more put in their order below a directory. -/
def filesWith (here : Location) (dir : String) (files : List GeneratedFile)
    (before : Location → Option ByteArray) : Location → Option ByteArray :=
  files.foldl (fun now file =>
    Function.update now (place here (Files.join dir file.name)) (some file.content.toUTF8)) before

variable {dir : String} {file : GeneratedFile} {files : List GeneratedFile} {t u : Tree} {f : Failure}

/-! ### One file -/

theorem Writes.extends (h : Writes dir file t u) : t.Extends u := by
  obtain ⟨v, had, written⟩ := h
  exact (Files.keeps_of_had had).toExtends.trans (Files.Tree.alike_write written).toExtends

theorem Writes.files_eq (h : Writes dir file t u) :
    u.file? = filesWith t.here dir [file] t.file? := by
  obtain ⟨v, had, written⟩ := h
  have kept := Files.keeps_of_had had
  have put := (Files.Tree.files_of_write written).2
  rwa [kept.here, kept.files_eq] at put

theorem Writes.locate (h : Writes dir file t u) :
    u.locate (Files.join dir file.name) = .ok (place t.here (Files.join dir file.name)) := by
  obtain ⟨v, had, written⟩ := h
  have located := (Files.Tree.files_of_write written).1
  rw [(Files.keeps_of_had had).here] at located
  exact (Files.Tree.alike_write written).toExtends.locate located

theorem Refuses.keeps (h : Refuses dir file t u f) : t.Keeps (fun _ => False) u := by
  cases h with
  | directory failed => exact Files.keeps_of_had failed
  | path had _ => exact Files.keeps_of_had had

theorem Refuses.not_writes (h : Refuses dir file t u f) : ¬ ∃ v, Writes dir file t v := by
  rintro ⟨v, w, had, written⟩
  cases h with
  | directory failed =>
      rw [failed] at had
      cases had
  | path first failed =>
      rw [first] at had
      cases had
      rw [failed] at written
      cases written

/-- A file is written or refused. -/
theorem writes_or_refuses (dir : String) (file : GeneratedFile) (t : Tree) :
    (∃ u, Writes dir file t u) ∨ ∃ u f, Refuses dir file t u f := by
  rcases had : (Files.haveDirectories dir : StateM Tree _).run t with ⟨p | _, v⟩
  · exact .inr ⟨v, _, .directory had⟩
  · cases written : v.write (Files.join dir file.name) file.content.toUTF8 with
    | error p => exact .inr ⟨v, _, .path had written⟩
    | ok u => exact .inl ⟨u, v, had, written⟩

/-! ### All files -/

theorem WritesAll.extends (h : WritesAll dir files t u) : t.Extends u := by
  induction h with
  | nil t => exact (Tree.Keeps.refl (fun _ => False) t).toExtends
  | cons first _ ih => exact first.extends.trans ih

theorem WritesAll.files_eq (h : WritesAll dir files t u) :
    u.file? = filesWith t.here dir files t.file? := by
  induction h with
  | nil t => rfl
  | cons first _ ih =>
      rw [ih, first.extends.here, first.files_eq]
      rfl

theorem WritesAll.locate (h : WritesAll dir files t u) :
    ∀ file ∈ files,
      u.locate (Files.join dir file.name) = .ok (place t.here (Files.join dir file.name)) := by
  induction h with
  | nil t => exact fun file none => nomatch none
  | cons first others ih =>
      intro file member
      rcases List.mem_cons.mp member with rfl | member
      · exact others.extends.locate first.locate
      · exact first.extends.here ▸ ih file member

theorem writeFiles_of_refuses (h : Refuses dir file t u f) (rest : List GeneratedFile) :
    (writeFiles dir (file :: rest) : StateM Tree _).run t = (.failed f, u) := by
  rw [writeFiles_run]
  cases h with
  | directory failed => rw [failed]
  | path had failed =>
      rw [had]
      dsimp only
      rw [failed]

theorem writeFiles_of_writes (h : Writes dir file t u) (rest : List GeneratedFile) :
    let before := (writeFiles dir (file :: rest) : StateM Tree _).run t
    let after := (writeFiles dir rest : StateM Tree _).run u
    before.1.failure = after.1.failure ∧ before.2 = after.2 := by
  obtain ⟨v, had, written⟩ := h
  rw [writeFiles_run, had]
  dsimp only
  rw [written]
  exact ⟨rfl, rfl⟩

/-- Files are written up to the first that is refused. -/
theorem writeFiles_stops (dir : String) (files : List GeneratedFile) (t : Tree) :
    let after := (writeFiles dir files : StateM Tree _).run t
    ∃ written rest left, files = written ++ rest ∧ WritesAll dir written t left ∧
      (rest = [] ∧ after.1.failure = none ∧ after.2 = left ∨
        ∃ file more f, rest = file :: more ∧ after.1.failure = some f ∧
          Refuses dir file left after.2 f) := by
  induction files generalizing t with
  | nil => exact ⟨[], [], t, rfl, .nil t, .inl ⟨rfl, rfl, rfl⟩⟩
  | cons file rest ih =>
      rcases writes_or_refuses dir file t with ⟨u, wrote⟩ | ⟨u, f, refused⟩
      · obtain ⟨failure, tree⟩ := writeFiles_of_writes wrote rest
        obtain ⟨written, others, left, shape, all, ending⟩ := ih u
        refine ⟨file :: written, others, left, congrArg (file :: ·) shape, .cons wrote all, ?_⟩
        rw [failure, tree]
        exact ending
      · refine ⟨[], file :: rest, t, rfl, .nil t, .inr ⟨file, rest, f, rfl, ?_⟩⟩
        rw [writeFiles_of_refuses refused]
        exact ⟨rfl, refused⟩

/-- A delivery with an error fails with its text and changes nothing. Any other writes its files in
their order up to the first that cannot be written: the regular files are the former ones with these
put where their paths lead, and it fails exactly if there is such a first one, with a message that
names the directory that cannot be had or the path that takes no content. Without files nothing is
made. -/
theorem deliver_until_refused (d : Delivery) (dir : String) (t : Tree) :
    let after := (deliver d (some dir) : StateM Tree _).run t
    (∀ reason, d.error = some reason →
      after.1.failure.map Failure.message = some reason ∧ after.2 = t) ∧
    (d.error = none →
      (∃ written rest left, d.files = written ++ rest ∧ WritesAll dir written t left ∧
        after.2.file? = filesWith t.here dir written t.file? ∧
        (∀ file ∈ written, after.2.locate (Files.join dir file.name) =
          .ok (place t.here (Files.join dir file.name))) ∧
        (after.1.failure = none ↔ rest = []) ∧
        ∀ file more, rest = file :: more →
          (¬ ∃ u, Writes dir file left u) ∧
          ∃ f, Refuses dir file left after.2 f ∧
            after.1.failure.map Failure.message = some f.message ∧
            (f.message = "Failed to create " ++ dir ∨
              f.message = "Failed to write " ++ Files.join dir file.name)) ∧
      (d.files = [] → after.2 = t)) := by
  refine ⟨fun reason failed => ?_, fun accepted => ⟨?_, fun none => ?_⟩⟩
  · rw [deliver, failed]
    exact ⟨rfl, rfl⟩
  · rw [deliver, accepted]
    dsimp only
    obtain ⟨written, rest, left, shape, all, ending⟩ := writeFiles_stops dir d.files t
    refine ⟨written, rest, left, shape, all, ?_⟩
    rcases ending with ⟨rfl, done, tree⟩ | ⟨file, more, f, rfl, failed, refused⟩
    · rw [tree]
      exact ⟨all.files_eq, all.locate, iff_of_true done rfl, fun file more absurd => nomatch absurd⟩
    · have kept := refused.keeps
      refine ⟨kept.files_eq.trans all.files_eq, fun file member => kept.locate (all.locate file member),
        iff_of_false (by simp [failed]) (List.cons_ne_nil _ _), fun first others same => ?_⟩
      cases same
      refine ⟨refused.not_writes, f, refused, by rw [failed, Option.map_some], ?_⟩
      cases refused with
      | directory _ => exact .inl rfl
      | path _ _ => exact .inr rfl
  · rw [deliver, accepted, none]
    rfl

/-- The second note replaces the first, and the third has no directory to be in. -/
def fourNotes : Delivery where
  files := [⟨"a", "1"⟩, ⟨"a", "2"⟩, ⟨"b/c", "3"⟩, ⟨"d", "4"⟩]

def undeliverable : Delivery := { fourNotes with error := some "boom" }

theorem fourNotes_until_refused :
    let after := (deliver fourNotes (some "out") : StateM Tree _).run {}
    ((∃ written rest left, fourNotes.files = written ++ rest ∧ WritesAll "out" written {} left ∧
        after.2.file? = filesWith [] "out" written (Tree.file? {}) ∧ rest ≠ []) ∧
      after.1.failure.map Failure.message = some "Failed to write out/b/c" ∧
      after.2.file? ["a", "out"] = some "2".toUTF8 ∧ after.2.file? ["d", "out"] = none) ∧
    let refused := (deliver undeliverable (some "out") : StateM Tree _).run {}
    refused.1.failure.map Failure.message = some "boom" ∧ refused.2 = {} := by
  have failed : ((deliver fourNotes (some "out") : StateM Tree _).run {}).1.failure =
      some (.fileNotWritten "out/b/c") := by decide +kernel
  obtain ⟨written, rest, left, shape, all, files, -, ended, -⟩ :=
    ((deliver_until_refused fourNotes "out" {}).2 rfl).1
  refine ⟨⟨⟨written, rest, left, shape, all, files, fun none => ?_⟩, ?_, ?_, ?_⟩,
    (deliver_until_refused undeliverable "out" {}).1 "boom" rfl⟩
  · rw [ended.mpr none] at failed
    cases failed
  · rw [failed]
    rfl
  · decide +kernel
  · decide +kernel

end ServiceDoc.CommandLine
