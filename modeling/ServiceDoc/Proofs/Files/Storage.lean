import ServiceDoc.Files.Storage
import ServiceDoc.Proofs.Files.Tree

/-! Storage in a tree. A written file is all that a tree differs in from the one before; making
directories changes no regular file and takes away no directory, whether it succeeds or not. -/
namespace ServiceDoc.Files

namespace Tree

/-- The same directories, and the same files but at some places. -/
structure Alike (differs : Location → Prop) (t u : Tree) : Prop where
  here : u.here = t.here
  directories : ∀ l, u.at? l = some .directory ↔ t.at? l = some .directory
  same : ∀ l, ¬ differs l → u.at? l = t.at? l

namespace Alike

variable {differs more : Location → Prop} {t u v : Tree}

theorem refl (differs : Location → Prop) (t : Tree) : t.Alike differs t :=
  ⟨rfl, fun _ => .rfl, fun _ _ => rfl⟩

theorem symm (h : t.Alike differs u) : u.Alike differs t where
  here := h.here.symm
  directories l := (h.directories l).symm
  same l apart := (h.same l apart).symm

theorem trans (first : t.Alike differs u) (next : u.Alike more v) :
    t.Alike (fun l => differs l ∨ more l) v where
  here := next.here.trans first.here
  directories l := (next.directories l).trans (first.directories l)
  same l apart :=
    (next.same l (mt .inr apart)).trans (first.same l (mt .inl apart))

theorem mono (h : t.Alike differs u) (le : ∀ l, differs l → more l) : t.Alike more u where
  here := h.here
  directories := h.directories
  same l apart := h.same l (mt (le l) apart)

theorem toExtends (h : t.Alike differs u) : t.Extends u where
  here := h.here
  directories l := (h.directories l).mpr

end Alike

/-- Directories stay, and so do regular files but at the places that may change. -/
structure Keeps (changed : Location → Prop) (t u : Tree) : Prop extends t.Extends u where
  files : ∀ l, ¬ changed l → u.file? l = t.file? l

theorem Alike.toKeeps {changed : Location → Prop} {t u : Tree} (h : t.Alike changed u) :
    t.Keeps changed u where
  toExtends := h.toExtends
  files l same := by
    unfold file?
    rw [h.same l same]

namespace Keeps

variable {changed : Location → Prop} {t u v : Tree}

theorem refl (changed : Location → Prop) (t : Tree) : t.Keeps changed t :=
  ⟨⟨rfl, fun _ h => h⟩, fun _ _ => rfl⟩

theorem trans (first : t.Keeps changed u) (next : u.Keeps changed v) : t.Keeps changed v where
  here := next.here.trans first.here
  directories l h := next.directories l (first.directories l h)
  files l same := (next.files l same).trans (first.files l same)

theorem mono {more : Location → Prop} (h : t.Keeps changed u) (le : ∀ l, changed l → more l) :
    t.Keeps more u where
  toExtends := h.toExtends
  files l same := h.files l (mt (le l) same)

end Keeps

/-- A written file is all that differs. -/
theorem alike_write {t u : Tree} {path : String} {content : ByteArray}
    (h : t.write path content = .ok u) : t.Alike (fun l => t.locate path = .ok l) u := by
  obtain ⟨l, named, located, free, rfl⟩ := write_eq_ok h
  refine ⟨rfl, fun k => ?_, fun k apart => ?_⟩
  · rw [at?_set named]
    by_cases here : k = l
    · rw [if_pos here, here]
      exact iff_of_false (by simp) free
    · rw [if_neg here]
  · rw [at?_set named, if_neg]
    rintro rfl
    exact apart located

theorem file?_of_write {t u : Tree} {path : String} {content : ByteArray}
    (h : t.write path content = .ok u) :
    ∃ l, t.locate path = .ok l ∧ u.file? l = some content := by
  obtain ⟨l, named, located, -, rfl⟩ := write_eq_ok h
  refine ⟨l, located, ?_⟩
  unfold file?
  rw [at?_set named, if_pos rfl]

theorem keeps_makeDirectory {t u : Tree} {path : String} (h : t.makeDirectory path = .ok u) :
    t.Keeps (fun _ => False) u := by
  obtain ⟨l, named, free, rfl⟩ := makeDirectory_eq_ok h
  refine ⟨⟨rfl, fun k directory => ?_⟩, fun k _ => ?_⟩
  · rw [at?_set named]
    split
    · rfl
    · exact directory
  · unfold file?
    rw [at?_set named]
    by_cases here : k = l
    · rw [if_pos here, here, free]
    · rw [if_neg here]

theorem read_of_file? {t : Tree} {path : String} {l : Location} {content : ByteArray}
    (located : t.locate path = .ok l) (found : t.file? l = some content) :
    t.read path = .ok content := by
  unfold file? at found
  unfold read
  rw [located]
  dsimp only [bind, Except.bind]
  split at found
  next c there =>
    cases found
    rw [there]
  next => cases found

end Tree

open Storage (readFile writeFile makeDirectory)

theorem writeFile_run (path : String) (content : ByteArray) (t : Tree) :
    (writeFile path content : StateM Tree _).run t =
      match t.write path content with
      | .ok u => (.ok (), u)
      | .error p => (.error p, t) := rfl

theorem makeDirectory_run (path : String) (t : Tree) :
    (makeDirectory path : StateM Tree _).run t =
      match t.makeDirectory path with
      | .ok u => (.ok (), u)
      | .error p => (.error p, t) := rfl

theorem readFile_run (path : String) (t : Tree) :
    (readFile path : StateM Tree _).run t = (t.read path, t) := rfl

theorem readText_run (path : String) (t : Tree) :
    (readText path : StateM Tree _).run t = ((t.read path).toOption.bind String.fromUTF8?, t) := by
  rw [readText, StateT.run_bind, readFile_run]
  cases t.read path <;> rfl

theorem haveDirectory_run (path : String) (t : Tree) :
    (haveDirectory path : StateM Tree _).run t =
      match t.makeDirectory path with
      | .ok u => (.ok (), u)
      | .error p => (if t.isDirectory path then .ok () else .error p, t) := by
  rw [haveDirectory, StateT.run_bind, makeDirectory_run]
  cases t.makeDirectory path <;> rfl

theorem haveFirst_run (path : String) (outer : List String) (t : Tree) :
    (haveFirst (path :: outer) : StateM Tree _).run t =
      match t.makeDirectory path with
      | .ok u => (.ok (), u)
      | .error .notFound =>
        match (haveFirst outer : StateM Tree _).run t with
        | (.ok (), u) => (haveDirectory path : StateM Tree _).run u
        | (.error p, u) => (.error p, u)
      | .error p => (if t.isDirectory path then .ok () else .error p, t) := by
  rw [haveFirst, StateT.run_bind, makeDirectory_run]
  cases t.makeDirectory path with
  | ok u => rfl
  | error p =>
      cases p with
      | notFound =>
          change (haveFirst outer >>= _ : StateM Tree _).run t = _
          rw [StateT.run_bind]
          rcases (haveFirst outer : StateM Tree _).run t with ⟨_ | _, u⟩ <;> rfl
      | _ => rfl

theorem keeps_haveDirectory (path : String) (t : Tree) :
    t.Keeps (fun _ => False) ((haveDirectory path : StateM Tree _).run t).2 := by
  rw [haveDirectory_run]
  cases made : t.makeDirectory path with
  | ok u => exact Tree.keeps_makeDirectory made
  | error p => exact .refl _ t

theorem keeps_haveFirst (paths : List String) (t : Tree) :
    t.Keeps (fun _ => False) ((haveFirst paths : StateM Tree _).run t).2 := by
  induction paths with
  | nil => exact .refl _ t
  | cons path outer ih =>
      rw [haveFirst_run]
      cases made : t.makeDirectory path with
      | ok u => exact Tree.keeps_makeDirectory made
      | error p =>
          cases p with
          | notFound =>
              dsimp only
              generalize (haveFirst outer : StateM Tree _).run t = first at ih ⊢
              obtain ⟨p | _, u⟩ := first
              · exact ih
              · exact ih.trans (keeps_haveDirectory path u)
          | _ => exact .refl _ t

theorem keeps_haveDirectories (path : String) (t : Tree) :
    t.Keeps (fun _ => False) ((haveDirectories path : StateM Tree _).run t).2 := by
  unfold haveDirectories
  split
  · exact .refl _ t
  · exact keeps_haveFirst _ t

end ServiceDoc.Files
