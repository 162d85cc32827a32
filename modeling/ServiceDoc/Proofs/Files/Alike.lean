import ServiceDoc.Proofs.Files.Path
import ServiceDoc.Proofs.Files.Storage

/-! Trees with the same directories that differ in some files. What is written and made in both leaves
them so, and fails in one where it fails in the other: files lead nowhere, so it makes no difference
which of them are there, unless a directory is wanted in their place. -/
namespace ServiceDoc.Files

/-- A path, or a beginning of it, leads to a location. -/
def Reaches (here : Location) (path : String) (l : Location) : Prop :=
  ∃ done, done ≠ [] ∧ done <+: names path ∧ done.foldl follow (origin here path) = l

theorem Reaches.of_passes {here k : Location} {path : String}
    (h : Passes (origin here path) (names path) k) : k = origin here path ∨ Reaches here path k := by
  obtain ⟨done, within, rfl⟩ := h
  cases done with
  | nil => exact .inl rfl
  | cons name rest => exact .inr ⟨name :: rest, List.cons_ne_nil _ _, within, rfl⟩

namespace Tree

namespace Alike

variable {differs : Location → Prop} {t u : Tree}

/-- At a directory there is no difference. -/
theorem narrow (h : t.Alike differs u) :
    t.Alike (fun l => differs l ∧ t.at? l ≠ some .directory) u where
  here := h.here
  directories := h.directories
  same l apart := by
    by_cases directory : t.at? l = some .directory
    · rw [directory, (h.directories l).mpr directory]
    · exact h.same l fun there => apart ⟨there, directory⟩

theorem set (h : t.Alike differs u) {l : Location} (named : l ≠ []) (n : Node) :
    (t.set l n).Alike differs (u.set l n) where
  here := h.here
  directories k := by
    rw [at?_set named, at?_set named]
    by_cases here : k = l
    · rw [if_pos here, if_pos here]
    · rw [if_neg here, if_neg here, h.directories k]
  same k apart := by rw [at?_set named, at?_set named, h.same k apart]

theorem isDirectory_eq (h : t.Alike differs u) (path : String) :
    u.isDirectory path = t.isDirectory path := by
  have led {t u : Tree} (h : t.Alike differs u) (there : t.isDirectory path = true) :
      u.isDirectory path = true := by
    unfold isDirectory at there ⊢
    cases located : t.locate path with
    | error p => simp [located] at there
    | ok l =>
        rw [located] at there
        rw [h.toExtends.locate located]
        exact isDirectory_any.mpr ((h.directories l).mpr (isDirectory_any.mp there))
  exact Bool.eq_iff_iff.mpr ⟨led h.symm, led h⟩

theorem write_of_ok (h : t.Alike differs u) {path : String} {content : ByteArray} {v : Tree}
    (written : t.write path content = .ok v) :
    ∃ w, u.write path content = .ok w ∧ v.Alike differs w := by
  obtain ⟨g, found, written⟩ := Json.ok_of_bind written
  split at written
  · cases written
  next place =>
    split at written
    · cases written
    next short =>
      split at written
      · cases written
      next free =>
        cases written
        refine ⟨_, ?_, h.set (List.cons_ne_nil _ _) (.file content)⟩
        rw [isDirectory_any, ← h.directories, ← isDirectory_any] at free
        rw [Tree.write, h.toExtends.target found]
        dsimp only [bind, Except.bind]
        rw [if_neg place, if_neg short, if_neg free, Target.location]

/-- A file can be written in both or in neither. -/
theorem write (h : t.Alike differs u) (path : String) (content : ByteArray) :
    (∃ p q, t.write path content = .error p ∧ u.write path content = .error q) ∨
      ∃ v w, t.write path content = .ok v ∧ u.write path content = .ok w ∧ v.Alike differs w := by
  cases first : t.write path content with
  | ok v =>
      obtain ⟨w, second, alike⟩ := h.write_of_ok first
      exact .inr ⟨v, w, rfl, second, alike⟩
  | error p =>
      cases second : u.write path content with
      | error q => exact .inl ⟨p, q, rfl, rfl⟩
      | ok w =>
          obtain ⟨v, written, -⟩ := h.symm.write_of_ok second
          rw [first] at written
          cases written

/-- Where no place that differs is passed, the same is found on the way. -/
theorem target_eq (h : t.Alike differs u) {path : String}
    (apart : ∀ k, Passes (origin t.here path) (names path) k → ¬ differs k) :
    u.target path = t.target path := by
  unfold Tree.target
  rw [start_congr h.here]
  cases started : t.start path with
  | error p => rfl
  | ok start =>
      obtain rfl := start_eq_ok started
      dsimp only [bind, Except.bind]
      split
      next => rfl
      next name before found =>
        have within : before.reverse <+: names path := by
          have last := List.dropWhile_suffix (l := (names path).reverse) (· = "")
          rw [found] at last
          have first := List.reverse_prefix.mpr last
          rw [List.reverse_cons, List.reverse_reverse] at first
          exact (List.prefix_append _ _).trans first
        have walked : u.walk (origin t.here path) before.reverse =
            t.walk (origin t.here path) before.reverse :=
          walk_congr fun k passed => h.same k (apart k (passed.of_prefix within))
        rw [walked]
        cases reached : t.walk (origin t.here path) before.reverse with
        | error p => rfl
        | ok directory =>
            have passed : Passes (origin t.here path) (names path) directory :=
              ⟨before.reverse, within, follow_of_walk reached⟩
            dsimp only
            rw [enter_congr (h.same directory (apart directory passed))]

/-- There a directory can be made in both, or in neither and for the same reason. -/
theorem makeDirectory (h : t.Alike differs u) {path : String}
    (apart : ∀ k, Passes (origin t.here path) (names path) k → ¬ differs k) :
    (∃ p, t.makeDirectory path = .error p ∧ u.makeDirectory path = .error p) ∨
      ∃ v w, t.makeDirectory path = .ok v ∧ u.makeDirectory path = .ok w ∧ v.Alike differs w := by
  unfold Tree.makeDirectory
  rw [h.target_eq apart]
  cases found : t.target path with
  | error p => exact .inl ⟨p, rfl, rfl⟩
  | ok g =>
      dsimp only [bind, Except.bind]
      cases there : g.isThere with
      | true => exact .inl ⟨_, rfl, rfl⟩
      | false =>
          have place := apart g.location (passes_location found there)
          rw [if_neg Bool.false_ne_true, if_neg Bool.false_ne_true, h.same g.location place]
          split
          · exact .inl ⟨_, rfl, rfl⟩
          · split
            · exact .inl ⟨_, rfl, rfl⟩
            · exact .inr ⟨_, _, rfl, rfl, h.set (List.cons_ne_nil _ _) .directory⟩

end Alike

end Tree

/-- Two runs give the same and leave trees alike. -/
structure Agree {α : Type} (differs : Location → Prop) (x y : α × Tree) : Prop where
  result : y.1 = x.1
  trees : x.2.Alike differs y.2

variable {differs : Location → Prop} {t u : Tree}

theorem haveDirectory_agree (h : t.Alike differs u) {path : String}
    (apart : ∀ k, Passes (origin t.here path) (names path) k → ¬ differs k) :
    Agree differs ((haveDirectory path : StateM Tree _).run t)
      ((haveDirectory path : StateM Tree _).run u) := by
  rw [haveDirectory_run, haveDirectory_run]
  rcases h.makeDirectory apart with ⟨p, first, second⟩ | ⟨v, w, first, second, alike⟩
  · rw [first, second, h.isDirectory_eq]
    exact ⟨rfl, h⟩
  · rw [first, second]
    exact ⟨rfl, alike⟩

theorem haveFirst_agree (h : t.Alike differs u) (paths : List String)
    (apart : ∀ path ∈ paths, ∀ k, Passes (origin t.here path) (names path) k → ¬ differs k) :
    Agree differs ((haveFirst paths : StateM Tree _).run t)
      ((haveFirst paths : StateM Tree _).run u) := by
  induction paths with
  | nil => exact ⟨rfl, h⟩
  | cons path outer ih =>
      obtain ⟨result, after⟩ := ih fun q member => apart q (List.mem_cons_of_mem path member)
      have place := apart path List.mem_cons_self
      rw [haveFirst_run, haveFirst_run]
      rcases h.makeDirectory place with ⟨p, first, second⟩ | ⟨v, w, first, second, alike⟩
      · rw [first, second, h.isDirectory_eq]
        cases p with
        | notFound =>
            have kept := (keeps_haveFirst outer t).here
            dsimp only
            generalize (haveFirst outer : StateM Tree _).run t = one at result after kept ⊢
            generalize (haveFirst outer : StateM Tree _).run u = other at result after ⊢
            obtain ⟨r, v⟩ := one
            obtain ⟨s, w⟩ := other
            cases result
            cases r with
            | error p => exact ⟨rfl, after⟩
            | ok _ =>
                refine haveDirectory_agree after ?_
                rw [kept]
                exact place
        | _ => exact ⟨rfl, h⟩
      · rw [first, second]
        exact ⟨rfl, alike⟩

/-! ### Nowhere to start -/

theorem Tree.eq_of_walk {l k : Location} {names : List String} (h : t.walk l names = .ok k)
    (stuck : t.at? l ≠ some .directory) : k = l := by
  cases names with
  | nil => exact (Except.ok.inj h).symm
  | cons name rest =>
      obtain ⟨next, first, -⟩ := Json.ok_of_bind h
      exact absurd (step_eq_ok.mp first).1 stuck

section
variable (stuck : t.at? t.here ≠ some .directory)
include stuck

/-- Where relative paths start from no directory, none is there and none can be made. -/
theorem makeDirectory_stuck {path : String} (relative : isAbsolute path = false) :
    ∃ p, t.makeDirectory path = .error p ∧ t.isDirectory path = false := by
  have start : origin t.here path = t.here := by rw [origin, relative, if_neg Bool.false_ne_true]
  have nowhere : t.isDirectory path = false := by
    unfold Tree.isDirectory
    cases located : t.locate path with
    | error p => rfl
    | ok l =>
        obtain ⟨first, started, walked⟩ := Json.ok_of_bind located
        rw [Tree.start_eq_ok started, start] at walked
        rw [Tree.eq_of_walk walked stuck, ← Bool.not_eq_true, Tree.isDirectory_any]
        exact stuck
  cases made : t.makeDirectory path with
  | error p => exact ⟨p, rfl, nowhere⟩
  | ok u =>
      obtain ⟨g, found, made⟩ := Json.ok_of_bind made
      split at made
      · cases made
      next place =>
        have named := (Tree.isThere_eq_false (Bool.eq_false_iff.mpr place)).1
        obtain ⟨directory, before, after, -, -, -, walked⟩ := Tree.target_eq_ok found named
        rw [start] at walked
        rw [Tree.eq_of_walk walked stuck] at directory
        exact absurd directory stuck

theorem haveFirst_stuck {paths : List String} (some : paths ≠ [])
    (relative : ∀ path ∈ paths, isAbsolute path = false) :
    ∃ p, (haveFirst paths : StateM Tree _).run t = (.error p, t) := by
  induction paths with
  | nil => exact absurd rfl some
  | cons path outer ih =>
      obtain ⟨p, made, nowhere⟩ := makeDirectory_stuck stuck (relative path List.mem_cons_self)
      rw [haveFirst_run, made]
      cases p with
      | notFound =>
          dsimp only
          cases outer with
          | nil =>
              refine ⟨.notFound, ?_⟩
              change (haveDirectory path : StateM Tree _).run t = _
              rw [haveDirectory_run, made]
              simp [nowhere]
          | cons next rest =>
              obtain ⟨q, failed⟩ := ih (List.cons_ne_nil _ _) fun q member =>
                relative q (List.mem_cons_of_mem path member)
              exact ⟨q, by rw [failed]⟩
      | _ => exact ⟨_, by simp only [nowhere]; rfl⟩

end

/-- Directories are had in both or in neither where nothing that differs is on the way to them. It
need not be for the same reason that they cannot be had. -/
theorem haveDirectories_alike (h : t.Alike differs u) {path : String}
    (apart : ∀ l, Reaches t.here path l → ¬ differs l) :
    ((haveDirectories path : StateM Tree _).run u).1.toOption =
        ((haveDirectories path : StateM Tree _).run t).1.toOption ∧
      ((haveDirectories path : StateM Tree _).run t).2.Alike differs
        ((haveDirectories path : StateM Tree _).run u).2 := by
  unfold haveDirectories
  split
  · exact ⟨rfl, h⟩
  -- Where the path starts is passed too. If that is no directory, a file may be there in one tree
  -- only, and the reasons differ, but no directory is made in either.
  by_cases directory : t.at? (origin t.here path) = some .directory
  · have passed (k : Location) (on : Passes (origin t.here path) (names path) k) :
        ¬ (differs k ∧ t.at? k ≠ some .directory) := by
      rcases Reaches.of_passes on with rfl | reached
      · exact fun there => there.2 directory
      · exact fun there => apart k reached there.1
    have all : ∀ dir ∈ path :: ancestors path, ∀ k,
        Passes (origin t.here dir) (names dir) k → ¬ (differs k ∧ t.at? k ≠ some .directory) := by
      intro dir member k on
      rcases List.mem_cons.mp member with rfl | member
      · exact passed k on
      · obtain ⟨begins, within⟩ := of_mem_ancestors member
        rw [origin, begins, ← origin] at on
        exact passed k (within _ k on)
    obtain ⟨result, after⟩ := haveFirst_agree h.narrow _ all
    exact ⟨congrArg Except.toOption result, after.mono fun l there => there.1⟩
  · have relative : isAbsolute path = false := by
      refine Bool.eq_false_iff.mpr fun absolute => directory ?_
      rw [origin, absolute, if_pos rfl, Tree.at?_root]
    rw [origin, relative, if_neg Bool.false_ne_true] at directory
    have all : ∀ dir ∈ path :: ancestors path, isAbsolute dir = false := by
      intro dir member
      rcases List.mem_cons.mp member with rfl | member
      · exact relative
      · exact (of_mem_ancestors member).1.trans relative
    have other : u.at? u.here ≠ some .directory := by
      rw [h.here]
      exact mt (h.directories t.here).mp directory
    obtain ⟨p, first⟩ := haveFirst_stuck directory (List.cons_ne_nil _ _) all
    obtain ⟨q, second⟩ := haveFirst_stuck other (List.cons_ne_nil _ _) all
    rw [first, second]
    exact ⟨rfl, h⟩

end ServiceDoc.Files
