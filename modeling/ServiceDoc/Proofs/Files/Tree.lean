import ServiceDoc.Files.Tree
import ServiceDoc.Proofs.Json.Scan
import Mathlib.Data.List.Infix
import Mathlib.Data.List.TakeWhile

/-! What paths lead to and what changes of a tree do. Names are followed without regard to what is
there; a walk is the same, made in a tree that lets it pass. It looks at nothing but the locations it
passes, so trees that agree on these take it alike, and once a walk succeeds it goes on to succeed as
long as directories stay. A change sets one location, and no directory is ever replaced. -/
namespace ServiceDoc.Files
open Json (ok_of_bind)

/-- Where a name leads from a location, whatever is there. -/
def follow (l : Location) (name : String) : Location :=
  if name = "" ∨ name = "." then l else if name = ".." then l.tail else name :: l

/-- Where the names of a path are followed from. -/
def origin (here : Location) (path : String) : Location := if isAbsolute path then [] else here

/-- Locations that are passed when names are followed, the first and the last one among them. -/
def Passes (l : Location) (names : List String) (k : Location) : Prop :=
  ∃ done, done <+: names ∧ done.foldl follow l = k

theorem Passes.start (l : Location) (names : List String) : Passes l names l :=
  ⟨[], List.nil_prefix, rfl⟩

theorem Passes.cons {l k : Location} {name : String} {names : List String}
    (h : Passes (follow l name) names k) : Passes l (name :: names) k := by
  obtain ⟨done, within, rfl⟩ := h
  exact ⟨name :: done, List.cons_prefix_cons.mpr ⟨rfl, within⟩, rfl⟩

namespace Tree

/-! ### Locations -/

@[simp] theorem at?_root (t : Tree) : t.at? [] = some .directory := if_pos rfl

theorem lookup_put (l k : Location) (n : Node) (nodes : List (Location × Node)) :
    (put l n nodes).lookup k = if k = l then some n else nodes.lookup k := by
  induction nodes with
  | nil =>
      by_cases same : k = l
      · simp [put, same]
      · simp only [put, List.lookup_cons, beq_eq_false_iff_ne.mpr same, same, if_false]
  | cons entry rest ih =>
      obtain ⟨j, old⟩ := entry
      by_cases here : j = l
      · subst here
        simp only [put, if_true, List.lookup_cons]
        by_cases same : k = j
        · simp [same]
        · simp only [beq_eq_false_iff_ne.mpr same, same, if_false]
      · simp only [put, here, if_false, List.lookup_cons, ih]
        by_cases same : k = j
        · subst same
          simp [here]
        · simp only [beq_eq_false_iff_ne.mpr same]

theorem at?_set {l : Location} (named : l ≠ []) (t : Tree) (n : Node) (k : Location) :
    (t.set l n).at? k = if k = l then some n else t.at? k := by
  unfold at? set
  rw [lookup_put]
  by_cases root : k = []
  · subst root
    simp only [if_true, Ne.symm named, if_false]
  · simp only [root, if_false]

/-- The content of a regular file. -/
def file? (t : Tree) (l : Location) : Option ByteArray :=
  match t.at? l with
  | some (.file content) => some content
  | _ => none

theorem isDirectory_any {o : Option Node} : o.any Node.isDirectory = true ↔ o = some .directory := by
  cases o with
  | none => simp
  | some n => cases n <;> simp [Node.isDirectory]

/-! ### Walks -/

theorem enter_eq_ok {t : Tree} {l : Location} : t.enter l = .ok () ↔ t.at? l = some .directory := by
  unfold enter
  cases t.at? l with
  | none => simp
  | some n => cases n <;> simp

theorem enter_congr {t u : Tree} {l : Location} (h : t.at? l = u.at? l) : t.enter l = u.enter l := by
  unfold enter
  rw [h]

/-- The names that mean no new one are short. -/
theorem step_eq (t : Tree) (l : Location) (name : String) :
    t.step l name = (t.enter l).bind fun _ =>
      if nameLimit < name.utf8ByteSize then .error .nameTooLong else .ok (follow l name) := by
  have empty : ¬ nameLimit < "".utf8ByteSize := by decide
  have dot : ¬ nameLimit < ".".utf8ByteSize := by decide
  have dots : ¬ nameLimit < "..".utf8ByteSize := by decide
  unfold step follow
  refine congrArg (t.enter l).bind (funext fun _ => ?_)
  by_cases same : name = "" ∨ name = "."
  · rcases same with rfl | rfl
    · simp only [empty, true_or, if_true, if_false]
    · simp only [dot, or_true, if_true, if_false]
  · by_cases up : name = ".."
    · subst up
      simp only [same, dots, if_true, if_false]
    · simp only [same, up, if_false]

theorem step_eq_ok {t : Tree} {l k : Location} {name : String} :
    t.step l name = .ok k ↔
      t.at? l = some .directory ∧ name.utf8ByteSize ≤ nameLimit ∧ follow l name = k := by
  rw [step_eq, ← enter_eq_ok]
  cases t.enter l with
  | error p => simp [Except.bind]
  | ok _ =>
      simp only [Except.bind, true_and]
      split <;> simp <;> omega

theorem walk_cons (t : Tree) (l : Location) (name : String) (names : List String) :
    t.walk l (name :: names) = (t.step l name).bind fun k => t.walk k names := rfl

theorem walk_append (t : Tree) (l : Location) (names more : List String) :
    t.walk l (names ++ more) = (t.walk l names).bind fun k => t.walk k more :=
  List.foldlM_append

theorem follow_of_walk {t : Tree} {l k : Location} {names : List String}
    (h : t.walk l names = .ok k) : names.foldl follow l = k := by
  induction names generalizing l with
  | nil => exact Except.ok.inj h
  | cons name rest ih =>
      obtain ⟨next, first, others⟩ := ok_of_bind h
      obtain ⟨-, -, rfl⟩ := step_eq_ok.mp first
      exact ih others

/-- Trees that agree on what a walk passes take it alike, also when it fails. -/
theorem walk_congr {t u : Tree} {l : Location} {names : List String}
    (agree : ∀ k, Passes l names k → t.at? k = u.at? k) : t.walk l names = u.walk l names := by
  induction names generalizing l with
  | nil => rfl
  | cons name rest ih =>
      rw [walk_cons, walk_cons, step_eq, step_eq, enter_congr (agree l (.start l _))]
      have others := ih fun k passed => agree k (.cons passed)
      cases u.enter l with
      | error p => rfl
      | ok _ =>
          by_cases long : nameLimit < name.utf8ByteSize
          · simp only [Except.bind, long, if_true]
          · simp only [Except.bind, long, if_false, others]

/-- Every directory of one tree is one of the other, and paths start at the same place. -/
structure Extends (t u : Tree) : Prop where
  here : u.here = t.here
  directories : ∀ l, t.at? l = some .directory → u.at? l = some .directory

theorem Extends.walk {t u : Tree} (h : t.Extends u) {l k : Location} {names : List String}
    (walked : t.walk l names = .ok k) : u.walk l names = .ok k := by
  induction names generalizing l with
  | nil => exact walked
  | cons name rest ih =>
      obtain ⟨next, first, others⟩ := ok_of_bind walked
      obtain ⟨directory, short, same⟩ := step_eq_ok.mp first
      have first : u.step l name = .ok next := step_eq_ok.mpr ⟨h.directories l directory, short, same⟩
      rw [walk_cons, first]
      exact ih others

theorem start_congr {t u : Tree} (here : u.here = t.here) (path : String) :
    u.start path = t.start path := by
  unfold start
  rw [here]

theorem start_eq_ok {t : Tree} {path : String} {l : Location} (h : t.start path = .ok l) :
    l = origin t.here path := by
  unfold start at h
  split at h
  · cases h
  · split at h
    · cases h
    · split at h
      · cases h
      · exact (Except.ok.inj h).symm

theorem Extends.locate {t u : Tree} (h : t.Extends u) {path : String} {l : Location}
    (located : t.locate path = .ok l) : u.locate path = .ok l := by
  obtain ⟨start, started, walked⟩ := ok_of_bind located
  have started : u.start path = .ok start := (start_congr h.here path).trans started
  rw [Tree.locate, started]
  exact h.walk walked

/-! ### Targets -/

theorem isThere_eq_false {g : Target} (h : g.isThere = false) :
    g.name ≠ "" ∧ g.location = follow g.directory g.name := by
  simp only [Target.isThere, Bool.or_eq_false_iff, decide_eq_false_iff_not] at h
  obtain ⟨⟨empty, dot⟩, dots⟩ := h
  refine ⟨empty, ?_⟩
  simp only [Target.location, follow, empty, dot, dots, or_self, if_false]

/-- A target is reached by all names but the last one and what is empty after it. -/
theorem target_eq_ok {t : Tree} {path : String} {g : Target} (h : t.target path = .ok g)
    (named : g.name ≠ "") :
    t.at? g.directory = some .directory ∧
      ∃ before after, names path = before ++ g.name :: after ∧ (g.slashed = false → after = []) ∧
        t.start path = .ok (origin t.here path) ∧
        t.walk (origin t.here path) before = .ok g.directory := by
  obtain ⟨start, started, h⟩ := ok_of_bind h
  obtain rfl := start_eq_ok started
  have parted := List.takeWhile_append_dropWhile (p := (· = "")) (l := (names path).reverse)
  dsimp only at h
  split at h
  next =>
    cases h
    exact absurd rfl named
  next name before found =>
    obtain ⟨directory, walked, h⟩ := ok_of_bind h
    obtain ⟨_, entered, h⟩ := ok_of_bind h
    cases h
    refine ⟨enter_eq_ok.mp entered, before.reverse,
      ((names path).reverse.takeWhile (· = "")).reverse, ?_, ?_, started, walked⟩
    · rw [found] at parted
      have whole := congrArg List.reverse parted
      simpa using whole.symm
    · intro unslashed
      cases last : (names path).reverse.takeWhile (· = "") with
      | nil => rfl
      | cons a rest =>
          have member : a ∈ (names path).reverse.takeWhile (· = "") := last ▸ List.mem_cons_self
          have empty : a = "" := by simpa using List.mem_takeWhile_imp member
          have ends : (names path).reverse.head? = some "" := by
            rw [← parted, last, empty]
            rfl
          exact absurd ends (of_decide_eq_false unslashed)

/-- Where a target is, the path leads, unless something is said after its name. -/
theorem locate_of_target {t : Tree} {path : String} {g : Target} (h : t.target path = .ok g)
    (named : g.isThere = false) (unslashed : g.slashed = false)
    (short : ¬ nameLimit < g.name.utf8ByteSize) : t.locate path = .ok g.location := by
  obtain ⟨nonempty, location⟩ := isThere_eq_false named
  obtain ⟨directory, before, after, shape, last, started, walked⟩ := target_eq_ok h nonempty
  have stepped : t.step g.directory g.name = .ok g.location :=
    step_eq_ok.mpr ⟨directory, Nat.le_of_not_lt short, location.symm⟩
  rw [last unslashed] at shape
  simp only [locate, started, bind, Except.bind, shape, walk_append, walked, walk_cons, stepped]
  rfl

theorem passes_location {t : Tree} {path : String} {g : Target} (h : t.target path = .ok g)
    (named : g.isThere = false) : Passes (origin t.here path) (names path) g.location := by
  obtain ⟨nonempty, location⟩ := isThere_eq_false named
  obtain ⟨-, before, after, shape, -, -, walked⟩ := target_eq_ok h nonempty
  refine ⟨before ++ [g.name], ⟨after, by rw [shape, List.append_assoc]; rfl⟩, ?_⟩
  rw [List.foldl_append, follow_of_walk walked, location]
  rfl

theorem Extends.target {t u : Tree} (h : t.Extends u) {path : String} {g : Target}
    (found : t.target path = .ok g) : u.target path = .ok g := by
  obtain ⟨start, started, found⟩ := ok_of_bind found
  have started : u.start path = .ok start := (start_congr h.here path).trans started
  rw [Tree.target, started]
  dsimp only [bind, Except.bind] at found ⊢
  split at found
  next => exact found
  next name before shape =>
    obtain ⟨directory, walked, found⟩ := ok_of_bind found
    obtain ⟨_, entered, found⟩ := ok_of_bind found
    have entered := enter_eq_ok.mpr (h.directories directory (enter_eq_ok.mp entered))
    rw [h.walk walked]
    dsimp only
    rw [entered]
    exact found

/-! ### Changes -/

/-- A written file is where its path leads, and no directory was there. -/
theorem write_eq_ok {t u : Tree} {path : String} {content : ByteArray}
    (h : t.write path content = .ok u) :
    ∃ l, l ≠ [] ∧ t.locate path = .ok l ∧ t.at? l ≠ some .directory ∧
      u = t.set l (.file content) := by
  obtain ⟨g, found, h⟩ := ok_of_bind h
  split at h
  · cases h
  next place =>
    split at h
    · cases h
    next short =>
      split at h
      · cases h
      next free =>
        obtain ⟨named, unslashed⟩ := Bool.or_eq_false_iff.mp (Bool.eq_false_iff.mpr place)
        refine ⟨g.location, List.cons_ne_nil _ _, locate_of_target found named unslashed short,
          mt isDirectory_any.mpr free, (Except.ok.inj h).symm⟩

theorem makeDirectory_eq_ok {t u : Tree} {path : String} (h : t.makeDirectory path = .ok u) :
    ∃ l, l ≠ [] ∧ t.at? l = none ∧ u = t.set l .directory := by
  obtain ⟨g, found, h⟩ := ok_of_bind h
  split at h
  · cases h
  · split at h
    · cases h
    · split at h
      · cases h
      next free =>
        exact ⟨g.location, List.cons_ne_nil _ _, by simpa using free, (Except.ok.inj h).symm⟩

end Tree
end ServiceDoc.Files
