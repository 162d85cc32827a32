import ServiceDoc.Idl.Growth
import ServiceDoc.Proofs.Idl.Naming

/-! Lookups while an interface grows. What is found stays found: an addition of the same kind comes
too late, so only one of a kind that is searched earlier can take the place of a definition, and no
addition at all that of a namespace or a struct. -/
namespace ServiceDoc.Idl

namespace Addition

def space? : Addition → Option Namespace
  | .space n => some n
  | _ => none

def struct? : Addition → Option Struct
  | .struct s => some s
  | _ => none

def union? : Addition → Option Struct
  | .union s => some s
  | _ => none

def exception? : Addition → Option Struct
  | .exception s => some s
  | _ => none

def service? : Addition → Option Service
  | .service s => some s
  | _ => none

/-- What an addition defines, whatever its kind. -/
def definition? : Addition → Option Struct
  | .struct s => some s
  | .union s => some s
  | .exception s => some s
  | _ => none

end Addition

/-! ### The parts of a grown interface -/

theorem add_eq (i : Interface) (a : Addition) :
    i.add a =
      { filename := i.filename
        namespaces := i.namespaces ++ a.space?.toList
        structs := i.structs ++ a.struct?.toList
        unions := i.unions ++ a.union?.toList
        exceptions := i.exceptions ++ a.exception?.toList
        services := i.services ++ a.service?.toList } := by
  cases a <;>
    simp [Interface.add, Interface.addNamespace, Interface.addStruct, Interface.addUnion,
      Interface.addException, Interface.addService, Addition.space?, Addition.struct?,
      Addition.union?, Addition.exception?, Addition.service?]

theorem filterMap_cons_toList {α β : Type} (f : α → Option β) (a : α) (rest : List α) :
    (a :: rest).filterMap f = (f a).toList ++ rest.filterMap f := by
  rw [List.filterMap_cons]
  cases f a <;> rfl

/-- Each part has what was added to it, in order, after what was there. -/
theorem grow_eq (i : Interface) (additions : List Addition) :
    i.grow additions =
      { filename := i.filename
        namespaces := i.namespaces ++ additions.filterMap Addition.space?
        structs := i.structs ++ additions.filterMap Addition.struct?
        unions := i.unions ++ additions.filterMap Addition.union?
        exceptions := i.exceptions ++ additions.filterMap Addition.exception?
        services := i.services ++ additions.filterMap Addition.service? } := by
  induction additions generalizing i with
  | nil => simp [Interface.grow]
  | cons a rest ih =>
      have later : i.grow (a :: rest) = (i.add a).grow rest := rfl
      simp only [later, ih, add_eq, filterMap_cons_toList, List.append_assoc]

/-! ### Where a definition is found -/

inductive Source where
  | structs
  | unions
  | exceptions

/-- A name refers to a definition of one source and to none of a source that is searched
earlier. -/
def Interface.Found (i : Interface) (name : String) (s : Struct) : Source → Prop
  | .structs => IsEarliest name i.structs s
  | .unions => Undefined name i.structs ∧ IsEarliest name i.unions s
  | .exceptions =>
    Undefined name i.structs ∧ Undefined name i.unions ∧ IsEarliest name i.exceptions s

/-- The addition defines a name where it is searched before a source. -/
def Addition.Hides (name : String) : Source → Addition → Prop
  | .unions, .struct s => s.name = name
  | .exceptions, .struct s => s.name = name
  | .exceptions, .union s => s.name = name
  | _, _ => False

variable {i : Interface} {name : String} {s : Struct} {source : Source} {a : Addition}

theorem refers_iff_found : Refers i name s ↔ ∃ source, i.Found name s source := by
  constructor
  · rintro (struct | ⟨noStruct, union | ⟨noUnion, exception⟩⟩)
    · exact ⟨.structs, struct⟩
    · exact ⟨.unions, noStruct, union⟩
    · exact ⟨.exceptions, noStruct, noUnion, exception⟩
  · rintro ⟨source, found⟩
    cases source with
    | structs => exact .inl found
    | unions => exact .inr ⟨found.1, .inl found.2⟩
    | exceptions => exact .inr ⟨found.1, .inr ⟨found.2.1, found.2.2⟩⟩

theorem Interface.Found.find_eq (h : i.Found name s source) : i.find name = some s :=
  find_eq_some_iff.mpr (refers_iff_found.mpr ⟨source, h⟩)

theorem IsEarliest.append {definitions : List Struct} (h : IsEarliest name definitions s)
    (later : List Struct) : IsEarliest name (definitions ++ later) s := by
  obtain ⟨named, before, after, split, earlier⟩ := h
  refine ⟨named, before, after ++ later, ?_, earlier⟩
  rw [split, List.append_assoc, List.cons_append]

theorem isEarliest_concat {definitions : List Struct} (undefined : Undefined name definitions)
    (named : s.name = name) : IsEarliest name (definitions ++ [s]) s :=
  ⟨named, definitions, [], rfl, undefined⟩

theorem undefined_append {definitions later : List Struct} :
    Undefined name (definitions ++ later) ↔ Undefined name definitions ∧ Undefined name later :=
  List.forall_mem_append

/-! ### One addition -/

theorem undefined_struct? (kept : ¬ a.Hides name .unions) : Undefined name a.struct?.toList := by
  cases a with
  | struct t => exact List.forall_mem_singleton.mpr kept
  | _ => exact nofun

theorem not_hides_unions (kept : ¬ a.Hides name .exceptions) : ¬ a.Hides name .unions := by
  cases a with
  | struct t => exact kept
  | _ => exact not_false

theorem undefined_union? (kept : ¬ a.Hides name .exceptions) : Undefined name a.union?.toList := by
  cases a with
  | union t => exact List.forall_mem_singleton.mpr kept
  | _ => exact nofun

/-- A definition stays where it is found unless the addition hides it. -/
theorem Interface.Found.add (h : i.Found name s source) (kept : ¬ a.Hides name source) :
    (i.add a).Found name s source := by
  rw [add_eq]
  cases source with
  | structs => exact h.append _
  | unions => exact ⟨undefined_append.mpr ⟨h.1, undefined_struct? kept⟩, h.2.append _⟩
  | exceptions =>
      exact ⟨undefined_append.mpr ⟨h.1, undefined_struct? (not_hides_unions kept)⟩,
        undefined_append.mpr ⟨h.2.1, undefined_union? kept⟩, h.2.2.append _⟩

/-- An addition that hides a definition is what its name refers to from then on. -/
theorem Interface.Found.find_add_of_hides (h : i.Found name s source)
    (hidden : a.Hides name source) : (i.add a).find name = a.definition? := by
  -- Only a struct can hide a union, and only a struct or a union an exception.
  have struct : ∀ t, Undefined name i.structs → t.name = name →
      (i.add (.struct t)).find name = some t := by
    intro t undefined named
    have found : (i.add (.struct t)).Found name t .structs := isEarliest_concat undefined named
    exact found.find_eq
  cases source with
  | structs => cases a <;> cases hidden
  | unions =>
      cases a with
      | struct t => exact struct t h.1 hidden
      | _ => cases hidden
  | exceptions =>
      cases a with
      | struct t => exact struct t h.1 hidden
      | union t =>
          have found : (i.add (.union t)).Found name t .unions :=
            ⟨h.1, isEarliest_concat h.2.1 hidden⟩
          exact found.find_eq
      | _ => cases hidden

theorem find_add_of_other (other : ∀ t ∈ a.definition?, t.name ≠ name) :
    (i.add a).find name = i.find name := by
  rw [add_eq]
  cases a <;>
    simp_all [Interface.find, Addition.definition?, Addition.struct?, Addition.union?,
      Addition.exception?]

theorem namespaceFor_add_of_other {language : String}
    (other : ∀ n ∈ a.space?, n.language ≠ language) :
    (i.add a).namespaceFor language = i.namespaceFor language := by
  rw [add_eq]
  cases a <;> simp_all [Interface.namespaceFor, Addition.space?]

/-! ### Any number of additions -/

theorem namespaceFor_grow (i : Interface) (additions : List Addition) (language : String) :
    (i.grow additions).namespaceFor language =
      (i.namespaceFor language).or
        ((additions.filterMap Addition.space?).find? (·.language == language)) := by
  rw [grow_eq]
  exact List.find?_append

theorem find_grow (i : Interface) (additions : List Addition) (name : String) :
    (i.grow additions).find name =
      (((i.structs ++ additions.filterMap Addition.struct?).find? (·.name == name)).or
        ((i.unions ++ additions.filterMap Addition.union?).find? (·.name == name))).or
        ((i.exceptions ++ additions.filterMap Addition.exception?).find? (·.name == name)) := by
  rw [grow_eq, Interface.find, List.find?_append, List.find?_append]

theorem Interface.Found.grow (h : i.Found name s source) {additions : List Addition}
    (kept : ∀ a ∈ additions, ¬ a.Hides name source) : (i.grow additions).Found name s source := by
  induction additions generalizing i with
  | nil => exact h
  | cons a rest ih =>
      obtain ⟨first, later⟩ := List.forall_mem_cons.mp kept
      exact ih (h.add first) later

/-- Lookups while an interface grows. A language has its earliest namespace and a name its earliest
struct, or else its earliest union, or else its earliest exception, where what was there comes
before what is added. So a namespace that is found stays; a definition stays until it is hidden from
an earlier source, which for a struct never happens, and what hides it is found instead; and an
addition changes no lookup of another name or another language. -/
theorem lookups_of_grown (i : Interface) (additions : List Addition) :
    (∀ language, (i.grow additions).namespaceFor language =
      (i.namespaces ++ additions.filterMap Addition.space?).find? (·.language == language)) ∧
    (∀ name, (i.grow additions).find name =
      (((i.structs ++ additions.filterMap Addition.struct?).find? (·.name == name)).or
        ((i.unions ++ additions.filterMap Addition.union?).find? (·.name == name))).or
        ((i.exceptions ++ additions.filterMap Addition.exception?).find? (·.name == name))) ∧
    (∀ language n, i.namespaceFor language = some n →
      (i.grow additions).namespaceFor language = some n) ∧
    (∀ name s, i.find name = some s ↔ ∃ source, i.Found name s source) ∧
    (∀ name s, i.Found name s .structs → (i.grow additions).find name = some s) ∧
    (∀ name s source, i.Found name s source → (∀ a ∈ additions, ¬ a.Hides name source) →
      (i.grow additions).Found name s source) ∧
    (∀ name s source a, i.Found name s source → a.Hides name source →
      (i.add a).find name = a.definition?) ∧
    (∀ a name, (∀ t ∈ a.definition?, t.name ≠ name) → (i.add a).find name = i.find name) ∧
    (∀ a language, (∀ n ∈ a.space?, n.language ≠ language) →
      (i.add a).namespaceFor language = i.namespaceFor language) := by
  refine ⟨?_, find_grow i additions, ?_, ?_, ?_, fun _ _ _ found => found.grow,
    fun _ _ _ _ found => found.find_add_of_hides, fun _ _ => find_add_of_other,
    fun _ _ => namespaceFor_add_of_other⟩
  · intro language
    rw [grow_eq]
    rfl
  · intro language n found
    rw [namespaceFor_grow, found, Option.some_or]
  · intro name s
    rw [find_eq_some_iff, refers_iff_found]
  · intro name s found
    have kept : ∀ a ∈ additions, ¬ a.Hides name .structs := by
      intro a _ hides
      cases a <;> cases hides
    exact (found.grow kept).find_eq

/-- An exception, and additions that repeat its name where it is searched too late. -/
def errands : Interface where
  namespaces := [⟨"py", "errands_py"⟩, ⟨"go", "errands"⟩]
  exceptions := [{ name := "Lost" }]

def chores : List Addition :=
  [.exception { name := "Lost", comment := "again" }, .space ⟨"go", "chores"⟩,
    .union { name := "Either" }, .struct { name := "Errand" }, .service { name := "Lost" }]

theorem errands_keep_lookups :
    errands.Found "Lost" { name := "Lost" } .exceptions ∧
      (∀ a ∈ chores, ¬ a.Hides "Lost" .exceptions) ∧
      (errands.grow chores).Found "Lost" { name := "Lost" } .exceptions ∧
      errands.namespaceFor "go" = some ⟨"go", "errands"⟩ ∧
      (errands.grow chores).namespaceFor "go" = some ⟨"go", "errands"⟩ ∧
      Addition.Hides "Lost" .exceptions (.union { name := "Lost", comment := "nearer" }) ∧
      (errands.add (.union { name := "Lost", comment := "nearer" })).find "Lost" =
        some { name := "Lost", comment := "nearer" } ∧
      (errands.add (.struct { name := "Found" })).find "Lost" = errands.find "Lost" := by
  have found : errands.Found "Lost" { name := "Lost" } .exceptions :=
    ⟨nofun, nofun, rfl, [], [], rfl, nofun⟩
  have kept : ∀ a ∈ chores, ¬ a.Hides "Lost" .exceptions := by
    simp [chores, Addition.Hides]
  obtain ⟨-, -, languages, -, -, stays, hidden, others, -⟩ := lookups_of_grown errands chores
  have other : ∀ t ∈ (Addition.struct { name := "Found" }).definition?, t.name ≠ "Lost" := by
    rintro t ⟨⟩
    decide
  exact ⟨found, kept, stays _ _ _ found kept, rfl, languages _ _ rfl, rfl,
    hidden _ _ _ (.union { name := "Lost", comment := "nearer" }) found rfl, others _ _ other⟩

end ServiceDoc.Idl
