import ServiceDoc.Idl.Definition

/-! Names of types. A built-in name has its meaning from the language and never refers to a
definition. Every other name refers to the earliest definition that has it, where structs hide
unions and exceptions, and unions hide exceptions. -/
namespace ServiceDoc.Idl

/-- Nothing at all, the base types and the containers. -/
def builtinNames : List String :=
  ["", "void", "bool", "byte", "i8", "i16", "i32", "i64", "double", "string", "binary", "list",
    "set", "map"]

namespace Kind

theorem name?_of_mem {name : String} (h : name ∈ builtinNames) : (Kind.of name).name? = none := by
  have all : ∀ n ∈ builtinNames, (Kind.of n).name? = none := by decide
  exact all name h

theorem name?_of_not_mem {name : String} (h : name ∉ builtinNames) :
    (Kind.of name).name? = some name := by
  unfold Kind.of
  split <;> simp_all [builtinNames, name?]

theorem of_eq_bool_iff {name : String} : Kind.of name = .bool ↔ name = "bool" := by
  constructor
  · intro bool
    have builtin : name ∈ builtinNames := Decidable.byContradiction fun other => by
      have named := name?_of_not_mem other
      rw [bool] at named
      cases named
    have only : ∀ n ∈ builtinNames, Kind.of n = .bool → n = "bool" := by decide
    exact only name builtin bool
  · rintro rfl
    rfl

end Kind

/-- The first of some definitions to have a name. -/
def IsEarliest (name : String) (definitions : List Struct) (s : Struct) : Prop :=
  s.name = name ∧ ∃ before after, definitions = before ++ s :: after ∧ ∀ d ∈ before, d.name ≠ name

def Undefined (name : String) (definitions : List Struct) : Prop :=
  ∀ d ∈ definitions, d.name ≠ name

theorem find?_eq_some_iff_isEarliest {name : String} {definitions : List Struct} {s : Struct} :
    (definitions.find? fun d => d.name == name) = some s ↔ IsEarliest name definitions s := by
  simp only [List.find?_eq_some_iff_append, beq_iff_eq, Bool.not_eq_true', beq_eq_false_iff_ne,
    IsEarliest]

theorem find?_eq_none_iff_undefined {name : String} {definitions : List Struct} :
    (definitions.find? fun d => d.name == name) = none ↔ Undefined name definitions := by
  simp only [List.find?_eq_none, beq_iff_eq, Undefined, ne_eq]

/-- The definition that a name refers to. -/
def Refers (i : Interface) (name : String) (s : Struct) : Prop :=
  IsEarliest name i.structs s ∨
    Undefined name i.structs ∧
      (IsEarliest name i.unions s ∨
        Undefined name i.unions ∧ IsEarliest name i.exceptions s)

theorem find_eq_some_iff {i : Interface} {name : String} {s : Struct} :
    i.find name = some s ↔ Refers i name s := by
  simp only [Interface.find, List.append_assoc, List.find?_append, Option.or_eq_some_iff,
    find?_eq_some_iff_isEarliest, find?_eq_none_iff_undefined, Refers]

theorem find_eq_none_iff {i : Interface} {name : String} :
    i.find name = none ↔ ∀ s, ¬ Refers i name s := by
  simp only [← find_eq_some_iff, Option.eq_none_iff_forall_ne_some, ne_eq]

end ServiceDoc.Idl
