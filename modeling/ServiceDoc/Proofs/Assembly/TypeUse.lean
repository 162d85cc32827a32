import ServiceDoc.Proofs.Assembly.ObjectSchema
import ServiceDoc.Proofs.Assembly.Parameters

/-! Types in use. The type of an only argument and the type of a result are understood in one way:
either name is built in and says nothing, or both refer to the same definition, or both are
reported as unknown. -/
namespace ServiceDoc.Assembly
open Idl OpenApi

/-- What comes of a type as that of an only argument and as that of a result. -/
structure Uses where
  parameters : List Parameter
  argumentWarnings : List Warning
  response : Response
  returnWarnings : List Warning

def usesOf (i : Interface) (operation : String) (argument : Field) (returns : TypeRef) : Uses where
  parameters := parameters i [argument]
  argumentWarnings := argumentWarnings i operation [argument]
  response := successResponse i returns
  returnWarnings := returnWarnings i returns

def answer (schema : Schema) : Response where
  description := "OK"
  content := [("application/json", ⟨schema⟩)]

theorem eq_of_answer {a b : Schema} (h : answer a = answer b) : a = b := by
  cases h
  rfl

def Warning.isUnknownType : Warning → Bool
  | .unknownArgument _ _ => true
  | .unknownReturn _ => true
  | _ => false

namespace Uses

/-- No parameters, no schema and nothing to say. -/
def silent : Uses := ⟨[], [], answer {}, []⟩

/-- No parameters and no schema, and both uses say that the name is unknown. -/
def unknown (name operation : String) : Uses :=
  ⟨[], [.unknownArgument name operation], answer {}, [.unknownReturn name]⟩

/-- Both uses show the fields of one definition. -/
structure ShowBoth (s : Struct) (u : Uses) : Prop where
  parameters : u.parameters = queryParameters s.fields
  response : u.response = answer (structSchema s)
  known : ∀ w ∈ u.argumentWarnings ++ u.returnWarnings, w.isUnknownType = false
  /-- The properties are the parameters without their repetitions. -/
  names : (u.parameters.map Parameter.name).eraseDups = (properties s).names

theorem ShowBoth.ne_of_empty {s : Struct} {u v : Uses} (h : u.ShowBoth s)
    (empty : v.response = answer {}) : u ≠ v := by
  rintro rfl
  have schema : structSchema s = {} := eq_of_answer (h.response.symm.trans empty)
  cases congrArg Schema.title schema

theorem silent_ne_unknown (name operation : String) : silent ≠ unknown name operation := by
  intro same
  cases congrArg argumentWarnings same

end Uses

/-! ### What a name means -/

section Meaning

variable {i : Interface} {t : TypeRef} {name : String} (named : t.name = name)

include named

theorem meaning_of_builtin (h : name ∈ builtinNames) : meaning i t = .builtin := by
  rw [meaning, TypeRef.kind, named, Kind.name?_of_mem h]

theorem meaning_of_refers {s : Struct} (h : name ∉ builtinNames) (refers : Refers i name s) :
    meaning i t = .defined s := by
  simp only [meaning, TypeRef.kind, named, Kind.name?_of_not_mem h, find_eq_some_iff.mpr refers]

theorem meaning_of_undefined (h : name ∉ builtinNames) (undefined : ∀ s, ¬ Refers i name s) :
    meaning i t = .unknown name := by
  simp only [meaning, TypeRef.kind, named, Kind.name?_of_not_mem h, find_eq_none_iff.mpr undefined]

end Meaning

/-! ### Both uses -/

section Both

variable {i : Interface} {operation : String} {argument : Field} {returns : TypeRef}
  {name : String} (given : argument.type.name = name) (made : returns.name = name)

include given made

theorem uses_of_builtin (h : name ∈ builtinNames) :
    usesOf i operation argument returns = .silent := by
  have first : meaning i argument.type = .builtin := meaning_of_builtin given h
  have second : meaning i returns = .builtin := meaning_of_builtin made h
  simp only [usesOf, parameters, argumentWarnings, successResponse, returnSchema, returnWarnings,
    first, second]
  rfl

theorem uses_of_undefined (h : name ∉ builtinNames) (undefined : ∀ s, ¬ Refers i name s) :
    usesOf i operation argument returns = .unknown name operation := by
  have first : meaning i argument.type = .unknown name := meaning_of_undefined given h undefined
  have second : meaning i returns = .unknown name := meaning_of_undefined made h undefined
  simp only [usesOf, parameters, argumentWarnings, successResponse, returnSchema, returnWarnings,
    first, second]
  rfl

theorem uses_of_refers {s : Struct} (h : name ∉ builtinNames) (refers : Refers i name s) :
    (usesOf i operation argument returns).ShowBoth s := by
  have first : meaning i argument.type = .defined s := meaning_of_refers given h refers
  have second : meaning i returns = .defined s := meaning_of_refers made h refers
  have parameters :
      (usesOf i operation argument returns).parameters = queryParameters s.fields := by
    simp only [usesOf, Assembly.parameters, first]
  refine ⟨parameters, ?_, ?_, ?_⟩
  · simp only [usesOf, successResponse, returnSchema, second]
    rfl
  · simp only [usesOf, argumentWarnings, returnWarnings, first, second, List.append_nil,
      defaultWarnings_eq]
    intro w told
    obtain ⟨f, -, rfl⟩ := List.mem_map.mp told
    rfl
  · rw [parameters, names_properties, queryParameters, List.map_map]
    rfl

/-- An only argument and a result with one type name are understood alike, in exactly one of three
ways. A built-in name says nothing, whatever is defined; any other name that refers to a
definition shows it in both uses; and if there is no definition both uses say so. -/
theorem uses_of_type_name :
    (usesOf i operation argument returns = .silent ↔ name ∈ builtinNames) ∧
    (∀ s, name ∉ builtinNames → Refers i name s →
      (usesOf i operation argument returns).ShowBoth s) ∧
    ((∃ s, (usesOf i operation argument returns).ShowBoth s) ↔
      name ∉ builtinNames ∧ ∃ s, Refers i name s) ∧
    (usesOf i operation argument returns = .unknown name operation ↔
      name ∉ builtinNames ∧ ∀ s, ¬ Refers i name s) := by
  have apart := Uses.silent_ne_unknown name operation
  -- No two of the outcomes are the same, so each of them tells what kind of name it comes from.
  refine ⟨⟨?_, uses_of_builtin given made⟩, fun _ => uses_of_refers given made, ⟨?_, ?_⟩,
    ⟨?_, fun h => uses_of_undefined given made h.1 h.2⟩⟩
  · intro silent
    by_contra other
    by_cases undefined : ∀ s, ¬ Refers i name s
    · exact apart (silent.symm.trans (uses_of_undefined given made other undefined))
    · obtain ⟨s, refers⟩ := not_forall_not.mp undefined
      exact (uses_of_refers given made other refers).ne_of_empty rfl silent
  · rintro ⟨s, shown⟩
    have other : name ∉ builtinNames := fun builtin =>
      shown.ne_of_empty rfl (uses_of_builtin given made builtin)
    refine ⟨other, ?_⟩
    by_contra undefined
    exact shown.ne_of_empty rfl (uses_of_undefined given made other (not_exists.mp undefined))
  · rintro ⟨other, s, refers⟩
    exact ⟨s, uses_of_refers given made other refers⟩
  · intro unknown
    have other : name ∉ builtinNames := fun builtin =>
      apart ((uses_of_builtin given made builtin).symm.trans unknown)
    exact ⟨other, fun s refers => (uses_of_refers given made other refers).ne_of_empty rfl unknown⟩

end Both

/-- A struct with a repeated field that hides a union, and one that has a built-in name. -/
def pet : Struct where
  name := "Pet"
  fields :=
    [{ name := "id", type := { name := "i64" } }, { name := "tag", type := { name := "Tag" } },
      { name := "id", type := { name := "string" } }]

def kennel : Interface where
  structs := [{ name := "string" }, pet]
  unions := [{ name := "Pet" }]

def petArgument : Field where
  name := "request"
  type := { name := "Pet" }

def textArgument : Field where
  name := "request"
  type := { name := "string" }

theorem kennel_uses :
    petArgument.type.name = "Pet" ∧ ("Pet" ∉ builtinNames ∧ Refers kennel "Pet" pet) ∧
      (usesOf kennel "Kennel_find" petArgument { name := "Pet" }).ShowBoth pet ∧
      textArgument.type.name = "string" ∧
      usesOf kennel "Kennel_name" textArgument { name := "string" } = .silent := by
  have other : "Pet" ∉ builtinNames := by decide
  have refers : Refers kennel "Pet" pet :=
    .inl ⟨rfl, [{ name := "string" }], [], rfl, by decide⟩
  obtain ⟨-, shows, -, -⟩ :=
    @uses_of_type_name kennel "Kennel_find" petArgument { name := "Pet" } "Pet" rfl rfl
  obtain ⟨silent, -, -, -⟩ :=
    @uses_of_type_name kennel "Kennel_name" textArgument { name := "string" } "string" rfl rfl
  exact ⟨rfl, ⟨other, refers⟩, shows pet other refers, rfl, silent.mpr (by decide)⟩

end ServiceDoc.Assembly
