import ServiceDoc.Assembly.Meaning
import ServiceDoc.Proofs.OpenApi.Entries

/-! Object schemas. A struct is shown one level deep. A field name that is repeated makes one
property, at the place of the first field that has it and with the type of the last one. -/
namespace ServiceDoc.Assembly
open Idl OpenApi

def fieldNames (s : Struct) : List String := s.fields.map Field.name

/-- The properties of the schema of a struct, by field name. -/
def properties (s : Struct) : Table Schema := (structSchema s).properties

/-- What each field adds to the properties. -/
def propertyEntries (s : Struct) : List (String × Schema) :=
  s.fields.map fun f => (f.name, Schema.typed f.name f.type.name)

theorem properties_eq (s : Struct) : properties s = Table.ofEntries (propertyEntries s) := rfl

theorem map_fst_propertyEntries (s : Struct) : (propertyEntries s).map Prod.fst = fieldNames s := by
  rw [propertyEntries, List.map_map]
  rfl

theorem names_properties (s : Struct) : (properties s).names = (fieldNames s).eraseDups := by
  rw [properties_eq, Table.names_ofEntries, map_fst_propertyEntries]

theorem nodup_names_properties (s : Struct) : (properties s).names.Nodup :=
  Table.nodup_names_ofEntries _

/-- The last field of a name decides. -/
theorem get?_properties (s : Struct) (name : String) :
    (properties s).get? name =
      (s.fields.filter (·.name = name)).getLast?.map
        fun f => { title := some name, type := some f.type.name } := by
  rw [properties_eq, Table.get?_ofEntries, propertyEntries, List.filter_map, List.getLast?_map,
    Option.map_map]
  refine Option.map_congr fun f last => ?_
  have named : f.name = name :=
    of_decide_eq_true (List.mem_filter.mp (List.mem_of_getLast? last)).2
  rw [Function.comp_apply, Schema.typed, named]

theorem length_properties (s : Struct) :
    (properties s).length = (fieldNames s).toFinset.card := by
  rw [properties_eq, Table.length_ofEntries, map_fst_propertyEntries]

theorem length_properties_eq_iff (s : Struct) :
    (properties s).length = s.fields.length ↔ (fieldNames s).Nodup := by
  have fields : s.fields.length = (fieldNames s).length := (List.length_map _).symm
  rw [length_properties, fields]
  exact Multiset.toFinset_card_eq_card_iff_nodup

theorem properties_of_mem {s : Struct} {entry : String × Schema} (h : entry ∈ properties s) :
    entry.2.properties = [] := by
  have found := Table.get?_of_mem (nodup_names_properties s) h
  rw [get?_properties] at found
  obtain ⟨f, -, leaf⟩ := Option.map_eq_some_iff.mp found
  rw [← leaf]

/-- The schema of a struct is flat. Its properties have the names of the fields, each of them once
and in the order in which they first came; a property is named after its field and has the type name
of the last field of that name, and nothing else. -/
theorem structSchema_flat (s : Struct) :
    (structSchema s).title = some s.name ∧
    (structSchema s).type = some "object" ∧
    (structSchema s).description = s.docs ∧
    (structSchema s).default = none ∧
    (∀ name, name ∈ (properties s).names ↔ name ∈ fieldNames s) ∧
    (properties s).names.Nodup ∧
    (properties s).names.Pairwise
      (fun a b => (fieldNames s).idxOf a < (fieldNames s).idxOf b) ∧
    (∀ name, (properties s).get? name =
      (s.fields.filter (·.name = name)).getLast?.map
        fun f => { title := some name, type := some f.type.name }) ∧
    (properties s).length = (fieldNames s).toFinset.card ∧
    ((properties s).length = s.fields.length ↔ (fieldNames s).Nodup) ∧
    ∀ entry ∈ properties s, entry.2.properties = [] := by
  refine ⟨rfl, rfl, rfl, rfl, ?_, nodup_names_properties s, ?_, get?_properties s,
    length_properties s, length_properties_eq_iff s, fun _ => properties_of_mem⟩
  · intro name
    rw [names_properties, List.mem_eraseDups]
  · rw [names_properties]
    exact pairwise_eraseDups (fieldNames s)

example :
    (properties { fields := [{ name := "a", type := { name := "i32" } },
      { name := "b", type := { name := "Pet" } },
      { name := "a", type := { name := "list" } }] }).map (fun entry => (entry.1, entry.2.type)) =
      [("a", some "list"), ("b", some "Pet")] := by decide

end ServiceDoc.Assembly
