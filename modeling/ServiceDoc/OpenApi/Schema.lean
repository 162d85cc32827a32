import ServiceDoc.Datum
import ServiceDoc.OpenApi.Table

/-! Schemas. An absent part of a schema is not written, so the empty schema is an empty map. -/
namespace ServiceDoc.OpenApi

structure Schema where
  title : Option String := none
  type : Option String := none
  description : Option String := none
  properties : List (String × Schema) := []
  default : Option Bool := none
deriving Inhabited

namespace Schema

def typed (title type : String) : Schema := { title := some title, type := some type }

def isEmpty (s : Schema) : Bool :=
  s.title.isNone && s.type.isNone && s.description.isNone && s.properties.isEmpty &&
    s.default.isNone

mutual

/-- Equality up to the order of properties. -/
def same : Schema → Schema → Bool
  | ⟨title, type, description, properties, default⟩, b =>
    title == b.title && type == b.type && description == b.description &&
      properties.length == b.properties.length && within properties b.properties &&
      default == b.default

/-- Every property has an equal one in the other table. -/
def within : List (String × Schema) → List (String × Schema) → Bool
  | [], _ => true
  | (name, s) :: rest, other =>
    (match other.lookup name with
      | some t => same s t
      | none => false) && within rest other

end

end Schema

/-- The members that are there. -/
def written (members : List (String × Option Datum)) : List (String × Datum) :=
  members.filterMap fun (name, d) => d.map (name, ·)

def writtenTable (f : α → Datum) (t : Table α) : Datum := .map (t.map fun (name, a) => (name, f a))

mutual

def Schema.toDatum : Schema → Datum
  | ⟨title, type, description, properties, default⟩ =>
    .map (written
      [("title", title.map .text), ("type", type.map .text),
        ("description", description.map .text),
        ("properties", if properties.isEmpty then none else some (.map (propertiesToData properties))),
        ("default", default.map .bool)])

def propertiesToData : List (String × Schema) → List (String × Datum)
  | [] => []
  | (name, s) :: rest => (name, s.toDatum) :: propertiesToData rest

end

end ServiceDoc.OpenApi
