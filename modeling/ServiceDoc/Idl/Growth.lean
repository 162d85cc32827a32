import ServiceDoc.Idl.Definition

/-! Interfaces grow by additions. What is added comes after everything of its kind. -/
namespace ServiceDoc.Idl

inductive Addition where
  | space (n : Namespace)
  | struct (s : Struct)
  | union (s : Struct)
  | exception (s : Struct)
  | service (s : Service)

namespace Interface

def add (i : Interface) : Addition → Interface
  | .space n => i.addNamespace n
  | .struct s => i.addStruct s
  | .union s => i.addUnion s
  | .exception s => i.addException s
  | .service s => i.addService s

def grow (i : Interface) (additions : List Addition) : Interface := additions.foldl add i

end Interface
end ServiceDoc.Idl
