import ServiceDoc.Datum

/-! The shapes a reader can ask for. Records are described by a catalogue: a title for complaints
and the members in their written order, each with what stands in for it when it is absent. -/
namespace ServiceDoc.Json

inductive Shape (ρ : Type) where
  | text
  | location
  | bool
  | int32
  | int64
  | float
  /-- An integer below a bound, called by what it encodes. -/
  | code (what : String) (bound : Nat)
  | list (item : Shape ρ)
  | record (name : ρ)

structure Member (ρ : Type) where
  name : String
  shape : Shape ρ
  fallback : Datum
  /-- Whether null stands for the fallback too. -/
  nullable : Bool

structure Catalogue (ρ : Type) where
  title : ρ → String
  members : ρ → List (Member ρ)

def Catalogue.member? (c : Catalogue ρ) (r : ρ) (name : String) : Option (Member ρ) :=
  (c.members r).find? fun m => m.name == name

/-- What a complaint says was wanted. -/
def Catalogue.wanted (c : Catalogue ρ) : Shape ρ → String
  | .text => "a string"
  | .location => "path string"
  | .bool => "a boolean"
  | .int32 => "i32"
  | .int64 => "i64"
  | .float => "f64"
  | .code .. => "i32"
  | .list _ => "a sequence"
  | .record r => "struct " ++ c.title r

end ServiceDoc.Json
