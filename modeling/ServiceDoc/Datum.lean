/-! Plain data: what a document or a request looks like before it is given a text form. Members
of a map keep their order. -/
namespace ServiceDoc

inductive Datum where
  | null
  | bool (b : Bool)
  | int (n : Int)
  | float (x : Float)
  | text (s : String)
  | list (items : List Datum)
  | map (members : List (String × Datum))
deriving Inhabited

namespace Datum

/-- The first value of a name. -/
def valueOf (name : String) : List (String × Datum) → Datum
  | [] => .null
  | (key, value) :: rest => if key = name then value else valueOf name rest

/-- A member of a map; what is not there is null. -/
def get (d : Datum) (name : String) : Datum :=
  match d with
  | .map members => valueOf name members
  | _ => .null

def toText : Datum → String
  | .text s => s
  | _ => ""

def toBool : Datum → Bool
  | .bool b => b
  | _ => false

def toInt : Datum → Int
  | .int n => n
  | _ => 0

def toItems : Datum → List Datum
  | .list items => items
  | _ => []

def text? : Datum → Option String
  | .text s => some s
  | _ => none

def int? : Datum → Option Int
  | .int n => some n
  | _ => none

/-- A number is a float even when it is written without a fraction. -/
def float? : Datum → Option Float
  | .float x => some x
  | .int n => some (Float.ofInt n)
  | _ => none

def ofOption (f : α → Datum) : Option α → Datum
  | none => .null
  | some a => f a

mutual

/-- Equality with floats compared as numbers. -/
def same : Datum → Datum → Bool
  | .null, .null => true
  | .bool a, .bool b => a == b
  | .int a, .int b => a == b
  | .float a, .float b => a == b
  | .text a, .text b => a == b
  | .list as, .list bs => sameItems as bs
  | .map as, .map bs => sameMembers as bs
  | _, _ => false

def sameItems : List Datum → List Datum → Bool
  | [], [] => true
  | a :: as, b :: bs => same a b && sameItems as bs
  | _, _ => false

def sameMembers : List (String × Datum) → List (String × Datum) → Bool
  | [], [] => true
  | (j, a) :: as, (k, b) :: bs => j == k && same a b && sameMembers as bs
  | _, _ => false

end

end Datum
end ServiceDoc
