import ServiceDoc.Text.Blank

/-! Interface definitions: services with functions, and the structs, unions and exceptions that
they use. A definition is found by name among the structs first, then the unions, then the
exceptions, and the earliest of a list counts. -/
namespace ServiceDoc.Idl

/-- `namespace <language> <name>` -/
structure Namespace where
  language : String := ""
  name : String := ""
deriving DecidableEq, Inhabited, Repr

inductive Kind where
  | void
  | bool
  | byte
  | i8
  | i16
  | i32
  | i64
  | double
  | string
  | binary
  | list
  | set
  | map
  /-- A name that only a definition can give a meaning. -/
  | named (name : String)
deriving DecidableEq, Repr

def Kind.of : String → Kind
  | "" => .void
  | "void" => .void
  | "bool" => .bool
  | "byte" => .byte
  | "i8" => .i8
  | "i16" => .i16
  | "i32" => .i32
  | "i64" => .i64
  | "double" => .double
  | "string" => .string
  | "binary" => .binary
  | "list" => .list
  | "set" => .set
  | "map" => .map
  | name => .named name

def Kind.name? : Kind → Option String
  | .named name => some name
  | _ => none

/-- A reference to a type; containers say what they hold. -/
structure TypeRef where
  name : String := ""
  key : Option TypeRef := none
  value : Option TypeRef := none
deriving Inhabited

def TypeRef.kind (t : TypeRef) : Kind := Kind.of t.name

mutual

structure Constant where
  literal : Option Literal := none

/-- A literal as written. At most one member is meant to be there. -/
structure Literal where
  int : Option Int64 := none
  double : Option Float := none
  text : Option String := none
  identifier : Option String := none
  list : Option (List Constant) := none
  map : Option (List Entry) := none

structure Entry where
  key : Option Constant := none
  value : Option Constant := none

end

def Constant.ofIdentifier (name : String) : Constant := ⟨some { identifier := some name }⟩

def Constant.ofInt (n : Int64) : Constant := ⟨some { int := some n }⟩

def Constant.identifier? (c : Constant) : Option String := c.literal.bind Literal.identifier

inductive Requiredness where
  | unstated
  | required
  | optional
deriving DecidableEq, Inhabited, Repr

def Requiredness.code : Requiredness → Int
  | .unstated => 0
  | .required => 1
  | .optional => 2

def Requiredness.ofCode? : Int → Option Requiredness
  | 0 => some .unstated
  | 1 => some .required
  | 2 => some .optional
  | _ => none

/-- A member of a struct, or an argument of a function. -/
structure Field where
  id : Int32 := 0
  name : String := ""
  requiredness : Requiredness := .unstated
  type : TypeRef := {}
  default : Option Constant := none
  comment : String := ""

def Field.isRequired (f : Field) : Bool := f.requiredness == .required

def Field.docs (f : Field) : Option String := Text.documentation f.comment

/-- A struct, a union or an exception. -/
structure Struct where
  name : String := ""
  fields : List Field := []
  comment : String := ""

def Struct.docs (s : Struct) : Option String := Text.documentation s.comment

structure Note where
  key : String := ""
  values : List String := []
deriving DecidableEq, Inhabited, Repr

structure Function where
  name : String := ""
  oneway : Bool := false
  void : Bool := false
  returns : TypeRef := {}
  arguments : List Field := []
  throws : List Field := []
  notes : List Note := []
  comment : String := ""

namespace Function

/-- A function that returns nothing says so twice. -/
def declare (name returns : String) : Function :=
  { name, returns := { name := returns }, void := Kind.of returns = .void }

def docs (f : Function) : Option String := Text.documentation f.comment

end Function

structure Service where
  name : String := ""
  /-- The service that this one extends, or nothing. -/
  base : String := ""
  functions : List Function := []
  comment : String := ""

def Service.docs (s : Service) : Option String := Text.documentation s.comment

/-- The content of one definition file. -/
structure Interface where
  filename : String := ""
  namespaces : List Namespace := []
  structs : List Struct := []
  unions : List Struct := []
  exceptions : List Struct := []
  services : List Service := []

namespace Interface

def namespaceFor (i : Interface) (language : String) : Option Namespace :=
  i.namespaces.find? fun n => n.language == language

def find (i : Interface) (name : String) : Option Struct :=
  (i.structs ++ i.unions ++ i.exceptions).find? fun s => s.name == name

def addNamespace (i : Interface) (n : Namespace) : Interface :=
  { i with namespaces := i.namespaces ++ [n] }

def addStruct (i : Interface) (s : Struct) : Interface := { i with structs := i.structs ++ [s] }

def addUnion (i : Interface) (s : Struct) : Interface := { i with unions := i.unions ++ [s] }

def addException (i : Interface) (s : Struct) : Interface :=
  { i with exceptions := i.exceptions ++ [s] }

def addService (i : Interface) (s : Service) : Interface := { i with services := i.services ++ [s] }

end Interface

/-- What a compiler asks a generator for. -/
structure Request where
  version : String := ""
  language : String := ""
  outputLocation : String := ""
  interface : Interface := {}

end ServiceDoc.Idl
