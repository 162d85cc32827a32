import ServiceDoc.Idl.Definition
import ServiceDoc.Json.Writer

/-! The wire form of interface definitions: which members each record has, in which order, and
what stands in for an absent one. A null list or type counts as an absent one. `toDatum` writes
every member; `ofDatum` reads any data, taking fallbacks where it does not fit. -/
namespace ServiceDoc.Idl

namespace Wire
open Json (Shape Member Catalogue)

inductive Part where
  | request
  | interface
  | namespaceDecl
  | struct
  | field
  | type
  | note
  | service
  | function
  | constant
  | literal
  | entry
deriving DecidableEq, Repr

def title : Part → String
  | .request => "PluginRequest"
  | .interface => "Thrift"
  | .namespaceDecl => "Namespace"
  | .struct => "StructLike"
  | .field => "Field"
  | .type => "Type"
  | .note => "Annotation"
  | .service => "Service"
  | .function => "Function"
  | .constant => "ConstValue"
  | .literal => "ConstTypedValue"
  | .entry => "MapConstValue"

def text (name : String) : Member Part := ⟨name, .text, .text "", false⟩

def flag (name : String) : Member Part := ⟨name, .bool, .bool false, false⟩

def listOf (name : String) (item : Shape Part) : Member Part := ⟨name, .list item, .list [], true⟩

def partIfAny (name : String) (part : Part) : Member Part := ⟨name, .record part, .null, true⟩

def ifAny (name : String) (shape : Shape Part) : Member Part := ⟨name, shape, .null, true⟩

def noType : Datum := .map [("Name", .text ""), ("KeyType", .null), ("ValueType", .null)]

def noInterface : Datum :=
  .map [("Filename", .text ""), ("Namespaces", .list []), ("Structs", .list []),
    ("Unions", .list []), ("Exceptions", .list []), ("Services", .list [])]

def requiredness : Shape Part := .code "field requiredness" 3

def members : Part → List (Member Part)
  | .request =>
    [text "Version", text "Language", text "OutputPath",
      ⟨"AST", .record .interface, noInterface, false⟩]
  | .interface =>
    [text "Filename", listOf "Namespaces" (.record .namespaceDecl),
      listOf "Structs" (.record .struct), listOf "Unions" (.record .struct),
      listOf "Exceptions" (.record .struct), listOf "Services" (.record .service)]
  | .namespaceDecl => [text "Language", text "Name"]
  | .struct => [text "Name", listOf "Fields" (.record .field), text "ReservedComments"]
  | .field =>
    [⟨"ID", .int32, .int 0, false⟩, text "Name", ⟨"Requiredness", requiredness, .int 0, false⟩,
      ⟨"Type", .record .type, noType, true⟩, partIfAny "Default" .constant,
      text "ReservedComments"]
  | .type => [text "Name", partIfAny "KeyType" .type, partIfAny "ValueType" .type]
  | .note => [text "Key", listOf "Values" .text]
  | .service =>
    [text "Name", text "Extends", listOf "Functions" (.record .function), text "ReservedComments"]
  | .function =>
    [text "Name", flag "Oneway", flag "Void", ⟨"FunctionType", .record .type, noType, true⟩,
      listOf "Arguments" (.record .field), listOf "Throws" (.record .field),
      listOf "Annotations" (.record .note), text "ReservedComments"]
  | .constant => [partIfAny "TypedValue" .literal]
  | .literal =>
    [ifAny "Int" .int64, ifAny "Double" .float, ifAny "Literal" .text, ifAny "Identifier" .text,
      ifAny "List" (.list (.record .constant)), ifAny "Map" (.list (.record .entry))]
  | .entry => [partIfAny "Key" .constant, partIfAny "Value" .constant]

def catalogue : Catalogue Part := ⟨title, members⟩

end Wire

def Namespace.toDatum (n : Namespace) : Datum :=
  .map [("Language", .text n.language), ("Name", .text n.name)]

def Namespace.ofDatum (d : Datum) : Namespace :=
  ⟨(d.get "Language").toText, (d.get "Name").toText⟩

mutual

def TypeRef.toDatum : TypeRef → Datum
  | ⟨name, key, value⟩ =>
    .map [("Name", .text name), ("KeyType", TypeRef.optionToDatum key),
      ("ValueType", TypeRef.optionToDatum value)]

def TypeRef.optionToDatum : Option TypeRef → Datum
  | none => .null
  | some t => t.toDatum

end

mutual

def TypeRef.ofDatum : Datum → TypeRef
  | .map members => TypeRef.ofMembers members
  | _ => {}

/-- The first member of a name counts. -/
def TypeRef.ofMembers : List (String × Datum) → TypeRef
  | [] => {}
  | (name, d) :: rest =>
    let t := TypeRef.ofMembers rest
    if name = "Name" then { t with name := d.toText }
    else if name = "KeyType" then { t with key := TypeRef.ofDatum? d }
    else if name = "ValueType" then { t with value := TypeRef.ofDatum? d }
    else t

def TypeRef.ofDatum? : Datum → Option TypeRef
  | .map members => some (TypeRef.ofMembers members)
  | _ => none

end

mutual

def Constant.toDatum : Constant → Datum
  | ⟨literal⟩ => .map [("TypedValue", Literal.optionToDatum literal)]

def Literal.optionToDatum : Option Literal → Datum
  | none => .null
  | some literal => literal.toDatum

def Literal.toDatum : Literal → Datum
  | ⟨int, double, text, identifier, list, map⟩ =>
    .map [("Int", .ofOption (.int ·.toInt) int), ("Double", .ofOption .float double),
      ("Literal", .ofOption .text text), ("Identifier", .ofOption .text identifier),
      ("List", Constant.listToDatum list), ("Map", Entry.listToDatum map)]

def Constant.listToDatum : Option (List Constant) → Datum
  | none => .null
  | some items => .list (Constant.itemsToData items)

def Constant.itemsToData : List Constant → List Datum
  | [] => []
  | c :: rest => c.toDatum :: Constant.itemsToData rest

def Entry.listToDatum : Option (List Entry) → Datum
  | none => .null
  | some items => .list (Entry.itemsToData items)

def Entry.itemsToData : List Entry → List Datum
  | [] => []
  | e :: rest => e.toDatum :: Entry.itemsToData rest

def Entry.toDatum : Entry → Datum
  | ⟨key, value⟩ =>
    .map [("Key", Constant.optionToDatum key), ("Value", Constant.optionToDatum value)]

def Constant.optionToDatum : Option Constant → Datum
  | none => .null
  | some c => c.toDatum

end

mutual

def Constant.ofDatum : Datum → Constant
  | .map members => Constant.ofMembers members
  | _ => {}

def Constant.ofMembers : List (String × Datum) → Constant
  | [] => {}
  | (name, d) :: rest =>
    if name = "TypedValue" then ⟨Literal.ofDatum? d⟩ else Constant.ofMembers rest

def Constant.ofDatum? : Datum → Option Constant
  | .map members => some (Constant.ofMembers members)
  | _ => none

def Constant.ofItems : List Datum → List Constant
  | [] => []
  | d :: rest => Constant.ofDatum d :: Constant.ofItems rest

def Constant.listOfDatum? : Datum → Option (List Constant)
  | .list items => some (Constant.ofItems items)
  | _ => none

def Literal.ofDatum? : Datum → Option Literal
  | .map members => some (Literal.ofMembers members)
  | _ => none

def Literal.ofMembers : List (String × Datum) → Literal
  | [] => {}
  | (name, d) :: rest =>
    let t := Literal.ofMembers rest
    if name = "Int" then { t with int := d.int?.map Int64.ofInt }
    else if name = "Double" then { t with double := d.float? }
    else if name = "Literal" then { t with text := d.text? }
    else if name = "Identifier" then { t with identifier := d.text? }
    else if name = "List" then { t with list := Constant.listOfDatum? d }
    else if name = "Map" then { t with map := Entry.listOfDatum? d }
    else t

def Entry.ofDatum : Datum → Entry
  | .map members => Entry.ofMembers members
  | _ => {}

def Entry.ofMembers : List (String × Datum) → Entry
  | [] => {}
  | (name, d) :: rest =>
    let t := Entry.ofMembers rest
    if name = "Key" then { t with key := Constant.ofDatum? d }
    else if name = "Value" then { t with value := Constant.ofDatum? d }
    else t

def Entry.ofItems : List Datum → List Entry
  | [] => []
  | d :: rest => Entry.ofDatum d :: Entry.ofItems rest

def Entry.listOfDatum? : Datum → Option (List Entry)
  | .list items => some (Entry.ofItems items)
  | _ => none

end

def Requiredness.ofDatum (d : Datum) : Requiredness := (Requiredness.ofCode? d.toInt).getD .unstated

def Requiredness.toDatum (r : Requiredness) : Datum := .int r.code

def Field.toDatum (f : Field) : Datum :=
  .map [("ID", .int f.id.toInt), ("Name", .text f.name), ("Requiredness", f.requiredness.toDatum),
    ("Type", f.type.toDatum), ("Default", .ofOption Constant.toDatum f.default),
    ("ReservedComments", .text f.comment)]

def Field.ofDatum (d : Datum) : Field where
  id := .ofInt (d.get "ID").toInt
  name := (d.get "Name").toText
  requiredness := .ofDatum (d.get "Requiredness")
  type := .ofDatum (d.get "Type")
  default := Constant.ofDatum? (d.get "Default")
  comment := (d.get "ReservedComments").toText

def Struct.toDatum (s : Struct) : Datum :=
  .map [("Name", .text s.name), ("Fields", .list (s.fields.map Field.toDatum)),
    ("ReservedComments", .text s.comment)]

def Struct.ofDatum (d : Datum) : Struct where
  name := (d.get "Name").toText
  fields := (d.get "Fields").toItems.map Field.ofDatum
  comment := (d.get "ReservedComments").toText

def Note.toDatum (a : Note) : Datum :=
  .map [("Key", .text a.key), ("Values", .list (a.values.map .text))]

def Note.ofDatum (d : Datum) : Note where
  key := (d.get "Key").toText
  values := (d.get "Values").toItems.map Datum.toText

def Function.toDatum (f : Function) : Datum :=
  .map [("Name", .text f.name), ("Oneway", .bool f.oneway), ("Void", .bool f.void),
    ("FunctionType", f.returns.toDatum), ("Arguments", .list (f.arguments.map Field.toDatum)),
    ("Throws", .list (f.throws.map Field.toDatum)),
    ("Annotations", .list (f.notes.map Note.toDatum)),
    ("ReservedComments", .text f.comment)]

def Function.ofDatum (d : Datum) : Function where
  name := (d.get "Name").toText
  oneway := (d.get "Oneway").toBool
  void := (d.get "Void").toBool
  returns := .ofDatum (d.get "FunctionType")
  arguments := (d.get "Arguments").toItems.map Field.ofDatum
  throws := (d.get "Throws").toItems.map Field.ofDatum
  notes := (d.get "Annotations").toItems.map Note.ofDatum
  comment := (d.get "ReservedComments").toText

def Service.toDatum (s : Service) : Datum :=
  .map [("Name", .text s.name), ("Extends", .text s.base),
    ("Functions", .list (s.functions.map Function.toDatum)),
    ("ReservedComments", .text s.comment)]

def Service.ofDatum (d : Datum) : Service where
  name := (d.get "Name").toText
  base := (d.get "Extends").toText
  functions := (d.get "Functions").toItems.map Function.ofDatum
  comment := (d.get "ReservedComments").toText

def Interface.toDatum (i : Interface) : Datum :=
  .map [("Filename", .text i.filename), ("Namespaces", .list (i.namespaces.map Namespace.toDatum)),
    ("Structs", .list (i.structs.map Struct.toDatum)),
    ("Unions", .list (i.unions.map Struct.toDatum)),
    ("Exceptions", .list (i.exceptions.map Struct.toDatum)),
    ("Services", .list (i.services.map Service.toDatum))]

def Interface.ofDatum (d : Datum) : Interface where
  filename := (d.get "Filename").toText
  namespaces := (d.get "Namespaces").toItems.map Namespace.ofDatum
  structs := (d.get "Structs").toItems.map Struct.ofDatum
  unions := (d.get "Unions").toItems.map Struct.ofDatum
  exceptions := (d.get "Exceptions").toItems.map Struct.ofDatum
  services := (d.get "Services").toItems.map Service.ofDatum

def Request.toDatum (r : Request) : Datum :=
  .map [("Version", .text r.version), ("Language", .text r.language),
    ("OutputPath", .text r.outputLocation), ("AST", r.interface.toDatum)]

def Request.ofDatum (d : Datum) : Request where
  version := (d.get "Version").toText
  language := (d.get "Language").toText
  outputLocation := (d.get "OutputPath").toText
  interface := .ofDatum (d.get "AST")

def Interface.read (s : String) : Except Json.Fault Interface :=
  (Wire.catalogue.read (.record .interface) s).map Interface.ofDatum

def Request.read (s : String) : Except Json.Fault Request :=
  (Wire.catalogue.read (.record .request) s).map Request.ofDatum

/-- The form in which a request is kept. -/
def Request.write (r : Request) : String := Json.writeIndented r.toDatum

/-- Equality with floats compared as numbers. -/
def Request.same (a b : Request) : Bool := a.toDatum.same b.toDatum

def Interface.same (a b : Interface) : Bool := a.toDatum.same b.toDatum

end ServiceDoc.Idl
