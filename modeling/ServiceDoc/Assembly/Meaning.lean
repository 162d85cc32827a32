import ServiceDoc.Idl.Definition
import ServiceDoc.OpenApi.Operation
import ServiceDoc.Assembly.Event

/-! What types mean. The type of an argument and the type of a result are looked up in one way: a
built-in name means nothing more, any other name means its definition or is unknown. A defined
argument becomes query parameters, one for each field; a defined result becomes an object schema,
one level deep. -/
namespace ServiceDoc.Assembly
open Idl OpenApi

inductive Meaning where
  | builtin
  | defined (s : Struct)
  | unknown (name : String)

def meaning (i : Interface) (t : TypeRef) : Meaning :=
  match t.kind.name? with
  | none => .builtin
  | some name =>
    match i.find name with
    | some s => .defined s
    | none => .unknown name

/-- Only truth values have defaults; a bare `true` is true and any other name is false. -/
def defaultValue (kind : Kind) (c : Constant) : Option Bool :=
  match kind with
  | .bool => c.identifier?.map (· == "true")
  | _ => none

def fieldDefault (f : Field) : Option Bool := f.default.bind (defaultValue f.type.kind)

def queryParameter (f : Field) : Parameter :=
  { Parameter.query f.name f.isRequired with
    description := f.docs
    schema := { default := fieldDefault f } }

def queryParameters (fields : List Field) : List Parameter := fields.map queryParameter

/-- The default of a field that did not become the default of its parameter. -/
def defaultWarning (f : Field) : Option Warning :=
  if f.default.isSome && (fieldDefault f).isNone then some (.droppedDefault f.name f.type.name)
  else none

def defaultWarnings (fields : List Field) : List Warning := fields.filterMap defaultWarning

/-- A field of a struct type is shown by the name of the struct. -/
def structSchema (s : Struct) : Schema where
  title := some s.name
  type := some "object"
  description := s.docs
  properties := Table.ofEntries (s.fields.map fun f => (f.name, Schema.typed f.name f.type.name))

def returnSchema (i : Interface) (t : TypeRef) : Schema :=
  match meaning i t with
  | .defined s => structSchema s
  | _ => {}

def returnWarnings (i : Interface) (t : TypeRef) : List Warning :=
  match meaning i t with
  | .unknown name => [.unknownReturn name]
  | _ => []

def successStatus : String := "200"

def jsonContent : String := "application/json"

def successResponse (i : Interface) (t : TypeRef) : Response where
  description := "OK"
  content := [(jsonContent, ⟨returnSchema i t⟩)]

/-- Only a single argument has parameters. -/
def parameters (i : Interface) : List Field → List Parameter
  | [argument] =>
    match meaning i argument.type with
    | .defined s => queryParameters s.fields
    | _ => []
  | _ => []

def argumentWarnings (i : Interface) (operation : String) : List Field → List Warning
  | [] => []
  | [argument] =>
    match meaning i argument.type with
    | .defined s => defaultWarnings s.fields
    | .unknown name => [.unknownArgument name operation]
    | .builtin => []
  | arguments => [.manyArguments operation arguments.length]

end ServiceDoc.Assembly
