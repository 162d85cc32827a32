import ServiceDoc.OpenApi.Schema

/-! Operations with their parameters and responses. -/
namespace ServiceDoc.OpenApi

/-- Equality of tables up to the order of entries. -/
def sameTable (same : α → α → Bool) (a b : Table α) : Bool :=
  a.length == b.length && a.all fun (name, x) =>
    match b.lookup name with
    | some y => same x y
    | none => false

def sameList (same : α → α → Bool) : List α → List α → Bool
  | [], [] => true
  | a :: as, b :: bs => same a b && sameList same as bs
  | _, _ => false

structure Parameter where
  name : String
  location : String
  description : Option String := none
  required : Bool
  schema : Schema := {}
deriving Inhabited

namespace Parameter

def query (name : String) (required : Bool) : Parameter := { name, location := "query", required }

def toDatum (p : Parameter) : Datum :=
  .map (written
    [("name", some (.text p.name)), ("in", some (.text p.location)),
      ("description", p.description.map .text), ("required", some (.bool p.required)),
      ("schema", some p.schema.toDatum)])

def same (a b : Parameter) : Bool :=
  a.name == b.name && a.location == b.location && a.description == b.description &&
    a.required == b.required && a.schema.same b.schema

end Parameter

/-- The body of a response for one content type. -/
structure MediaType where
  schema : Schema := {}
deriving Inhabited

def MediaType.toDatum (m : MediaType) : Datum := .map [("schema", m.schema.toDatum)]

structure Response where
  description : String
  /-- By content type. -/
  content : Table MediaType := []
deriving Inhabited

namespace Response

def toDatum (r : Response) : Datum :=
  .map [("description", .text r.description), ("content", writtenTable MediaType.toDatum r.content)]

def same (a b : Response) : Bool :=
  a.description == b.description &&
    sameTable (fun x y => x.schema.same y.schema) a.content b.content

end Response

structure Operation where
  tags : List String := []
  summary : Option String := none
  description : String := ""
  id : String
  parameters : List Parameter := []
  /-- By status code. -/
  responses : Table Response := []
deriving Inhabited

namespace Operation

def addTag (o : Operation) (tag : String) : Operation := { o with tags := o.tags ++ [tag] }

def setResponse (o : Operation) (status : String) (r : Response) : Operation :=
  { o with responses := o.responses.insert status r }

def toDatum (o : Operation) : Datum :=
  .map (written
    [("tags", some (.list (o.tags.map .text))), ("summary", o.summary.map .text),
      ("description", some (.text o.description)), ("operationId", some (.text o.id)),
      ("parameters",
        if o.parameters.isEmpty then none else some (.list (o.parameters.map Parameter.toDatum))),
      ("responses", some (writtenTable Response.toDatum o.responses))])

def same (a b : Operation) : Bool :=
  a.tags == b.tags && a.summary == b.summary && a.description == b.description && a.id == b.id &&
    sameList Parameter.same a.parameters b.parameters &&
    sameTable Response.same a.responses b.responses

end Operation
end ServiceDoc.OpenApi
