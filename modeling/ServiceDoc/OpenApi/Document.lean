import ServiceDoc.OpenApi.PathItem

/-! Documents. -/
namespace ServiceDoc.OpenApi

structure Info where
  title : String := ""
  /-- Not written when it is empty. -/
  description : String := ""
  version : String := ""
deriving DecidableEq, Inhabited, Repr

def Info.toDatum (i : Info) : Datum :=
  .map (written
    [("title", some (.text i.title)),
      ("description", if i.description.isEmpty then none else some (.text i.description)),
      ("version", some (.text i.version))])

structure Tag where
  name : String
  description : Option String := none
deriving DecidableEq, Inhabited, Repr

def Tag.toDatum (t : Tag) : Datum :=
  .map (written [("name", some (.text t.name)), ("description", t.description.map .text)])

structure Document where
  openapi : String := "3.0.3"
  info : Info := {}
  paths : Paths := []
  /-- Reusable schemas. -/
  schemas : Table Schema := []
  tags : List Tag := []
deriving Inhabited

namespace Document

/-- Paths, schemas and tags by name; tags of one name keep their order. -/
def sort (d : Document) : Document :=
  { d with
    paths := d.paths.sorted
    schemas := d.schemas.sorted
    tags := d.tags.mergeSort fun a b => decide (a.name ≤ b.name) }

def toDatum (d : Document) : Datum :=
  .map (written
    [("openapi", some (.text d.openapi)), ("info", some d.info.toDatum),
      ("paths", some (writtenTable PathItem.toDatum d.paths)),
      ("components", some (.map [("schemas", writtenTable Schema.toDatum d.schemas)])),
      ("tags", if d.tags.isEmpty then none else some (.list (d.tags.map Tag.toDatum)))])

end Document
end ServiceDoc.OpenApi
