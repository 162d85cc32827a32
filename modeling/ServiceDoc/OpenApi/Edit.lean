import ServiceDoc.OpenApi.Document

/-! Edits of a document. An edit that offers operations to a path says which verbs it found taken
there. -/
namespace ServiceDoc.OpenApi
open Http (Verb Method)

inductive Edit where
  | insert (method : Method) (path : String) (operation : Operation)
  /-- Puts a copy of the item of one path together with the item of another, or of the same. -/
  | merge (path source : String)
  | tag (tag : Tag)
  | schema (name : String) (schema : Schema)
  | sort

namespace Document

/-- A merge needs both of its items. -/
def edit (d : Document) : Edit → Document
  | .insert method path o => { d with paths := d.paths.add path (.serving method o) }
  | .merge path source =>
    match d.paths.get? path, d.paths.get? source with
    | some item, some other => { d with paths := d.paths.insert path (item.merge other) }
    | _, _ => d
  | .tag t => { d with tags := d.tags ++ [t] }
  | .schema name s => { d with schemas := d.schemas.insert name s }
  | .sort => d.sort

/-- The verbs that an edit offers and that are taken; none for an edit that offers nothing. -/
def taken? (d : Document) : Edit → Option (List Verb)
  | .insert method path o => some (d.paths.taken path (.serving method o))
  | .merge path source =>
    match d.paths.get? path, d.paths.get? source with
    | some item, some other => some (item.taken other)
    | _, _ => none
  | _ => none

def run (d : Document) (edits : List Edit) : Document := edits.foldl edit d

end Document
end ServiceDoc.OpenApi
