import ServiceDoc.Http.Verb
import ServiceDoc.Idl.Definition

/-! The route of a function. A function is served over HTTP when one of its notes has a route key;
of several, the one whose method name comes first counts, with its first value as the path. -/
namespace ServiceDoc.Http

/-- The route keys, in increasing order of method name. -/
def routeKeys : List (String × Method) :=
  [("api.any", .any), ("api.delete", .one .delete), ("api.get", .one .get),
    ("api.head", .one .head), ("api.options", .one .options), ("api.patch", .one .patch),
    ("api.post", .one .post), ("api.put", .one .put)]

/-- Letters `A` to `Z` do not differ from their small forms. -/
def sameKey (a b : String) : Bool := a.toList.map Char.toLower == b.toList.map Char.toLower

/-- For each route key its first note. -/
def routes (notes : List Idl.Note) : List (Method × List String) :=
  routeKeys.filterMap fun (key, method) =>
    (notes.find? fun note => sameKey note.key key).map fun note => (method, note.values)

structure Binding where
  method : Method
  path : String
deriving DecidableEq, Repr

def Binding.ofRoutes : List (Method × List String) → Option Binding
  | (method, path :: _) :: _ => some ⟨method, path⟩
  | _ => none

def bindingOf (f : Idl.Function) : Option Binding := Binding.ofRoutes (routes f.notes)

end ServiceDoc.Http
