import ServiceDoc.Http.Binding
import ServiceDoc.OpenApi.Document
import ServiceDoc.Settings
import ServiceDoc.Assembly.Meaning

/-! Assembly of a document. Functions are placed in the order in which they are declared; one that
finds a slot filled leaves it as it is. A service has a tag if it got at least one slot. -/
namespace ServiceDoc.Assembly
open Idl OpenApi Http

def operationId (s : Service) (f : Function) : String := s.name ++ "_" ++ f.name

def operationOf (i : Interface) (s : Service) (f : Function) : Operation where
  id := operationId s f
  tags := [s.name]
  summary := f.docs
  description := "API for " ++ s.name ++ " service's " ++ f.name ++ " function"
  parameters := parameters i f.arguments
  responses := [(successStatus, successResponse i f.returns)]

def operationWarnings (i : Interface) (s : Service) (f : Function) : List Warning :=
  argumentWarnings i (operationId s f) f.arguments ++ returnWarnings i f.returns

def conflictWarnings (taken : List Verb) (path operation : String) : List Warning :=
  match taken with
  | [] => []
  | verbs => [.alreadyBound verbs path operation]

/-- The paths after some functions of a service, what there was to say, and whether any of the
functions got a slot. -/
structure Placed where
  paths : Paths
  events : List Event := []
  served : Bool := false

def placeFunction (i : Interface) (s : Service) (paths : Paths) (f : Function) : Placed :=
  match bindingOf f with
  | none => { paths, events := [.notServed s.name f.name] }
  | some b =>
    let operation := operationOf i s f
    let item := PathItem.serving b.method operation
    let taken := paths.taken b.path item
    { paths := paths.add b.path item
      events := (operationWarnings i s f).map .warning ++
        .adding operation.id b.method b.path ::
          (conflictWarnings taken b.path operation.id).map .warning
      served := taken.length < b.method.verbs.length }

def placeFunctions (i : Interface) (s : Service) (paths : Paths) : List Function → Placed
  | [] => { paths }
  | f :: rest =>
    let first := placeFunction i s paths f
    let others := placeFunctions i s first.paths rest
    { paths := others.paths
      events := first.events ++ others.events
      served := first.served || others.served }

def tagOf (s : Service) : Tag := ⟨s.name, s.docs⟩

/-- The paths and tags after some services. -/
structure Assembled where
  paths : Paths
  tags : List Tag := []
  events : List Event := []

def placeServices (i : Interface) (paths : Paths) : List Service → Assembled
  | [] => { paths }
  | s :: rest =>
    let first := placeFunctions i s paths s.functions
    let others := placeServices i first.paths rest
    { paths := others.paths
      tags := if first.served then tagOf s :: others.tags else others.tags
      events := first.events ++ others.events }

def namespaceName (settings : Settings) (i : Interface) : Option String :=
  (i.namespaceFor settings.namespaceLanguage).map Namespace.name

def namespaceWarnings (settings : Settings) (i : Interface) : List Warning :=
  match namespaceName settings i with
  | some _ => []
  | none => [.noNamespace settings.namespaceLanguage]

def infoOf (settings : Settings) (i : Interface) : Info :=
  let name := (namespaceName settings i).getD ""
  { title := name ++ " API"
    description := "The API for " ++ name
    version := settings.apiVersion }

def assembled (i : Interface) : Assembled := placeServices i [] i.services

/-- The document of an interface, sorted. -/
def document (settings : Settings) (i : Interface) : Document :=
  let a := assembled i
  Document.sort
    { openapi := settings.openapiVersion, info := infoOf settings i, paths := a.paths, tags := a.tags }

def events (settings : Settings) (i : Interface) : List Event :=
  (namespaceWarnings settings i).map .warning ++ (assembled i).events

def warnings (settings : Settings) (i : Interface) : List Warning :=
  (events settings i).filterMap Event.warning?

end ServiceDoc.Assembly
