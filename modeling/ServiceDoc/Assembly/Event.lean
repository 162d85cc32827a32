import ServiceDoc.Http.Verb
import ServiceDoc.Log.Line

/-! What an assembly has to say: warnings for everything that does not reach the document, and a
note for every function, served or not. -/
namespace ServiceDoc.Assembly
open Http (Verb Method)

inductive Warning where
  | noNamespace (language : String)
  | manyArguments (operation : String) (count : Nat)
  | unknownArgument (type operation : String)
  | droppedDefault (field type : String)
  | unknownReturn (type : String)
  | alreadyBound (verbs : List Verb) (path operation : String)
deriving DecidableEq, Repr

def Warning.message : Warning → String
  | .noNamespace language => "No " ++ language ++ " namespace found"
  | .manyArguments operation count =>
    "`" ++ operation ++ "` takes " ++ toString count ++
      " arguments, only single-argument functions get query parameters"
  | .unknownArgument type operation =>
    "Argument type `" ++ type ++ "` of `" ++ operation ++
      "` is not a known struct, no query parameters generated"
  | .droppedDefault field type =>
    "Default value of field `" ++ field ++ "` (" ++ type ++ ") is not supported and was dropped"
  | .unknownReturn type =>
    "Return type `" ++ type ++ "` is not a known struct, response schema left empty"
  | .alreadyBound verbs path operation =>
    ",".intercalate (verbs.map Verb.name) ++ " " ++ path ++ " is already bound, `" ++ operation ++
      "` was dropped for those methods"

inductive Event where
  | warning (w : Warning)
  | notServed (service function : String)
  | adding (operation : String) (method : Method) (path : String)
deriving DecidableEq, Repr

namespace Event

def warning? : Event → Option Warning
  | .warning w => some w
  | _ => none

/-- In the log, warnings have one source and what became of functions another. -/
def line : Event → Log.Line
  | .warning w => ⟨.warn, "thrift_openapi::error", w.message, []⟩
  | .notServed service function =>
    ⟨.debug, "thrift_openapi::builder", "no HTTP binding, skipping",
      [("service", service), ("function", function)]⟩
  | .adding operation method path =>
    ⟨.debug, "thrift_openapi::builder", "adding operation",
      [("operation_id", operation), ("method", "\"" ++ method.name ++ "\""), ("path", path)]⟩

end Event
end ServiceDoc.Assembly
