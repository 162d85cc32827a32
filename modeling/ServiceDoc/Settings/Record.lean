import ServiceDoc.Json.Decode
import ServiceDoc.Settings

/-! Settings as JSON: an object, or a list of the settings in their order. What is left out keeps
its default. -/
namespace ServiceDoc.Settings

def catalogue : Json.Catalogue Unit where
  title _ := "Config"
  members _ :=
    let base : Settings := {}
    [⟨"output_filename", .text, .text base.outputFilename, false⟩,
      ⟨"namespace_language", .text, .text base.namespaceLanguage, false⟩,
      ⟨"openapi_version", .text, .text base.openapiVersion, false⟩,
      ⟨"api_version", .text, .text base.apiVersion, false⟩,
      ⟨"debug_dump", .location, .ofOption .text base.debugDump, true⟩]

def ofDatum (d : Datum) : Settings where
  outputFilename := (d.get "output_filename").toText
  namespaceLanguage := (d.get "namespace_language").toText
  openapiVersion := (d.get "openapi_version").toText
  apiVersion := (d.get "api_version").toText
  debugDump := (d.get "debug_dump").text?

def toDatum (s : Settings) : Datum :=
  .map [("output_filename", .text s.outputFilename),
    ("namespace_language", .text s.namespaceLanguage),
    ("openapi_version", .text s.openapiVersion), ("api_version", .text s.apiVersion),
    ("debug_dump", .ofOption .text s.debugDump)]

def read (s : String) : Except Json.Fault Settings :=
  (catalogue.read (.record ()) s).map ofDatum

end ServiceDoc.Settings
