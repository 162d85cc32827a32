import ServiceDoc.Settings
import ServiceDoc.Toml.Reader

/-! Layers of settings. A layer says some settings and leaves the others to what lies below it;
defaults are at the bottom. -/
namespace ServiceDoc

structure Layer where
  outputFilename : Option String := none
  namespaceLanguage : Option String := none
  openapiVersion : Option String := none
  apiVersion : Option String := none
  debugDump : Option String := none
deriving DecidableEq, Repr

namespace Layer

def apply (l : Layer) (below : Settings) : Settings where
  outputFilename := l.outputFilename.getD below.outputFilename
  namespaceLanguage := l.namespaceLanguage.getD below.namespaceLanguage
  openapiVersion := l.openapiVersion.getD below.openapiVersion
  apiVersion := l.apiVersion.getD below.apiVersion
  debugDump := l.debugDump.or below.debugDump

/-- A key that may be absent but has to be a text. -/
def textAt? (es : Toml.Entries) (key : String) : Option (Option String) :=
  match es.lookup key with
  | none => some none
  | some (.text s) => some (some s)
  | some _ => none

/-- Keys that name no setting are passed over. -/
def ofEntries? (es : Toml.Entries) : Option Layer := do
  let outputFilename ← textAt? es "output_filename"
  let namespaceLanguage ← textAt? es "namespace_language"
  let openapiVersion ← textAt? es "openapi_version"
  let apiVersion ← textAt? es "api_version"
  let debugDump ← textAt? es "debug_dump"
  return { outputFilename, namespaceLanguage, openapiVersion, apiVersion, debugDump }

/-- The settings of a TOML file. -/
def read (s : String) : Option Layer := do ofEntries? (← Toml.read s)

end Layer
end ServiceDoc
