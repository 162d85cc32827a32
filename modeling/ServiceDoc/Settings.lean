/-! Settings of a generation. -/
namespace ServiceDoc

structure Settings where
  /-- Name of the generated file. -/
  outputFilename : String := "openapi.yaml"
  /-- The language whose namespace titles the document. -/
  namespaceLanguage : String := "go"
  openapiVersion : String := "3.0.3"
  apiVersion : String := "0.0.1"
  /-- Where a received request is kept, if anywhere. -/
  debugDump : Option String := none
deriving DecidableEq, Inhabited, Repr

end ServiceDoc
