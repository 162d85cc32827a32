import ServiceDoc.Text.Line
import ServiceDoc.Assembly.Placement
import ServiceDoc.Idl.Wire
import ServiceDoc.Yaml.Writer

/-! Generation: a request in, a file and warnings out. The file starts with a comment; a blank line
divides it from the document. -/
namespace ServiceDoc

def toolName : String := "thrift-gen-openapi"

def signature : String := "Generated with " ++ toolName ++ "\nhttps://github.com/nicognaw"

/-- Comment lines and the blank line after them; no lines, no blank line. -/
def commentHeader (comment : String) : String :=
  match Text.lines comment with
  | [] => ""
  | lines => String.join (lines.map fun line => "# " ++ line ++ "\n") ++ "\n"

def render (d : OpenApi.Document) (comment : String) : String :=
  commentHeader comment ++ Yaml.write d.toDatum

structure GeneratedFile where
  name : String
  content : String
deriving DecidableEq, Repr

/-- What is handed back to the compiler. With an error there are no files. -/
structure Delivery where
  error : Option String := none
  files : List GeneratedFile := []
  warnings : List String := []
deriving DecidableEq, Repr

def generate (settings : Settings) (request : Idl.Request) : Delivery where
  files :=
    [⟨settings.outputFilename,
      render (Assembly.document settings request.interface) signature⟩]
  warnings := (Assembly.warnings settings request.interface).map Assembly.Warning.message

/-- The log lines of a generation. -/
def generationLog (settings : Settings) (request : Idl.Request) : List Log.Line :=
  (Assembly.events settings request.interface).map Assembly.Event.line

end ServiceDoc
