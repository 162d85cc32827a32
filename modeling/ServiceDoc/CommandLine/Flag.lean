import ServiceDoc.Generation

/-! The flags of the command line and its help. -/
namespace ServiceDoc.CommandLine

/-- Flags that take a value. -/
inductive Flag where
  | input
  | outputDir
  | config
  | outputFilename
  | namespaceLanguage
  | debugDump
deriving DecidableEq, Repr

namespace Flag

def all : List Flag :=
  [.input, .outputDir, .config, .outputFilename, .namespaceLanguage, .debugDump]

def long : Flag → String
  | .input => "input"
  | .outputDir => "output-dir"
  | .config => "config"
  | .outputFilename => "output-filename"
  | .namespaceLanguage => "namespace-language"
  | .debugDump => "debug-dump"

def short? : Flag → Option Char
  | .input => some 'i'
  | .outputDir => some 'o'
  | .config => some 'c'
  | _ => none

/-- Values that are paths are not empty. -/
def isPath : Flag → Bool
  | .input | .outputDir | .config | .debugDump => true
  | .outputFilename | .namespaceLanguage => false

def placeholder (f : Flag) : String :=
  String.ofList (f.long.toList.map fun c => if c = '-' then '_' else c.toUpper)

/-- A flag with its value, as help and complaints show it. -/
def usage (f : Flag) : String := "--" ++ f.long ++ " <" ++ f.placeholder ++ ">"

def purpose : Flag → String
  | .input => "JSON plugin request to read (defaults to stdin)"
  | .outputDir => "Directory to write generated files into (defaults to stdout)"
  | .config => "TOML file with generator settings"
  | .outputFilename => "Name of the generated file"
  | .namespaceLanguage => "Namespace language that titles the document"
  | .debugDump => "Dump the received request as JSON to this path"

end Flag

def purpose : String := "Generate an OpenAPI v3 document from a Thrift plugin request"

def versionText : String := toolName ++ " 0.1.0"

/-- A flag's lines of help. Long names stay in line where there is no short one. -/
def helpEntry (short? : Option Char) (usage purpose : String) : List String :=
  let lead := match short? with
    | some c => String.ofList ['-', c, ',', ' ']
    | none => "    "
  ["  " ++ lead ++ usage, "          " ++ purpose]

def helpLines : List String :=
  [purpose, "", "Usage: " ++ toolName ++ " [OPTIONS]", "", "Options:"] ++
    (Flag.all.flatMap fun f => helpEntry f.short? f.usage f.purpose) ++
    helpEntry (some 'h') "--help" "Print help" ++
    helpEntry (some 'V') "--version" "Print version"

end ServiceDoc.CommandLine
