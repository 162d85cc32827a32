import ServiceDoc.CommandLine.Flag
import ServiceDoc.Settings.Layer
import ServiceDoc.Text.Terminal

/-! What a command line asks for. Arguments are read from left to right and the first that cannot
be taken ends it. A value may be attached to its flag or come as the next argument; one of the
latter kind is looked at only when something comes after it. -/
namespace ServiceDoc.CommandLine

structure Options where
  input : Option String := none
  outputDir : Option String := none
  config : Option String := none
  outputFilename : Option String := none
  namespaceLanguage : Option String := none
  debugDump : Option String := none
deriving DecidableEq, Repr

namespace Options

def get (o : Options) : Flag → Option String
  | .input => o.input
  | .outputDir => o.outputDir
  | .config => o.config
  | .outputFilename => o.outputFilename
  | .namespaceLanguage => o.namespaceLanguage
  | .debugDump => o.debugDump

def set (o : Options) (value : String) : Flag → Options
  | .input => { o with input := some value }
  | .outputDir => { o with outputDir := some value }
  | .config => { o with config := some value }
  | .outputFilename => { o with outputFilename := some value }
  | .namespaceLanguage => { o with namespaceLanguage := some value }
  | .debugDump => { o with debugDump := some value }

/-- The settings among the flags. -/
def layer (o : Options) : Layer where
  outputFilename := o.outputFilename
  namespaceLanguage := o.namespaceLanguage
  debugDump := o.debugDump

end Options

/-- Why reading ends before the program starts. -/
inductive Stop where
  | unexpected (argument : String)
  | valueMissing (flag : Flag)
  | repeated (flag : Flag)
  | valueUnexpected (name value : String)
  | help
  | version
deriving DecidableEq, Repr

namespace Stop

/-- Help and version are what was asked for. -/
def isFailure : Stop → Bool
  | .help | .version => false
  | _ => true

/-- The lines shown, without advice. What the user wrote is cleaned of what steers a terminal. -/
def lines (clean : String → String) : Stop → List String
  | .unexpected argument => ["error: unexpected argument '" ++ clean argument ++ "' found"]
  | .valueMissing f => ["error: a value is required for '" ++ f.usage ++ "' but none was supplied"]
  | .repeated f => ["error: the argument '" ++ f.usage ++ "' cannot be used multiple times"]
  | .valueUnexpected name value =>
    ["error: unexpected value '" ++ clean value ++ "' for '--" ++ name ++
      "' found; no more were expected"]
  | .help => helpLines
  | .version => [versionText]

/-- What is printed. -/
def printedLines (s : Stop) : List String := s.lines Text.printed

/-- What is reported to a caller. -/
def reportedLines (s : Stop) : List String := s.lines Text.plain

end Stop

/-- Arguments read so far; the last flag may still wait for its value, or to be taken. -/
structure Reading where
  options : Options := {}
  waiting : Option (Flag × Option String) := none

namespace Reading

def take (o : Options) (f : Flag) (value : String) : Except Stop Options :=
  if (o.get f).isSome then .error (.repeated f)
  else if f.isPath && value = "" then .error (.valueMissing f)
  else .ok (o.set value f)

/-- Takes the flag that waits. -/
def settle (r : Reading) : Except Stop Options :=
  match r.waiting with
  | none => .ok r.options
  | some (f, none) => .error (.valueMissing f)
  | some (f, some value) => take r.options f value

/-- A flag with its attached value, if any. -/
def flag (r : Reading) (f : Flag) (attached : Option String) : Except Stop Reading := do
  let options ← r.settle
  match attached with
  | none => return { options, waiting := some (f, none) }
  | some value => return { options := ← take options f value }

def stop (r : Reading) (s : Stop) : Except Stop Reading := do
  let _ ← r.settle
  throw s

/-- An argument after two dashes; a value follows the first equals sign. -/
def long (r : Reading) (cs : List Char) : Except Stop Reading :=
  let name := String.ofList (cs.takeWhile (· != '='))
  let attached := match cs.dropWhile (· != '=') with
    | [] => none
    | _ :: value => some (String.ofList value)
  match Flag.all.find? fun f => f.long = name with
  | some f => r.flag f attached
  | none =>
    let wanted := if name = "help" then some Stop.help
      else if name = "version" then some Stop.version else none
    match wanted, attached with
    | none, _ => .error (.unexpected ("--" ++ name))
    | some _, some value => .error (.valueUnexpected name value)
    | some s, none => r.stop s

/-- An argument after one dash. What follows a flag's letter is its value. -/
def short (r : Reading) (letter : Char) (rest : List Char) : Except Stop Reading :=
  match Flag.all.find? fun f => f.short? = some letter with
  | some f =>
    r.flag f <|
      match rest with
      | [] => none
      | '=' :: value => some (String.ofList value)
      | value => some (String.ofList value)
  | none =>
    if letter = 'h' then r.stop .help
    else if letter = 'V' then r.stop .version
    else .error (.unexpected (String.ofList ['-', letter]))

/-- An argument that is no flag: a value, if one is waited for. -/
def plain (r : Reading) (argument : String) : Except Stop Reading :=
  match r.waiting with
  | some (f, none) => .ok { r with waiting := some (f, some argument) }
  | _ => .error (.unexpected argument)

def argument (r : Reading) (a : String) : Except Stop Reading :=
  match a.toList with
  | '-' :: '-' :: cs => r.long cs
  | '-' :: c :: cs => r.short c cs
  | _ => r.plain a

/-- Nothing may follow two dashes alone. -/
def all (r : Reading) : List String → Except Stop Options
  | [] => r.settle
  | a :: as =>
    if a = "--" then
      match as with
      | [] => r.settle
      | b :: _ => .error (.unexpected b)
    else do (← r.argument a).all as

end Reading

def Options.read (arguments : List String) : Except Stop Options := Reading.all {} arguments

end ServiceDoc.CommandLine
