import ServiceDoc.CommandLine.Options
import ServiceDoc.Files.Storage
import ServiceDoc.Log.Filter

/-! The program: the filter of its log, arguments, settings, input, request, generation, output, in this
order. The first failure ends it, with a code and, but for a torn filter, one message. A request that
cannot be kept for inspection is no failure. All of it works on any storage. -/
namespace ServiceDoc.CommandLine

open Files (Storage)

inductive Failure where
  | configUnread (path : String)
  | configRefused (path : String)
  /-- Without a path it is the standard input. -/
  | inputUnread (path : Option String)
  | requestRefused
  | undelivered (reason : String)
  | directoryNotMade (path : String)
  | fileNotWritten (path : String)
deriving DecidableEq, Repr

def Failure.message : Failure → String
  | .configUnread path => "Failed to read config " ++ path
  | .configRefused path => "Failed to parse config " ++ path
  | .inputUnread none => "Failed to get input"
  | .inputUnread (some path) => "Failed to get input from " ++ path
  | .requestRefused => "Failed to unmarshal request"
  | .undelivered reason => reason
  | .directoryNotMade path => "Failed to create " ++ path
  | .fileNotWritten path => "Failed to write " ++ path

/-- What a run leaves besides files. -/
structure Report where
  output : String := ""
  log : List Log.Line := []
  failure : Option Failure := none
deriving DecidableEq, Repr

def Report.failed (f : Failure) : Report := { failure := some f }

section
variable {m : Type → Type} [Monad m] [Storage m]

/-- Flags over the file they name, over defaults. -/
def loadSettings (o : Options) : m (Except Failure Settings) := do
  match o.config with
  | none => return .ok (o.layer.apply {})
  | some path =>
    match ← Files.readText path with
    | none => return .error (.configUnread path)
    | some text =>
      match Layer.read text with
      | none => return .error (.configRefused path)
      | some file => return .ok (o.layer.apply (file.apply {}))

/-- The standard input is read only if there is no other. -/
def readInput (standard : m (Option ByteArray)) (path : Option String) :
    m (Except Failure String) := do
  let text? ← match path with
    | some path => Files.readText path
    | none => (·.bind String.fromUTF8?) <$> standard
  match text? with
  | some text => return .ok text
  | none => return .error (.inputUnread path)

/-- A log line of the program itself. -/
def said (level : Log.Level) (message : String) : Log.Line :=
  { level, source := "thrift_gen_openapi", message }

/-- Keeps a request for inspection. -/
def keepRequest (request : Idl.Request) (path : String) : m (List Log.Line) := do
  match ← Storage.writeFile path request.write.toUTF8 with
  | .ok () => return []
  | .error p => return [said .debug ("Failed to dump request to " ++ path ++ ": " ++ p.message)]

/-- Writes files into a directory until one fails. -/
def writeFiles (dir : String) : List GeneratedFile → m Report
  | [] => return {}
  | file :: rest => do
    match ← Files.haveDirectories dir with
    | .error _ => return .failed (.directoryNotMade dir)
    | .ok () =>
      let path := Files.join dir file.name
      match ← Storage.writeFile path file.content.toUTF8 with
      | .error _ => return .failed (.fileNotWritten path)
      | .ok () =>
        let report ← writeFiles dir rest
        return { report with log := said .info ("wrote " ++ path) :: report.log }

/-- Hands over files in a directory, or their contents one after the other. -/
def deliver (d : Delivery) (dir : Option String) : m Report := do
  match d.error with
  | some reason => return .failed (.undelivered reason)
  | none =>
    match dir with
    | some dir => writeFiles dir d.files
    | none => return { output := String.join (d.files.map GeneratedFile.content) }

def runOptions (standard : m (Option ByteArray)) (o : Options) : m Report := do
  match ← loadSettings o with
  | .error f => return .failed f
  | .ok settings =>
    match ← readInput standard o.input with
    | .error f => return .failed f
    | .ok text =>
      match Idl.Request.read text with
      | .error _ => return .failed .requestRefused
      | .ok request =>
        let kept ← match settings.debugDump with
          | some path => keepRequest request path
          | none => pure []
        let report ← deliver (generate settings request) o.outputDir
        return { report with log := kept ++ generationLog settings request ++ report.log }

end

structure Outcome where
  code : UInt32
  output : String := ""
  errors : List String := []
deriving DecidableEq, Repr

def Outcome.ofStop (s : Stop) : Outcome :=
  if s.isFailure then { code := 2, errors := s.printedLines }
  else { code := 0, output := String.join (s.printedLines.map (· ++ "\n")) }

def Outcome.ofReport (r : Report) (filter : Log.Filter) : Outcome :=
  let shown := (r.log.filter filter.admits).map Log.Line.shown
  match r.failure with
  | none => { code := 0, output := r.output, errors := shown }
  | some f => { code := 1, output := r.output, errors := shown ++ ["Error: " ++ f.message] }

/-- What one call of the program is given besides files and the standard input. -/
structure Call where
  arguments : List String
  log : Option String := none

def Call.filterText (c : Call) : String := c.log.getD ""

def runArguments {m : Type → Type} [Monad m] [Storage m] (standard : m (Option ByteArray))
    (filter : Log.Filter) (arguments : List String) : m Outcome := do
  match Options.read arguments with
  | .error s => return .ofStop s
  | .ok o => return .ofReport (← runOptions standard o) filter

/-- What is wrong with the filter is said before anything else. One that cannot be read to its end
ends the run. -/
def run {m : Type → Type} [Monad m] [Storage m] (standard : m (Option ByteArray)) (c : Call) :
    m Outcome := do
  let complaints := Log.Filter.complaints c.filterText
  match Log.Filter.ofText? c.filterText with
  -- What the runtime reports of the broken reading is not of the program's making and left out.
  | none => return { code := 101, errors := complaints }
  | some filter =>
    let outcome ← runArguments standard filter c.arguments
    return { outcome with errors := complaints ++ outcome.errors }

end ServiceDoc.CommandLine
