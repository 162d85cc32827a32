import ServiceDoc.CommandLine.Program

/-! The program on real files and streams. -/
namespace ServiceDoc

namespace Files

def Problem.ofError : IO.Error → Problem
  | .noFileOrDirectory .. => .notFound
  | e => .other (toString e)

def attempt (action : IO α) : IO (Except Problem α) := do
  match ← action.toBaseIO with
  | .ok a => return .ok a
  | .error e => return .error (.ofError e)

instance : Storage IO where
  readFile path := attempt (IO.FS.readBinFile path)
  writeFile path content := attempt (IO.FS.writeBinFile path content)
  makeDirectory path := attempt (IO.FS.createDir path)
  isDirectory path := do
    match ← attempt (IO.FS.realPath path) with
    | .ok place => place.isDir
    | .error _ => return false

end Files

def standardInput : IO (Option ByteArray) := do
  match ← Files.attempt do (← IO.getStdin).readBinToEnd with
  | .ok content => return some content
  | .error _ => return none

end ServiceDoc

def main (arguments : List String) : IO UInt32 := do
  let log ← IO.getEnv "THRIFT_OPENAPI_LOG"
  let outcome ← ServiceDoc.CommandLine.run ServiceDoc.standardInput { arguments, log }
  (← IO.getStdout).putStr outcome.output
  outcome.errors.forM fun line => do (← IO.getStderr).putStrLn line
  return outcome.code
