import ServiceDoc.Files.Tree

/-! Storage: whatever can read, write and make directories. A file tree is one. -/
namespace ServiceDoc.Files

class Storage (m : Type → Type) where
  readFile (path : String) : m (Except Problem ByteArray)
  writeFile (path : String) (content : ByteArray) : m (Except Problem Unit)
  makeDirectory (path : String) : m (Except Problem Unit)
  isDirectory (path : String) : m Bool

/-- What fails changes nothing. -/
def keep (change : Tree → Except Problem Tree) : StateM Tree (Except Problem Unit) := fun t =>
  match change t with
  | .ok t' => (.ok (), t')
  | .error p => (.error p, t)

instance : Storage (StateM Tree) where
  readFile path := fun t => (t.read path, t)
  writeFile path content := keep fun t => t.write path content
  makeDirectory path := keep fun t => t.makeDirectory path
  isDirectory path := fun t => (t.isDirectory path, t)

section
variable {m : Type → Type} [Monad m] [Storage m]

open Storage (makeDirectory isDirectory)

/-- Makes a directory unless it is there. -/
def haveDirectory (path : String) : m (Except Problem Unit) := do
  match ← makeDirectory path with
  | .ok () => return .ok ()
  | .error p => return if ← isDirectory path then .ok () else .error p

/-- Has the first of some directories; the next ones only if the first has nothing to be in. -/
def haveFirst : List String → m (Except Problem Unit)
  | [] => return .ok ()
  | path :: outer => do
    match ← makeDirectory path with
    | .ok () => return .ok ()
    | .error .notFound =>
      match ← haveFirst outer with
      | .ok () => haveDirectory path
      | .error p => return .error p
    | .error p => return if ← isDirectory path then .ok () else .error p

/-- Makes a directory with all that lead to it. Those made before a failure stay. -/
def haveDirectories (path : String) : m (Except Problem Unit) :=
  if path = "" then return .ok () else haveFirst (path :: ancestors path)

/-- The text of a file, if it is one. -/
def readText (path : String) : m (Option String) := do
  match ← Storage.readFile path with
  | .ok content => return String.fromUTF8? content
  | .error _ => return none

end
end ServiceDoc.Files
