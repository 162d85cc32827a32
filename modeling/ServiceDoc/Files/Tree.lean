import ServiceDoc.Files.Path
import ServiceDoc.Files.Problem

/-! File trees. A tree is what is at each location; every name of a path is a step from a
directory. A change of a tree changes one location. -/
namespace ServiceDoc.Files

/-- The names from the root, innermost first. -/
abbrev Location := List String

inductive Node where
  | file (content : ByteArray)
  | directory

def Node.isDirectory : Node → Bool
  | .directory => true
  | .file _ => false

structure Tree where
  nodes : List (Location × Node) := []
  /-- The working directory, where relative paths start. -/
  here : Location := []

namespace Tree

def at? (t : Tree) (l : Location) : Option Node :=
  if l = [] then some .directory else t.nodes.lookup l

def put (l : Location) (n : Node) : List (Location × Node) → List (Location × Node)
  | [] => [(l, n)]
  | (k, old) :: rest => if k = l then (k, n) :: rest else (k, old) :: put l n rest

def set (t : Tree) (l : Location) (n : Node) : Tree := { t with nodes := put l n t.nodes }

/-- Steps can be taken, and files made, only from a directory. -/
def enter (t : Tree) (l : Location) : Except Problem Unit :=
  match t.at? l with
  | none => .error .notFound
  | some (.file _) => .error .notDirectory
  | some .directory => .ok ()

/-- Names are limited in bytes. -/
def nameLimit : Nat := 255

def step (t : Tree) (l : Location) (name : String) : Except Problem Location := do
  t.enter l
  if name = "" ∨ name = "." then .ok l
  else if name = ".." then .ok l.tail
  else if nameLimit < name.utf8ByteSize then .error .nameTooLong
  else .ok (name :: l)

def walk (t : Tree) (l : Location) (names : List String) : Except Problem Location :=
  names.foldlM t.step l

/-- Whole paths are limited in bytes too. -/
def pathLimit : Nat := 4095

def start (t : Tree) (path : String) : Except Problem Location :=
  if path.toList.contains '\x00' then .error .nameHoldsNul
  else if path = "" then .error .notFound
  else if pathLimit < path.utf8ByteSize then .error .nameTooLong
  else .ok (if isAbsolute path then [] else t.here)

/-- Where a path leads. There need be nothing. -/
def locate (t : Tree) (path : String) : Except Problem Location := do
  t.walk (← t.start path) (names path)

def isDirectory (t : Tree) (path : String) : Bool :=
  match t.locate path with
  | .ok l => (t.at? l).any Node.isDirectory
  | .error _ => false

def read (t : Tree) (path : String) : Except Problem ByteArray := do
  match t.at? (← t.locate path) with
  | none => .error .notFound
  | some .directory => .error .isDirectory
  | some (.file content) => .ok content

/-- A name to be filled in a directory. -/
structure Target where
  directory : Location
  name : String
  /-- Whether slashes follow the name. -/
  slashed : Bool

/-- The last name of a path is not walked. A root has no name. -/
def target (t : Tree) (path : String) : Except Problem Target := do
  let start ← t.start path
  let reversed := (names path).reverse
  match reversed.dropWhile (· = "") with
  | [] => .ok ⟨start, "", true⟩
  | name :: before =>
    let directory ← t.walk start before.reverse
    t.enter directory
    .ok ⟨directory, name, reversed.head? = some ""⟩

/-- Names that mean a directory that is there already. -/
def Target.isThere (g : Target) : Bool := g.name = "" || g.name = "." || g.name = ".."

def Target.location (g : Target) : Location := g.name :: g.directory

/-- Writes a whole file, new or not. -/
def write (t : Tree) (path : String) (content : ByteArray) : Except Problem Tree := do
  let g ← t.target path
  if g.isThere || g.slashed then .error .isDirectory
  else if nameLimit < g.name.utf8ByteSize then .error .nameTooLong
  else if (t.at? g.location).any Node.isDirectory then .error .isDirectory
  else .ok (t.set g.location (.file content))

def makeDirectory (t : Tree) (path : String) : Except Problem Tree := do
  let g ← t.target path
  if g.isThere then .error .exists
  else if nameLimit < g.name.utf8ByteSize then .error .nameTooLong
  else if (t.at? g.location).isSome then .error .exists
  else .ok (t.set g.location .directory)

end Tree
end ServiceDoc.Files
