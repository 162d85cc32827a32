import ServiceDoc.Text.Split

/-! Paths: names divided by slashes. What names mean is decided by walking, so `..` stays as it is
written. -/
namespace ServiceDoc.Files

def isAbsolute (path : String) : Bool := path.toList.head? = some '/'

/-- The names of a path; before, after and between slashes one may be empty. -/
def names (path : String) : List String := Text.parts '/' path

/-- A name below a directory. An absolute one stands for itself. -/
def join (dir name : String) : String :=
  if isAbsolute name then name
  else
    match dir.toList.getLast? with
    | none => name
    | some c => if c = '/' then dir ++ name else dir ++ "/" ++ name

/-- Names without those that say nothing. A dot says something only at a relative path's start. -/
def parts (path : String) : List String :=
  let said (name : String) : Bool := name != "" && name != "."
  match names path with
  | [] => []
  | first :: rest => (if first = "" then [] else [first]) ++ rest.filter said

/-- The directories that lead to the last part of a path, innermost first. -/
def ancestors (path : String) : List String :=
  let start := if isAbsolute path then ["/"] else []
  let step (found : List String) (part : String) : List String :=
    join (found.headD "") part :: found
  (parts path).dropLast.foldl step start

end ServiceDoc.Files
