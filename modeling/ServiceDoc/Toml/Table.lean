/-! Tables of TOML and the rules by which they may be filled. A table is written once: under a
header, by dotted keys, or inline. A table that headers only pass through may still get its own
header, and one made by dotted keys only more dotted keys. -/
namespace ServiceDoc.Toml

inductive Origin where
  /-- Has its own header, or is inline. -/
  | stated
  /-- Lies on the way to a header. -/
  | passed
  | dotted
deriving DecidableEq, Repr

inductive Item where
  | text (s : String)
  /-- A value of no use to settings. -/
  | other
  | inline (origin : Origin) (entries : List (String × Item))
  | table (origin : Origin) (entries : List (String × Item))
  | tables (elements : List (List (String × Item)))
deriving Inhabited

abbrev Entries := List (String × Item)

namespace Entries

def set (key : String) (item : Item) : Entries → Entries
  | [] => [(key, item)]
  | (k, old) :: rest => if k = key then (k, item) :: rest else (k, old) :: set key item rest

def remove (key : String) (es : Entries) : Entries := es.filter fun e => e.1 != key

/-- A key that is not there yet. -/
def add (key : String) (item : Item) (es : Entries) : Option Entries :=
  if (es.lookup key).isSome then none else some (es.set key item)

/-- Changes the table at a header's path; a list of tables stands for its last one. -/
def atHeader (change : Entries → Option Entries) : List String → Entries → Option Entries
  | [], es => change es
  | key :: path, es =>
    match es.lookup key with
    | none => do some (es.set key (.table .passed (← atHeader change path [])))
    | some (.table origin inside) => do
      some (es.set key (.table origin (← atHeader change path inside)))
    | some (.tables elements) =>
      match elements.reverse with
      | [] => none
      | last :: before => do
        some (es.set key (.tables (((← atHeader change path last) :: before).reverse)))
    | some _ => none

/-- Adds a key that is dotted below this table. `dotted` says whether the table itself was reached
by a dotted key; only tables that dotted keys made may get keys that way. -/
def addDotted (last : String) (item : Item) : List String → (reached : Option Origin) → Entries →
    Option Entries
  | [], reached, es => if reached.all (· = .dotted) then es.add last item else none
  | key :: path, _, es =>
    match es.lookup key with
    | none => do some (es.set key (.table .dotted (← addDotted last item path (some .dotted) [])))
    | some (.table origin inside) =>
      if origin = .stated then none
      else do some (es.set key (.table origin (← addDotted last item path (some origin) inside)))
    | some (.tables elements) =>
      match elements.reverse with
      | [] => none
      | element :: before => do
        let element ← addDotted last item path (some .stated) element
        some (es.set key (.tables ((element :: before).reverse)))
    | some _ => none

/-- The same inside an inline table. -/
def addInline (last : String) (item : Item) : List String → (reached : Option Origin) → Entries →
    Option Entries
  | [], reached, es => if reached.all (· = .dotted) then es.add last item else none
  | key :: path, _, es =>
    match es.lookup key with
    | none => do some (es.set key (.inline .dotted (← addInline last item path (some .dotted) [])))
    | some (.inline origin inside) =>
      if origin = .stated then none
      else do some (es.set key (.inline origin (← addInline last item path (some origin) inside)))
    | some _ => none

end Entries

/-- Where the keys of the current part of a file go. -/
inductive Place where
  | top
  | table (path : List String) (name : String)
  | element (path : List String) (name : String)

/-- A file that is read from top to bottom: what is finished, and the table that is being filled. -/
structure Draft where
  finished : Entries := []
  place : Place := .top
  current : Entries := []

namespace Draft

def add (d : Draft) (path : List String) (name : String) (item : Item) : Option Draft := do
  some { d with current := ← Entries.addDotted name item path none d.current }

/-- Puts the current table where it belongs. -/
def finish (d : Draft) : Option Entries :=
  match d.place with
  | .top => some d.current
  | .table path name =>
    Entries.atHeader (Entries.add name (.table .stated d.current)) path d.finished
  | .element path name =>
    Entries.atHeader (fun es =>
      match es.lookup name with
      | none => some (es.set name (.tables [d.current]))
      | some (.tables elements) => some (es.set name (.tables (elements ++ [d.current])))
      | some _ => none) path d.finished

/-- The entries of the table at a header's path, empty if there is none yet. -/
def inside : List String → Entries → Entries
  | [], es => es
  | key :: path, es =>
    match es.lookup key with
    | some (.table _ es) => inside path es
    | some (.tables elements) => inside path (elements.getLastD [])
    | _ => []

/-- A header `[path.name]`. What lies below a table that was passed through stays in it. -/
def startTable (d : Draft) (path : List String) (name : String) : Option Draft := do
  let finished ← d.finish
  let reached ← Entries.atHeader some path finished
  match (inside path reached).lookup name with
  | none => some ⟨reached, .table path name, []⟩
  | some (.table .passed es) =>
    let rest ← Entries.atHeader (fun es => some (es.remove name)) path reached
    some ⟨rest, .table path name, es⟩
  | some _ => none

/-- A header `[[path.name]]`. -/
def startElement (d : Draft) (path : List String) (name : String) : Option Draft := do
  let finished ← d.finish
  let reached ← Entries.atHeader some path finished
  match (inside path reached).lookup name with
  | none => some ⟨reached, .element path name, []⟩
  | some (.tables _) => some ⟨reached, .element path name, []⟩
  | some _ => none

end Draft
end ServiceDoc.Toml
