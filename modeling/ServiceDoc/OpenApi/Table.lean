/-! Tables: entries in the order in which their names first came. Writing to a name that is there
replaces its value and keeps its place. -/
namespace ServiceDoc.OpenApi

abbrev Table (α : Type) := List (String × α)

namespace Table

def get? (t : Table α) (name : String) : Option α := t.lookup name

def names (t : Table α) : List String := t.map Prod.fst

def insert (name : String) (value : α) : Table α → Table α
  | [] => [(name, value)]
  | (key, old) :: rest =>
    if key = name then (key, value) :: rest else (key, old) :: insert name value rest

/-- Entries with a repeated name count as written one after the other. -/
def ofEntries (entries : List (String × α)) : Table α :=
  entries.foldl (fun t (name, value) => insert name value t) []

/-- Entries by name, in code point order. -/
def sorted (t : Table α) : Table α := t.mergeSort fun a b => decide (a.1 ≤ b.1)

end Table
end ServiceDoc.OpenApi
