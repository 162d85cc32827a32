import ServiceDoc.Log.Directive
import ServiceDoc.Text.Split

/-! Filters: directives divided by commas. The most specific directive that concerns a line
decides on it, of equal ones the last. A line that concerns none is not shown. Words are read in
their order, and a torn one breaks off the reading of the whole filter. -/
namespace ServiceDoc.Log

structure Filter where
  directives : List Directive
deriving DecidableEq, Repr

namespace Filter

/-- Warnings and errors, when nothing is said. -/
def usual : Filter := ⟨[{ threshold := .upTo .warn }]⟩

def stronger (best : Option Directive) (d : Directive) : Option Directive :=
  match best with
  | none => some d
  | some b => if d.yieldsTo b then some b else some d

def deciding? (f : Filter) (l : Line) : Option Directive :=
  (f.directives.filter fun d => d.concerns l).foldl stronger none

def admits (f : Filter) (l : Line) : Bool :=
  (f.deciding? l).any fun d => d.threshold.admits l.level

def words (s : String) : List String := (Text.parts ',' s).filter (· ≠ "")

/-- The filter that a text stands for. -/
def ofText? (s : String) : Option Filter := do
  let results ← (words s).mapM Directive.read
  match results.filterMap Except.toOption with
  | [] => return usual
  | directives => return ⟨directives⟩

def complaint? (word : String) : Option String :=
  match Directive.read word with
  | some (.error r) => some ("ignoring `" ++ word ++ "`: " ++ r.message)
  | _ => none

/-- A word that is no directive is ignored, and that is said, as far as the words are read. -/
def complaints (s : String) : List String :=
  ((words s).takeWhile fun word => (Directive.read word).isSome).filterMap complaint?

end Filter
end ServiceDoc.Log
