/-! HTTP verbs, and the methods that a route can ask for: one verb, or every verb. -/
namespace ServiceDoc.Http

inductive Verb where
  | get
  | post
  | put
  | delete
  | options
  | head
  | patch
deriving DecidableEq, Inhabited, Repr

namespace Verb

/-- Slot order. -/
def all : List Verb := [.get, .post, .put, .delete, .options, .head, .patch]

def name : Verb → String
  | .get => "GET"
  | .post => "POST"
  | .put => "PUT"
  | .delete => "DELETE"
  | .options => "OPTIONS"
  | .head => "HEAD"
  | .patch => "PATCH"

theorem mem_all (v : Verb) : v ∈ all := by cases v <;> decide

end Verb

inductive Method where
  | one (verb : Verb)
  | any
deriving DecidableEq, Repr

namespace Method

def name : Method → String
  | .one verb => verb.name
  | .any => "ANY"

def verbs : Method → List Verb
  | .one verb => [verb]
  | .any => Verb.all

end Method
end ServiceDoc.Http
