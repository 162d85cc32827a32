import ServiceDoc.Http.Verb
import ServiceDoc.OpenApi.Operation

/-! Path items: one slot for each verb. When items are put together, the first operation of a slot
stays. -/
namespace ServiceDoc.OpenApi
open Http (Verb Method)

structure PathItem where
  get : Option Operation := none
  put : Option Operation := none
  post : Option Operation := none
  delete : Option Operation := none
  options : Option Operation := none
  head : Option Operation := none
  patch : Option Operation := none
deriving Inhabited

namespace PathItem

def operation (item : PathItem) : Verb → Option Operation
  | .get => item.get
  | .post => item.post
  | .put => item.put
  | .delete => item.delete
  | .options => item.options
  | .head => item.head
  | .patch => item.patch

def ofSlots (slot : Verb → Option Operation) : PathItem where
  get := slot .get
  put := slot .put
  post := slot .post
  delete := slot .delete
  options := slot .options
  head := slot .head
  patch := slot .patch

@[simp] theorem operation_ofSlots (slot : Verb → Option Operation) (v : Verb) :
    (ofSlots slot).operation v = slot v := by cases v <;> rfl

theorem ext_operation {a b : PathItem} (h : ∀ v, a.operation v = b.operation v) : a = b := by
  cases a with
  | mk =>
    cases b with
    | mk =>
      simp only [mk.injEq]
      exact ⟨h .get, h .put, h .post, h .delete, h .options, h .head, h .patch⟩

/-- The verbs with an operation, in slot order. -/
def verbs (item : PathItem) : List Verb := Verb.all.filter fun v => (item.operation v).isSome

/-- One operation in every slot of a method. -/
def serving (method : Method) (o : Operation) : PathItem :=
  ofSlots fun v => if v ∈ method.verbs then some o else none

def merge (a b : PathItem) : PathItem := ofSlots fun v => (a.operation v).or (b.operation v)

/-- The verbs that both items fill, in slot order. -/
def taken (a b : PathItem) : List Verb :=
  Verb.all.filter fun v => (a.operation v).isSome && (b.operation v).isSome

/-- Equality up to the order of tables. -/
def same (a b : PathItem) : Bool :=
  Verb.all.all fun v =>
    match a.operation v, b.operation v with
    | none, none => true
    | some x, some y => x.same y
    | _, _ => false

def toDatum (item : PathItem) : Datum :=
  .map (written
    [("get", item.get.map Operation.toDatum), ("put", item.put.map Operation.toDatum),
      ("post", item.post.map Operation.toDatum), ("delete", item.delete.map Operation.toDatum),
      ("options", item.options.map Operation.toDatum), ("head", item.head.map Operation.toDatum),
      ("patch", item.patch.map Operation.toDatum)])

end PathItem

/-- Path items by path template. -/
abbrev Paths := Table PathItem

namespace Paths

/-- Puts an item together with the one of the same path, if there is one. -/
def add (paths : Paths) (path : String) (item : PathItem) : Paths :=
  match paths.get? path with
  | none => paths.insert path item
  | some old => paths.insert path (old.merge item)

/-- The verbs of an item whose slots are filled already. -/
def taken (paths : Paths) (path : String) (item : PathItem) : List Verb :=
  match paths.get? path with
  | none => []
  | some old => old.taken item

end Paths
end ServiceDoc.OpenApi
