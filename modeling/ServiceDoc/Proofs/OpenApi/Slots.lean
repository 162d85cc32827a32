import ServiceDoc.OpenApi.Document
import ServiceDoc.Proofs.OpenApi.Table
import Mathlib.Algebra.GroupWithZero.Nat

/-! Slots of path items and of paths. Adding an item fills the free slots of its path that the item
fills and changes no other slot; a slot that both sides fill is counted as taken, so filled and
taken slots together are conserved. -/
namespace ServiceDoc.OpenApi
open Http (Verb Method)

namespace PathItem

@[simp] theorem operation_empty (v : Verb) : ({} : PathItem).operation v = none := by
  cases v <;> rfl

@[simp] theorem operation_merge (a b : PathItem) (v : Verb) :
    (a.merge b).operation v = (a.operation v).or (b.operation v) := operation_ofSlots _ v

@[simp] theorem operation_serving (m : Method) (o : Operation) (v : Verb) :
    (serving m o).operation v = if v ∈ m.verbs then some o else none := operation_ofSlots _ v

theorem verbs_serving (m : Method) (o : Operation) : (serving m o).verbs = m.verbs := by
  have present : ∀ v, ((serving m o).operation v).isSome = decide (v ∈ m.verbs) := by
    intro v
    rw [operation_serving]
    split <;> simp_all
  simp only [verbs, present]
  cases m with
  | any => rfl
  | one verb => cases verb <;> rfl

theorem mem_verbs {item : PathItem} {v : Verb} :
    v ∈ item.verbs ↔ (item.operation v).isSome = true := by
  simp only [verbs, List.mem_filter, Verb.mem_all, true_and]

/-- Nothing is lost or counted twice when two items are put together. -/
theorem length_verbs_merge (a b : PathItem) :
    (a.merge b).verbs.length + (a.taken b).length = a.verbs.length + b.verbs.length := by
  simp only [verbs, taken, operation_merge, Option.isSome_or]
  induction Verb.all with
  | nil => rfl
  | cons v rest ih =>
      simp only [List.filter_cons]
      cases (a.operation v).isSome <;> cases (b.operation v).isSome <;>
        simp only [Bool.or_true, Bool.or_false, Bool.and_true, Bool.and_false, Bool.false_eq_true,
          if_true, if_false, List.length_cons] <;> omega

end PathItem

namespace Table

variable {α : Type}

/-- A measure of the values, added up. -/
def total (f : α → Nat) (t : Table α) : Nat := (t.map fun entry => f entry.2).sum

theorem total_insert (f : α → Nat) (t : Table α) (name : String) (value : α) :
    total f (t.insert name value) + (t.get? name).elim 0 f = total f t + f value := by
  unfold total
  induction t with
  | nil => simp [insert]
  | cons entry rest ih =>
      obtain ⟨key, old⟩ := entry
      rw [get?_cons]
      by_cases same : key = name
      · subst same
        simp only [insert, if_true, List.map_cons, List.sum_cons, Option.elim_some]
        omega
      · simp only [insert, same, Ne.symm same, if_false, List.map_cons, List.sum_cons]
        omega

theorem total_sorted (f : α → Nat) (t : Table α) : total f t.sorted = total f t :=
  (t.sorted_perm.map _).sum_nat

end Table

namespace Paths

/-- What a path has for a verb. -/
def slot (paths : Paths) (path : String) (v : Verb) : Option Operation :=
  (paths.get? path).bind (·.operation v)

/-- How many slots are filled. -/
def filled (paths : Paths) : Nat := Table.total (fun item => item.verbs.length) paths

@[simp] theorem slot_nil (path : String) (v : Verb) : slot [] path v = none := rfl

@[simp] theorem filled_nil : filled [] = 0 := rfl

/-- The item that stands at a path once an item was added there. -/
def joined (paths : Paths) (path : String) (item : PathItem) : PathItem :=
  match paths.get? path with
  | none => item
  | some old => old.merge item

theorem add_eq (paths : Paths) (path : String) (item : PathItem) :
    paths.add path item = paths.insert path (paths.joined path item) := by
  unfold add joined
  cases paths.get? path <;> rfl

theorem operation_joined (paths : Paths) (path : String) (item : PathItem) (v : Verb) :
    (paths.joined path item).operation v = (paths.slot path v).or (item.operation v) := by
  unfold joined slot
  cases paths.get? path with
  | none => rfl
  | some old => exact PathItem.operation_merge old item v

theorem slot_add (paths : Paths) (path : String) (item : PathItem) (other : String) (v : Verb) :
    (paths.add path item).slot other v =
      if other = path then (paths.slot path v).or (item.operation v) else paths.slot other v := by
  rw [add_eq, slot, Table.get?_insert]
  split
  · exact operation_joined paths path item v
  · rfl

theorem taken_eq (paths : Paths) (path : String) (item : PathItem) :
    paths.taken path item =
      Verb.all.filter fun v => (paths.slot path v).isSome && (item.operation v).isSome := by
  unfold taken slot
  cases paths.get? path with
  | none => simp
  | some old => rfl

theorem mem_names_add (paths : Paths) (path : String) (item : PathItem) (other : String) :
    other ∈ (paths.add path item).names ↔ other = path ∨ other ∈ paths.names := by
  rw [add_eq, Table.mem_names_insert]

theorem nodup_names_add {paths : Paths} (h : paths.names.Nodup) (path : String)
    (item : PathItem) : (paths.add path item).names.Nodup := by
  rw [add_eq]
  exact Table.nodup_names_insert h path _

theorem filled_add (paths : Paths) (path : String) (item : PathItem) :
    (paths.add path item).filled + (paths.taken path item).length =
      paths.filled + item.verbs.length := by
  have counted := Table.total_insert (fun item => item.verbs.length) paths path
    (paths.joined path item)
  rw [add_eq]
  unfold filled taken
  unfold joined at counted ⊢
  cases h : paths.get? path with
  | none =>
      simp only [h, Option.elim_none] at counted
      exact counted
  | some old =>
      have merged := PathItem.length_verbs_merge old item
      simp only [h, Option.elim_some] at counted ⊢
      omega

/-- Paths in increasing order are equal when they have the same templates and the same slots. -/
theorem eq_of_slot {paths others : Paths} (hp : paths.names.Pairwise (· < ·))
    (ho : others.names.Pairwise (· < ·)) (names : ∀ path, path ∈ paths.names ↔ path ∈ others.names)
    (slots : ∀ path v, paths.slot path v = others.slot path v) : paths = others := by
  refine Table.eq_of_get? hp ho fun path => ?_
  by_cases h : path ∈ paths.names
  · obtain ⟨item, found⟩ := Table.exists_get? h
    obtain ⟨other, found'⟩ := Table.exists_get? ((names path).mp h)
    have same : item = other := by
      refine PathItem.ext_operation fun v => ?_
      have slots := slots path v
      rwa [slot, slot, found, found', Option.bind_some, Option.bind_some] at slots
    rw [found, found', same]
  · rw [Table.get?_eq_none_iff.mpr h, Table.get?_eq_none_iff.mpr (mt (names path).mpr h)]

theorem slot_sorted {paths : Paths} (h : paths.names.Nodup) (path : String) (v : Verb) :
    slot paths.sorted path v = paths.slot path v := by
  unfold slot
  rw [Table.get?_sorted h]

theorem filled_sorted (paths : Paths) : filled paths.sorted = paths.filled :=
  Table.total_sorted _ paths

end Paths
end ServiceDoc.OpenApi
