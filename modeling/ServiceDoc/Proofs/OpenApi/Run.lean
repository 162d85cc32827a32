import ServiceDoc.OpenApi.Edit
import ServiceDoc.Proofs.OpenApi.Slots

/-! Runs of edits. The first operation that is written to a slot stays there: an edit fills free
slots of one path and changes no filled one, whatever comes before and after it. -/
namespace ServiceDoc.OpenApi
open Http (Verb Method)

namespace Document

/-- An edit that offers operations to the slots of one path: it reports the verbs of the filled
slots, puts its operations into the free ones and leaves every other path alone. -/
structure Offers (d : Document) (e : Edit) (path : String) (offer : Verb → Option Operation) :
    Prop where
  reports : d.taken? e =
    some (Verb.all.filter fun v => (offer v).isSome && (d.paths.slot path v).isSome)
  fills : ∀ v, (d.edit e).paths.slot path v = (d.paths.slot path v).or (offer v)
  keeps : ∀ other, other ≠ path → ∀ v, (d.edit e).paths.slot other v = d.paths.slot other v

/-- Whatever adds an item to a path offers its operations there. -/
theorem offers_of_add {d : Document} {e : Edit} {path : String} {item : PathItem}
    (paths : (d.edit e).paths = d.paths.add path item)
    (taken : d.taken? e = some (d.paths.taken path item)) : d.Offers e path item.operation := by
  refine ⟨?_, ?_, ?_⟩
  · rw [taken, Paths.taken_eq]
    simp only [Bool.and_comm]
  · intro v
    rw [paths, Paths.slot_add, if_pos rfl]
  · intro other ne v
    rw [paths, Paths.slot_add, if_neg ne]

theorem offers_insert (d : Document) (method : Method) (path : String) (o : Operation) :
    d.Offers (.insert method path o) path fun v => if v ∈ method.verbs then some o else none := by
  have offer : (PathItem.serving method o).operation =
      fun v => if v ∈ method.verbs then some o else none :=
    funext (PathItem.operation_serving method o)
  rw [← offer]
  exact offers_of_add rfl rfl

/-- A merge adds the item of its source. -/
theorem edit_merge {d : Document} {path source : String} {item other : PathItem}
    (target : d.paths.get? path = some item) (found : d.paths.get? source = some other) :
    d.edit (.merge path source) = { d with paths := d.paths.add path other } := by
  simp only [edit, target, found, Paths.add]

theorem taken?_merge {d : Document} {path source : String} {item other : PathItem}
    (target : d.paths.get? path = some item) (found : d.paths.get? source = some other) :
    d.taken? (.merge path source) = some (d.paths.taken path other) := by
  simp only [taken?, target, found, Paths.taken]

theorem offers_merge {d : Document} {path source : String} (target : path ∈ d.paths.names)
    (found : source ∈ d.paths.names) :
    d.Offers (.merge path source) path (d.paths.slot source) := by
  obtain ⟨item, target⟩ := Table.exists_get? target
  obtain ⟨other, found⟩ := Table.exists_get? found
  have offer : d.paths.slot source = other.operation := by
    funext v
    rw [Paths.slot, found, Option.bind_some]
  rw [offer]
  exact offers_of_add (congrArg Document.paths (edit_merge target found))
    (taken?_merge target found)

/-- A merge without one of its items does nothing. -/
theorem merge_absent {d : Document} {path source : String}
    (absent : path ∉ d.paths.names ∨ source ∉ d.paths.names) :
    d.edit (.merge path source) = d ∧ d.taken? (.merge path source) = none := by
  simp only [← Table.get?_eq_none_iff] at absent
  simp only [edit, taken?]
  rcases absent with none | none
  · rw [none]
    exact ⟨rfl, rfl⟩
  · rw [none]
    cases d.paths.get? path <;> exact ⟨rfl, rfl⟩

/-- What an edit does to the paths. -/
theorem paths_edit (d : Document) (e : Edit) :
    (∃ path item, (d.edit e).paths = d.paths.add path item) ∨ (d.edit e).paths = d.paths ∨
      (d.edit e).paths = d.paths.sorted := by
  cases e with
  | insert method path o => exact .inl ⟨path, _, rfl⟩
  | merge path source =>
      by_cases absent : path ∉ d.paths.names ∨ source ∉ d.paths.names
      · rw [(merge_absent absent).1]
        exact .inr (.inl rfl)
      · obtain ⟨target, found⟩ := not_or.mp absent
        obtain ⟨item, target⟩ := Table.exists_get? (not_not.mp target)
        obtain ⟨other, found⟩ := Table.exists_get? (not_not.mp found)
        exact .inl ⟨path, other, congrArg Document.paths (edit_merge target found)⟩
  | tag t => exact .inr (.inl rfl)
  | schema name s => exact .inr (.inl rfl)
  | sort => exact .inr (.inr rfl)

theorem mem_names_edit {d : Document} {path : String} (h : path ∈ d.paths.names) (e : Edit) :
    path ∈ (d.edit e).paths.names := by
  rcases d.paths_edit e with ⟨other, item, added⟩ | same | sorted
  · rw [added, Paths.mem_names_add]
    exact .inr h
  · rwa [same]
  · rwa [sorted, Table.mem_names_sorted]

theorem nodup_names_edit {d : Document} (h : d.paths.names.Nodup) (e : Edit) :
    (d.edit e).paths.names.Nodup := by
  rcases d.paths_edit e with ⟨path, item, added⟩ | same | sorted
  · rw [added]
    exact Paths.nodup_names_add h path item
  · rwa [same]
  · rw [sorted]
    exact Table.nodup_names_sorted h

theorem slot_edit {d : Document} (unique : d.paths.names.Nodup) {path : String} {v : Verb}
    {o : Operation} (h : d.paths.slot path v = some o) (e : Edit) :
    (d.edit e).paths.slot path v = some o := by
  rcases d.paths_edit e with ⟨other, item, added⟩ | same | sorted
  · rw [added, Paths.slot_add]
    split
    next here => rw [← here, h, Option.some_or]
    next => exact h
  · rwa [same]
  · rwa [sorted, Paths.slot_sorted unique]

theorem run_append (d : Document) (edits later : List Edit) :
    d.run (edits ++ later) = (d.run edits).run later := List.foldl_append

theorem nodup_names_run {d : Document} (h : d.paths.names.Nodup) (edits : List Edit) :
    (d.run edits).paths.names.Nodup := by
  induction edits generalizing d with
  | nil => exact h
  | cons e rest ih => exact ih (nodup_names_edit h e)

theorem mem_names_run {d : Document} {path : String} (h : path ∈ d.paths.names)
    (edits : List Edit) : path ∈ (d.run edits).paths.names := by
  induction edits generalizing d with
  | nil => exact h
  | cons e rest ih => exact ih (mem_names_edit h e)

theorem slot_run {d : Document} (unique : d.paths.names.Nodup) {path : String} {v : Verb}
    {o : Operation} (h : d.paths.slot path v = some o) (edits : List Edit) :
    (d.run edits).paths.slot path v = some o := by
  induction edits generalizing d with
  | nil => exact h
  | cons e rest ih => exact ih (nodup_names_edit unique e) (slot_edit unique h e)

/-- First writer wins: at every point of a run a filled slot keeps its operation for good, a path
that is there stays and is there once, and an insertion or a merge reports exactly the verbs that it
offers and that are filled, fills the others that it offers and changes no other slot. -/
theorem run_first_writer {d : Document} (unique : d.paths.names.Nodup) (edits : List Edit) :
    (∀ path v o, (d.run edits).paths.slot path v = some o →
      ∀ later, (d.run (edits ++ later)).paths.slot path v = some o) ∧
    (∀ path, path ∈ (d.run edits).paths.names →
      ∀ later, path ∈ (d.run (edits ++ later)).paths.names) ∧
    (d.run edits).paths.names.Nodup ∧
    (∀ method path o, (d.run edits).Offers (.insert method path o) path
      fun v => if v ∈ method.verbs then some o else none) ∧
    (∀ path source, path ∈ (d.run edits).paths.names → source ∈ (d.run edits).paths.names →
      (d.run edits).Offers (.merge path source) path ((d.run edits).paths.slot source)) := by
  have unique := nodup_names_run unique edits
  refine ⟨?_, ?_, unique, offers_insert _, fun _ _ => offers_merge⟩
  · intro path v o filled later
    rw [run_append]
    exact slot_run unique filled later
  · intro path present later
    rw [run_append]
    exact mem_names_run present later

/-- Two paths with a common verb. -/
def twoPaths : List Edit :=
  [.insert (.one .get) "/x" { id := "first" }, .insert .any "/y" { id := "second" }]

theorem twoPaths_first_writer :
    ({} : Document).paths.names.Nodup ∧
      (run {} (twoPaths ++ [.merge "/x" "/y", .sort, .merge "/x" "/x"])).paths.slot "/x" .get =
        some { id := "first" } ∧
      (run {} twoPaths).taken? (.merge "/x" "/y") = some [.get] ∧
      ((run {} twoPaths).edit (.merge "/x" "/y")).paths.slot "/x" .put =
        some { id := "second" } := by
  have unique : ({} : Document).paths.names.Nodup := List.nodup_nil
  obtain ⟨stays, -, -, -, merges⟩ := run_first_writer unique twoPaths
  have merge := merges "/x" "/y" (by decide) (by decide)
  refine ⟨unique, stays "/x" .get _ rfl _, merge.reports.trans rfl, ?_⟩
  rw [merge.fills]
  rfl

end Document
end ServiceDoc.OpenApi
