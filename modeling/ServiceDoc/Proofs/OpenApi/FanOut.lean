import ServiceDoc.Proofs.OpenApi.Merge

/-! An operation for any verb. Adding it at once is adding it for one verb after the other: the
paths come out the same, and the verbs that are refused are those that the single additions refuse.
The order of the verbs shows in the order of the reports alone. -/
namespace ServiceDoc.OpenApi
open Http (Verb Method)

theorem Table.insert_insert {α : Type} (t : Table α) (name : String) (first second : α) :
    (t.insert name first).insert name second = t.insert name second := by
  induction t with
  | nil => simp only [insert, if_true]
  | cons entry rest ih =>
      obtain ⟨key, old⟩ := entry
      by_cases same : key = name
      · simp only [insert, same, if_true]
      · simp only [insert, same, if_false, ih]

/-- One operation in the slots of some verbs. -/
def PathItem.filling (verbs : List Verb) (o : Operation) : PathItem :=
  ofSlots fun v => if v ∈ verbs then some o else none

@[simp] theorem PathItem.operation_filling (verbs : List Verb) (o : Operation) (v : Verb) :
    (filling verbs o).operation v = if v ∈ verbs then some o else none := operation_ofSlots _ v

theorem PathItem.serving_merge_filling (v : Verb) (rest : List Verb) (o : Operation) :
    (serving (.one v) o).merge (filling rest o) = filling (v :: rest) o := by
  apply ext_operation
  intro w
  rw [operation_merge, operation_serving, operation_filling, operation_filling]
  by_cases here : w = v
  · simp [Method.verbs, here]
  · simp [Method.verbs, here]

theorem PathItem.filling_nil (o : Operation) : filling [] o = {} := rfl

/-- Only the verbs that are listed count, not their order. -/
theorem PathItem.filling_perm {verbs others : List Verb} (h : verbs.Perm others) (o : Operation) :
    filling verbs o = filling others o := by
  apply ext_operation
  intro v
  simp only [operation_filling, h.mem_iff]

namespace Paths

/-- Two items that are added to one path are added as one item. -/
theorem add_add (paths : Paths) (path : String) (a b : PathItem) :
    (paths.add path a).add path b = paths.add path (a.merge b) := by
  have stored : (paths.add path a).get? path = some (paths.joined path a) := by
    rw [add_eq, Table.get?_insert, if_pos rfl]
  have merged : (paths.joined path a).merge b = paths.joined path (a.merge b) := by
    unfold joined
    cases paths.get? path with
    | none => rfl
    | some old => exact PathItem.merge_assoc old a b
  rw [add_eq (paths.add path a), joined, stored, add_eq paths path a, Table.insert_insert,
    add_eq paths path (a.merge b)]
  exact congrArg (paths.insert path) merged

/-- Adds an operation to a path for one verb after the other, and lists the verbs that the
additions found taken. -/
def addEach (paths : Paths) (path : String) (o : Operation) : List Verb → Paths × List Verb
  | [] => (paths, [])
  | v :: rest =>
    let item := PathItem.serving (.one v) o
    let (after, refused) := addEach (paths.add path item) path o rest
    (after, paths.taken path item ++ refused)

theorem addEach_cons (paths : Paths) (path : String) (o : Operation) (v : Verb)
    (rest : List Verb) :
    paths.addEach path o (v :: rest) =
      (((paths.add path (.serving (.one v) o)).addEach path o rest).1,
        paths.taken path (.serving (.one v) o) ++
          ((paths.add path (.serving (.one v) o)).addEach path o rest).2) := rfl

/-! ### The paths -/

/-- Once the path is there, the verbs that follow join its item. -/
theorem addEach_after (paths : Paths) (path : String) (o : Operation) (item : PathItem)
    (verbs : List Verb) :
    ((paths.add path item).addEach path o verbs).1 =
      paths.add path (item.merge (.filling verbs o)) := by
  induction verbs generalizing item with
  | nil => rw [addEach, PathItem.filling_nil, PathItem.merge_empty]
  | cons v rest ih =>
      rw [addEach_cons, add_add, ih, PathItem.merge_assoc, PathItem.serving_merge_filling]

theorem addEach_paths (paths : Paths) (path : String) (o : Operation) {verbs : List Verb}
    (some_verb : verbs ≠ []) :
    (paths.addEach path o verbs).1 = paths.add path (.filling verbs o) := by
  cases verbs with
  | nil => exact absurd rfl some_verb
  | cons v rest => rw [addEach_cons, addEach_after, PathItem.serving_merge_filling]

/-! ### The reports -/

theorem taken_filling (paths : Paths) (path : String) (o : Operation) (verbs : List Verb) :
    paths.taken path (.filling verbs o) =
      Verb.all.filter fun v => (paths.slot path v).isSome && decide (v ∈ verbs) := by
  rw [taken_eq]
  apply List.filter_congr
  intro v _
  rw [PathItem.operation_filling]
  split
  next mem => simp [mem]
  next not_mem => simp [not_mem]

theorem taken_one (paths : Paths) (path : String) (o : Operation) (v : Verb) :
    paths.taken path (.serving (.one v) o) = if (paths.slot path v).isSome then [v] else [] := by
  refine (taken_filling paths path o [v]).trans ?_
  cases v <;> simp [Verb.all, List.filter_cons]

/-- The slot of a verb is as it was before its own addition. -/
theorem slot_add_one (paths : Paths) (path : String) (o : Operation) {v w : Verb}
    (other : w ≠ v) : (paths.add path (.serving (.one v) o)).slot path w = paths.slot path w := by
  have unserved : (PathItem.serving (.one v) o).operation w = none := by
    rw [PathItem.operation_serving, if_neg]
    simpa only [Method.verbs, List.mem_singleton] using other
  rw [slot_add, if_pos rfl, unserved, Option.or_none]

theorem addEach_refused (paths : Paths) (path : String) (o : Operation) {verbs : List Verb}
    (distinct : verbs.Nodup) :
    (paths.addEach path o verbs).2 = verbs.filter fun v => (paths.slot path v).isSome := by
  induction verbs generalizing paths with
  | nil => rfl
  | cons v rest ih =>
      obtain ⟨fresh, distinct⟩ := List.nodup_cons.mp distinct
      have later : (rest.filter fun w =>
          ((paths.add path (.serving (.one v) o)).slot path w).isSome) =
            rest.filter fun w => (paths.slot path w).isSome := by
        apply List.filter_congr
        intro w member
        have other : w ≠ v := fun same => fresh (same ▸ member)
        rw [slot_add_one paths path o other]
      rw [addEach_cons, ih _ distinct, later, taken_one, List.filter_cons]
      split <;> rfl

/-! ### Any verb -/

theorem taken_any (paths : Paths) (path : String) (o : Operation) :
    paths.taken path (.serving .any o) = Verb.all.filter fun v => (paths.slot path v).isSome := by
  refine (taken_filling paths path o Verb.all).trans ?_
  simp only [Verb.mem_all, decide_true, Bool.and_true]

/-- An operation for any verb is the same as its seven single additions in slot order, reports
included; in every other order of the verbs the paths are the same, and the same verbs are
refused. -/
theorem any_eq_addEach (paths : Paths) (path : String) (o : Operation) :
    paths.addEach path o Verb.all =
      (paths.add path (.serving .any o), paths.taken path (.serving .any o)) ∧
    ∀ order : List Verb, order.Perm Verb.all →
      (paths.addEach path o order).1 = paths.add path (.serving .any o) ∧
      (paths.addEach path o order).2.Perm (paths.taken path (.serving .any o)) := by
  have distinct : Verb.all.Nodup := by decide
  constructor
  · refine Prod.ext (addEach_paths paths path o (by decide)) ?_
    rw [addEach_refused paths path o distinct, taken_any]
  · intro order reordered
    constructor
    · have some_verb : order ≠ [] := by
        rintro rfl
        exact absurd reordered.symm.eq_nil (by decide)
      rw [addEach_paths paths path o some_verb, PathItem.filling_perm reordered o]
      rfl
    · rw [addEach_refused paths path o (reordered.nodup_iff.mpr distinct), taken_any]
      exact reordered.filter _

/-- Between two other paths, one that is served for two verbs already. -/
def threePaths : Paths :=
  [("/a", .serving .any { id := "a" }), ("/b", .filling [.post, .head] { id := "b" }),
    ("/c", {})]

theorem threePaths_any_backwards :
    Verb.all.reverse.Perm Verb.all ∧
      (threePaths.addEach "/b" { id := "all" } Verb.all.reverse).1 =
        threePaths.add "/b" (.serving .any { id := "all" }) ∧
      (threePaths.addEach "/b" { id := "all" } Verb.all.reverse).2 = [.head, .post] ∧
      (threePaths.addEach "/b" { id := "all" } Verb.all.reverse).2.Perm
        (threePaths.taken "/b" (.serving .any { id := "all" })) := by
  have backwards : Verb.all.reverse.Perm Verb.all := List.reverse_perm _
  obtain ⟨paths, refused⟩ := (any_eq_addEach threePaths "/b" { id := "all" }).2 _ backwards
  exact ⟨backwards, paths, by decide, refused⟩

end Paths
end ServiceDoc.OpenApi
