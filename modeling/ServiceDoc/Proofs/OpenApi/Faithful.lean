import ServiceDoc.OpenApi.Document
import ServiceDoc.Proofs.Json.Faithful
import ServiceDoc.Proofs.Worded
import Mathlib.Data.List.Basic

/-! Nothing is lost in writing. Members keep their names, so what is left out shows as a missing
name and never as another member; what is left out is always the one value that is empty. Hence the
written data of documents, and of all their parts, stand for one value each, and so do their texts. -/
namespace ServiceDoc.OpenApi

/-! ### Members -/

theorem written_none (name : String) (ms : List (String × Option Datum)) :
    written ((name, none) :: ms) = written ms := rfl

theorem written_some (name : String) (d : Datum) (ms : List (String × Option Datum)) :
    written ((name, some d) :: ms) = (name, d) :: written ms := rfl

theorem mem_names_of_written {ms : List (String × Option Datum)} {name : String} {d : Datum}
    (h : (name, d) ∈ written ms) : name ∈ ms.map Prod.fst := by
  obtain ⟨⟨key, value⟩, member, found⟩ := List.mem_filterMap.mp h
  obtain ⟨e, -, same⟩ := Option.map_eq_some_iff.mp found
  cases same
  exact List.mem_map_of_mem member

/-- A member that is left out cannot be taken for another one of its own list or of a list with the
same names. -/
theorem eq_of_written {ms ns : List (String × Option Datum)} (h : written ms = written ns)
    (names : ms.map Prod.fst = ns.map Prod.fst) (nodup : (ms.map Prod.fst).Nodup) : ms = ns := by
  induction ms generalizing ns with
  | nil => exact (List.map_eq_nil_iff.mp names.symm).symm
  | cons m ms ih =>
      obtain ⟨name, x⟩ := m
      cases ns with
      | nil => cases names
      | cons n ns =>
          obtain ⟨other, y⟩ := n
          simp only [List.map_cons, List.cons.injEq] at names
          obtain ⟨rfl, names⟩ := names
          rw [List.map_cons] at nodup
          obtain ⟨fresh, distinct⟩ := List.nodup_cons.mp nodup
          -- one side cannot leave out what the other side writes: the name comes only once
          cases x with
          | none =>
              cases y with
              | none =>
                  rw [written_none, written_none] at h
                  rw [ih h names distinct]
              | some e =>
                  rw [written_none, written_some] at h
                  have early : (name, e) ∈ written ms := h ▸ List.mem_cons_self
                  exact absurd (mem_names_of_written early) fresh
          | some d =>
              cases y with
              | none =>
                  rw [written_none, written_some] at h
                  have early : (name, d) ∈ written ns := h ▸ List.mem_cons_self
                  exact absurd (names ▸ mem_names_of_written early) fresh
              | some e =>
                  obtain ⟨same, others⟩ := List.cons.inj h
                  cases same
                  rw [ih others names distinct]

/-- What is written unless it is empty. -/
theorem eq_of_unless {α : Type} {empty : α → Bool} {f : α → Datum} {a b : α}
    (h : (if empty a then none else some (f a)) = if empty b then none else some (f b))
    (unique : empty a = true → empty b = true → a = b) (faithful : f a = f b → a = b) : a = b := by
  split at h
  next ha =>
    split at h
    next hb => exact unique ha hb
    next => cases h
  next =>
    split at h
    next => cases h
    next => exact faithful (Option.some.inj h)

theorem text_injective : Function.Injective Datum.text := fun _ _ => Datum.text.inj

theorem bool_injective : Function.Injective Datum.bool := fun _ _ => Datum.bool.inj

theorem eq_of_list_map {α : Type} {f : α → Datum} (faithful : Function.Injective f) {xs ys : List α}
    (h : Datum.list (xs.map f) = Datum.list (ys.map f)) : xs = ys :=
  faithful.list_map (Datum.list.inj h)

theorem writtenTable_injective {α : Type} {f : α → Datum} (faithful : Function.Injective f) :
    Function.Injective (writtenTable f) := by
  intro t u h
  refine Function.Injective.list_map ?_ (Datum.map.inj h)
  rintro ⟨name, a⟩ ⟨other, b⟩ same
  obtain ⟨rfl, values⟩ := Prod.mk.inj same
  rw [faithful values]

theorem eq_of_isEmpty {α : Type} {xs ys : List α} (hx : xs.isEmpty = true)
    (hy : ys.isEmpty = true) : xs = ys := by
  rw [List.isEmpty_iff.mp hx, List.isEmpty_iff.mp hy]

/-! ### The parts of a document -/

mutual

theorem Schema.eq_of_toDatum : ∀ a b : Schema, a.toDatum = b.toDatum → a = b
  | ⟨title, type, description, properties, default⟩,
    ⟨title', type', description', properties', default'⟩, h => by
      have members := eq_of_written (Datum.map.inj h) rfl (by simp)
      simp only [List.cons.injEq, Prod.mk.injEq, true_and, and_true] at members
      obtain ⟨titles, types, descriptions, tables, defaults⟩ := members
      have same := eq_of_unless (f := fun ps => .map (propertiesToData ps)) tables eq_of_isEmpty
        fun data => eq_of_propertiesToData properties properties' (Datum.map.inj data)
      rw [Option.map_injective text_injective titles, Option.map_injective text_injective types,
        Option.map_injective text_injective descriptions, same,
        Option.map_injective bool_injective defaults]

theorem eq_of_propertiesToData : ∀ ps qs : List (String × Schema),
    propertiesToData ps = propertiesToData qs → ps = qs
  | [], [], _ => rfl
  | (name, s) :: ps, (other, t) :: qs, h => by
      obtain ⟨first, others⟩ := List.cons.inj h
      obtain ⟨rfl, same⟩ := Prod.mk.inj first
      rw [Schema.eq_of_toDatum s t same, eq_of_propertiesToData ps qs others]

end

theorem Schema.toDatum_injective : Function.Injective Schema.toDatum := Schema.eq_of_toDatum

theorem Parameter.toDatum_injective : Function.Injective Parameter.toDatum := by
  intro a b h
  have members := eq_of_written (Datum.map.inj h) rfl (by simp)
  simp only [List.cons.injEq, Prod.mk.injEq, true_and, and_true, Option.some.injEq,
    Datum.text.injEq, Datum.bool.injEq] at members
  obtain ⟨name, location, description, required, schema⟩ := members
  have description := Option.map_injective text_injective description
  have schema := Schema.toDatum_injective schema
  cases a
  cases b
  simp_all only

theorem MediaType.toDatum_injective : Function.Injective MediaType.toDatum := by
  intro a b h
  obtain ⟨member, -⟩ := List.cons.inj (Datum.map.inj h)
  have schema := Schema.toDatum_injective (Prod.mk.inj member).2
  cases a
  cases b
  simp_all only

theorem Response.toDatum_injective : Function.Injective Response.toDatum := by
  intro a b h
  have members := Datum.map.inj h
  simp only [List.cons.injEq, Prod.mk.injEq, true_and, and_true, Datum.text.injEq] at members
  obtain ⟨description, content⟩ := members
  have content := writtenTable_injective MediaType.toDatum_injective content
  cases a
  cases b
  simp_all only

theorem Operation.toDatum_injective : Function.Injective Operation.toDatum := by
  intro a b h
  have members := eq_of_written (Datum.map.inj h) rfl (by simp)
  simp only [List.cons.injEq, Prod.mk.injEq, true_and, and_true, Option.some.injEq,
    Datum.text.injEq] at members
  obtain ⟨tags, summary, description, id, parameters, responses⟩ := members
  have tags := eq_of_list_map text_injective tags
  have summary := Option.map_injective text_injective summary
  have parameters := eq_of_unless (f := fun ps => .list (ps.map Parameter.toDatum)) parameters
    eq_of_isEmpty (eq_of_list_map Parameter.toDatum_injective)
  have responses := writtenTable_injective Response.toDatum_injective responses
  cases a
  cases b
  simp_all only

theorem PathItem.toDatum_injective : Function.Injective PathItem.toDatum := by
  intro a b h
  have members := eq_of_written (Datum.map.inj h) rfl (by simp)
  simp only [List.cons.injEq, Prod.mk.injEq, true_and, and_true] at members
  obtain ⟨get, put, post, delete, options, head, patch⟩ := members
  have faithful := Option.map_injective Operation.toDatum_injective
  refine PathItem.ext_operation fun v => ?_
  cases v with
  | get => exact faithful get
  | post => exact faithful post
  | put => exact faithful put
  | delete => exact faithful delete
  | options => exact faithful options
  | head => exact faithful head
  | patch => exact faithful patch

theorem Info.toDatum_injective : Function.Injective Info.toDatum := by
  intro a b h
  have members := eq_of_written (Datum.map.inj h) rfl (by simp)
  simp only [List.cons.injEq, Prod.mk.injEq, true_and, and_true, Option.some.injEq,
    Datum.text.injEq] at members
  obtain ⟨title, description, version⟩ := members
  have description := eq_of_unless description
    (fun ha hb => (String.isEmpty_iff.mp ha).trans (String.isEmpty_iff.mp hb).symm) Datum.text.inj
  cases a
  cases b
  simp_all only

theorem Tag.toDatum_injective : Function.Injective Tag.toDatum := by
  intro a b h
  have members := eq_of_written (Datum.map.inj h) rfl (by simp)
  simp only [List.cons.injEq, Prod.mk.injEq, true_and, and_true, Option.some.injEq,
    Datum.text.injEq] at members
  obtain ⟨name, description⟩ := members
  have description := Option.map_injective text_injective description
  cases a
  cases b
  simp_all only

theorem Document.toDatum_injective : Function.Injective Document.toDatum := by
  intro a b h
  have members := eq_of_written (Datum.map.inj h) rfl (by simp)
  simp only [List.cons.injEq, Prod.mk.injEq, true_and, and_true, Option.some.injEq,
    Datum.text.injEq, Datum.map.injEq] at members
  obtain ⟨openapi, info, paths, schemas, tags⟩ := members
  have info := Info.toDatum_injective info
  have paths := writtenTable_injective PathItem.toDatum_injective paths
  have schemas := writtenTable_injective Schema.toDatum_injective schemas
  have tags := eq_of_unless (f := fun ts => .list (ts.map Tag.toDatum)) tags eq_of_isEmpty
    (eq_of_list_map Tag.toDatum_injective)
  cases a
  cases b
  simp_all only

/-! ### Only words -/

theorem worded_written {ms : List (String × Option Datum)} (h : ∀ m ∈ ms, ∀ d ∈ m.2, d.Worded) :
    (Datum.map (written ms)).Worded := by
  refine .map fun m member => ?_
  obtain ⟨⟨name, value⟩, there, found⟩ := List.mem_filterMap.mp member
  obtain ⟨d, some, rfl⟩ := Option.map_eq_some_iff.mp found
  exact h _ there d some

theorem worded_writtenTable {α : Type} {f : α → Datum} (h : ∀ a, (f a).Worded) (t : Table α) :
    (writtenTable f t).Worded := by
  refine .map fun m member => ?_
  obtain ⟨entry, -, rfl⟩ := List.mem_map.mp member
  exact h entry.2

theorem worded_some {d : Datum} (h : d.Worded) : ∀ e ∈ some d, e.Worded := by
  rintro e ⟨⟩
  exact h

theorem worded_option {α : Type} {f : α → Datum} (h : ∀ a, (f a).Worded) (o : Option α) :
    ∀ d ∈ o.map f, d.Worded := by
  intro d member
  obtain ⟨a, -, rfl⟩ := Option.map_eq_some_iff.mp member
  exact h a

theorem worded_unless (empty : Bool) {d : Datum} (h : d.Worded) :
    ∀ e ∈ (if empty then none else some d), e.Worded := by
  cases empty
  · exact worded_some h
  · exact fun e none => nomatch none

mutual

theorem Schema.worded_toDatum : ∀ s : Schema, s.toDatum.Worded
  | ⟨title, type, description, properties, default⟩ => by
      refine worded_written ?_
      simp only [List.forall_mem_cons]
      exact ⟨worded_option .text title, worded_option .text type, worded_option .text description,
        worded_unless _ (.map (worded_properties properties)), worded_option .bool default, nofun⟩

theorem worded_properties : ∀ ps : List (String × Schema),
    ∀ m ∈ propertiesToData ps, m.2.Worded
  | [], _, member => nomatch member
  | (_, s) :: ps, m, member => by
      rcases List.mem_cons.mp member with rfl | member
      · exact s.worded_toDatum
      · exact worded_properties ps m member

end

theorem Parameter.worded_toDatum (p : Parameter) : p.toDatum.Worded := by
  refine worded_written ?_
  simp only [List.forall_mem_cons]
  exact ⟨worded_some (.text _), worded_some (.text _), worded_option .text _,
    worded_some (.bool _), worded_some p.schema.worded_toDatum, nofun⟩

theorem MediaType.worded_toDatum (m : MediaType) : m.toDatum.Worded := by
  refine .map ?_
  simp only [List.forall_mem_cons]
  exact ⟨m.schema.worded_toDatum, nofun⟩

theorem Response.worded_toDatum (r : Response) : r.toDatum.Worded := by
  refine .map ?_
  simp only [List.forall_mem_cons]
  exact ⟨.text _, worded_writtenTable MediaType.worded_toDatum r.content, nofun⟩

theorem Operation.worded_toDatum (o : Operation) : o.toDatum.Worded := by
  refine worded_written ?_
  simp only [List.forall_mem_cons]
  exact ⟨worded_some (Datum.worded_list_map .text _), worded_option .text _, worded_some (.text _),
    worded_some (.text _), worded_unless _ (Datum.worded_list_map Parameter.worded_toDatum _),
    worded_some (worded_writtenTable Response.worded_toDatum _), nofun⟩

theorem PathItem.worded_toDatum (item : PathItem) : item.toDatum.Worded := by
  have each := worded_option Operation.worded_toDatum
  refine worded_written ?_
  simp only [List.forall_mem_cons]
  exact ⟨each _, each _, each _, each _, each _, each _, each _, nofun⟩

theorem Info.worded_toDatum (i : Info) : i.toDatum.Worded := by
  refine worded_written ?_
  simp only [List.forall_mem_cons]
  exact ⟨worded_some (.text _), worded_unless _ (.text _), worded_some (.text _), nofun⟩

theorem Tag.worded_toDatum (t : Tag) : t.toDatum.Worded := by
  refine worded_written ?_
  simp only [List.forall_mem_cons]
  exact ⟨worded_some (.text _), worded_option .text _, nofun⟩

theorem Document.worded_toDatum (d : Document) : d.toDatum.Worded := by
  have components : (Datum.map [("schemas", writtenTable Schema.toDatum d.schemas)]).Worded := by
    refine .map ?_
    simp only [List.forall_mem_cons]
    exact ⟨worded_writtenTable Schema.worded_toDatum d.schemas, nofun⟩
  refine worded_written ?_
  simp only [List.forall_mem_cons]
  exact ⟨worded_some (.text _), worded_some d.info.worded_toDatum,
    worded_some (worded_writtenTable PathItem.worded_toDatum d.paths), worded_some components,
    worded_unless _ (Datum.worded_list_map Tag.worded_toDatum d.tags), nofun⟩

theorem floatFree_of_worded {d : Datum} (h : d.Worded) : d.floatFree = true := by
  induction h with
  | bool b => rfl
  | text s => rfl
  | list _ ih =>
      have items := Datum.floatFreeItems_map (f := id) ih
      rw [List.map_id] at items
      exact items
  | map _ ih => exact Datum.floatFreeMembers_of_mem ih

theorem Schema.floatFree_toDatum (s : Schema) : s.toDatum.floatFree = true :=
  floatFree_of_worded s.worded_toDatum

theorem Response.floatFree_toDatum (r : Response) : r.toDatum.floatFree = true :=
  floatFree_of_worded r.worded_toDatum

theorem Operation.floatFree_toDatum (o : Operation) : o.toDatum.floatFree = true :=
  floatFree_of_worded o.worded_toDatum

theorem PathItem.floatFree_toDatum (item : PathItem) : item.toDatum.floatFree = true :=
  floatFree_of_worded item.worded_toDatum

theorem Document.floatFree_toDatum (d : Document) : d.toDatum.floatFree = true :=
  floatFree_of_worded d.worded_toDatum

/-! ### The texts -/

theorem Schema.isEmpty_iff {s : Schema} : s.isEmpty = true ↔ s = {} := by
  obtain ⟨title, type, description, properties, default⟩ := s
  simp only [isEmpty, Bool.and_eq_true, Option.isNone_iff_eq_none, List.isEmpty_iff, mk.injEq,
    and_assoc]

/-- Nothing is lost in writing: documents, path items, operations, responses and schemas with the
same compact text are the same, down to the order of every list and table; and the empty schema is
the one whose text is an empty map. -/
theorem write_tells_apart :
    (∀ d e : Document, Json.write d.toDatum = Json.write e.toDatum ↔ d = e) ∧
    (∀ a b : PathItem, Json.write a.toDatum = Json.write b.toDatum ↔ a = b) ∧
    (∀ o p : Operation, Json.write o.toDatum = Json.write p.toDatum ↔ o = p) ∧
    (∀ r q : Response, Json.write r.toDatum = Json.write q.toDatum ↔ r = q) ∧
    (∀ s t : Schema, Json.write s.toDatum = Json.write t.toDatum ↔ s = t) ∧
    (∀ s : Schema, Json.write s.toDatum = "\x7b\x7d" ↔ s.isEmpty = true) := by
  have schemas := Json.write_eq_iff Schema.toDatum_injective Schema.floatFree_toDatum
  refine ⟨Json.write_eq_iff Document.toDatum_injective Document.floatFree_toDatum,
    Json.write_eq_iff PathItem.toDatum_injective PathItem.floatFree_toDatum,
    Json.write_eq_iff Operation.toDatum_injective Operation.floatFree_toDatum,
    Json.write_eq_iff Response.toDatum_injective Response.floatFree_toDatum, schemas, ?_⟩
  intro s
  have empty : Json.write ({} : Schema).toDatum = "\x7b\x7d" := rfl
  rw [← empty, schemas, Schema.isEmpty_iff]

end ServiceDoc.OpenApi
