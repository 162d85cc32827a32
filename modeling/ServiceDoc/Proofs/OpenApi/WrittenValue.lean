import ServiceDoc.Proofs.Json.Value
import ServiceDoc.Proofs.OpenApi.Faithful

/-! What the written forms of tables, lists and members stand for, and that they repeat no name when
the tables repeat none. Members are written under fixed names, so each of them can be told from the
value; what is left out when it is empty can be told too. -/
namespace ServiceDoc.OpenApi

variable {α : Type}

/-! ### Values -/

theorem get?_map_entries {β : Type} (f : α → β) (t : Table α) (name : String) :
    Table.get? (t.map fun (name, a) => (name, f a)) name = (t.get? name).map f := by
  induction t with
  | nil => rfl
  | cons entry rest ih =>
      obtain ⟨key, a⟩ := entry
      rw [List.map_cons, Table.get?_cons, Table.get?_cons, ih]
      split <;> rfl

theorem value_writtenTable_eq_iff {f : α → Datum} {t u : Table α} (ht : t.names.Nodup)
    (hu : u.names.Nodup) : (writtenTable f t).value = (writtenTable f u).value ↔
      Table.Rearranged (fun a b => (f a).value = (f b).value) t u := by
  rw [Table.rearranged_iff_get? ht hu (fun a => (f a).value), writtenTable, writtenTable,
    Datum.value_map, Datum.value_map, Json.Value.object.injEq, funext_iff]
  simp only [get?_map_entries, Option.map_map, Function.comp_def]

theorem value_list_eq_iff {f : α → Datum} {xs ys : List α} :
    (Datum.list (xs.map f)).value = (Datum.list (ys.map f)).value ↔
      List.Forall₂ (fun a b => (f a).value = (f b).value) xs ys := by
  rw [Datum.value_list, Datum.value_list, Json.Value.list.injEq, List.map_map, List.map_map,
    ← List.forall₂_eq_eq_eq, List.forall₂_map_left_iff, List.forall₂_map_right_iff]
  rfl

theorem get?_written_of_not_mem {name : String} {ms : List (String × Option Datum)}
    (missing : name ∉ ms.map Prod.fst) : Table.get? (written ms) name = none := by
  refine Table.get?_eq_none_iff.mpr fun member => missing ?_
  obtain ⟨⟨_, d⟩, entry, rfl⟩ := List.mem_map.mp member
  exact mem_names_of_written entry

theorem get?_written_cons {key : String} {ms : List (String × Option Datum)}
    (fresh : key ∉ ms.map Prod.fst) (x : Option Datum) (name : String) :
    Table.get? (written ((key, x) :: ms)) name =
      if name = key then x else Table.get? (written ms) name := by
  cases x with
  | some d => rw [written_some, Table.get?_cons]
  | none =>
      rw [written_none]
      split
      next same => rw [same, get?_written_of_not_mem fresh]
      next => rfl

/-- Members written under the same names make the same value when each of them makes the same value,
or is left out, on both sides. -/
theorem value_written_eq_iff {ms ns : List (String × Option Datum)}
    (names : ms.map Prod.fst = ns.map Prod.fst) (nodup : (ms.map Prod.fst).Nodup) :
    (Datum.map (written ms)).value = (Datum.map (written ns)).value ↔
      ms.map (fun m => m.2.map Datum.value) = ns.map (fun m => m.2.map Datum.value) := by
  rw [Datum.value_map, Datum.value_map, Json.Value.object.injEq, funext_iff]
  induction ms generalizing ns with
  | nil =>
      cases List.map_eq_nil_iff.mp names.symm
      exact iff_of_true (fun _ => rfl) rfl
  | cons m ms ih =>
      obtain ⟨key, x⟩ := m
      cases ns with
      | nil => cases names
      | cons n ns =>
          obtain ⟨other, y⟩ := n
          simp only [List.map_cons, List.cons.injEq] at names
          obtain ⟨rfl, names⟩ := names
          rw [List.map_cons] at nodup
          obtain ⟨fresh, distinct⟩ := List.nodup_cons.mp nodup
          have fresh' : key ∉ ns.map Prod.fst := names ▸ fresh
          simp only [get?_written_cons fresh, get?_written_cons fresh', List.map_cons,
            List.cons.injEq, ← ih names distinct]
          constructor
          · intro h
            refine ⟨by simpa only [if_true] using h key, fun name => ?_⟩
            by_cases same : name = key
            · rw [same, get?_written_of_not_mem fresh, get?_written_of_not_mem fresh']
            · simpa only [same, if_false] using h name
          · rintro ⟨first, others⟩ name
            split
            next => exact first
            next => exact others name

theorem value_option_eq_iff {f : α → Datum} (faithful : Function.Injective fun a => (f a).value)
    {o p : Option α} : (o.map f).map Datum.value = (p.map f).map Datum.value ↔ o = p := by
  rw [Option.map_map, Option.map_map]
  exact (Option.map_injective faithful).eq_iff

/-- What is left out when it is empty, provided that the written forms show what is empty. -/
theorem value_unless_eq_iff {a b : Bool} {d e : Datum} (shown : d.value = e.value → a = b)
    (empty : a = true → b = true → d.value = e.value) :
    (if a then none else some d).map Datum.value = (if b then none else some e).map Datum.value ↔
      d.value = e.value := by
  cases a <;> cases b
  · exact Option.some_inj
  · exact iff_of_false (fun h => nomatch h) (fun h => nomatch shown h)
  · exact iff_of_false (fun h => nomatch h) (fun h => nomatch shown h)
  · exact iff_of_true rfl (empty rfl rfl)

theorem value_slot_eq_iff {f : α → Datum} {o p : Option α} :
    (o.map f).map Datum.value = (p.map f).map Datum.value ↔
      Option.Rel (fun a b => (f a).value = (f b).value) o p := by
  cases o <;> cases p <;> simp

theorem isEmpty_eq_of_length_eq {xs ys : List α} (h : xs.length = ys.length) :
    xs.isEmpty = ys.isEmpty := by
  rw [Bool.eq_iff_iff, List.isEmpty_iff_length_eq_zero, List.isEmpty_iff_length_eq_zero, h]

theorem value_text_injective : Function.Injective fun s => (Datum.text s).value :=
  fun _ _ => Json.Value.text.inj

theorem value_bool_injective : Function.Injective fun b => (Datum.bool b).value :=
  fun _ _ => Json.Value.bool.inj

theorem value_texts_eq_iff {xs ys : List String} :
    (Datum.list (xs.map .text)).value = (Datum.list (ys.map .text)).value ↔ xs = ys := by
  rw [value_list_eq_iff]
  simp only [value_text_injective.eq_iff, List.forall₂_eq_eq_eq]

/-! ### Names -/

theorem names_written_sublist (ms : List (String × Option Datum)) :
    (Table.names (written ms)).Sublist (ms.map Prod.fst) := by
  induction ms with
  | nil => exact .slnil
  | cons m ms ih =>
      obtain ⟨key, x⟩ := m
      cases x with
      | none => exact ih.cons key
      | some d => exact ih.cons_cons key

theorem distinct_written {ms : List (String × Option Datum)} (nodup : (ms.map Prod.fst).Nodup)
    (h : ∀ m ∈ ms, ∀ d ∈ m.2, d.Distinct) : (Datum.map (written ms)).Distinct := by
  refine .map (nodup.sublist (names_written_sublist ms)) ?_
  intro m member
  obtain ⟨⟨name, value⟩, there, found⟩ := List.mem_filterMap.mp member
  obtain ⟨d, some, rfl⟩ := Option.map_eq_some_iff.mp found
  exact h _ there d some

theorem distinct_writtenTable {f : α → Datum} {t : Table α} (nodup : t.names.Nodup)
    (h : ∀ entry ∈ t, (f entry.2).Distinct) : (writtenTable f t).Distinct := by
  refine .map ?_ ?_
  · have names : Table.names (t.map fun (name, a) => (name, f a)) = t.names := List.map_map
    rwa [names]
  · intro m member
    obtain ⟨entry, there, rfl⟩ := List.mem_map.mp member
    exact h entry there

theorem distinct_list_map {f : α → Datum} {xs : List α} (h : ∀ a ∈ xs, (f a).Distinct) :
    (Datum.list (xs.map f)).Distinct :=
  .list (List.forall_mem_map.mpr h)

theorem distinct_option {f : α → Datum} {o : Option α} (h : ∀ a ∈ o, (f a).Distinct) :
    ∀ d ∈ o.map f, d.Distinct := by
  intro d member
  obtain ⟨a, there, rfl⟩ := Option.map_eq_some_iff.mp member
  exact h a there

theorem distinct_some {d : Datum} (h : d.Distinct) : ∀ e ∈ some d, e.Distinct := by
  rintro e ⟨⟩
  exact h

theorem distinct_unless (empty : Bool) {d : Datum} (h : d.Distinct) :
    ∀ e ∈ (if empty then none else some d), e.Distinct := by
  cases empty
  · exact distinct_some h
  · exact fun e none => nomatch none

end ServiceDoc.OpenApi
