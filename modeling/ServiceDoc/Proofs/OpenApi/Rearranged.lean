import ServiceDoc.OpenApi.Operation
import ServiceDoc.Proofs.OpenApi.Table
import Mathlib.Data.List.Perm.Subperm

/-! Tables that differ in the order of their entries. With names that do not repeat, such tables are
those with related lookups, and they are what the comparison of tables accepts; lists it compares
place by place. -/
namespace ServiceDoc.OpenApi

variable {α β : Type}

namespace Table

/-- The same names in any order, with related entries under each of them. -/
structure Rearranged (R : α → α → Prop) (t u : Table α) : Prop where
  names : t.names.Perm u.names
  values : ∀ name a b, (name, a) ∈ t → (name, b) ∈ u → R a b

theorem mem_names {t : Table α} {name : String} {a : α} (h : (name, a) ∈ t) : name ∈ t.names :=
  List.mem_map_of_mem h

theorem Rearranged.length_eq {R : α → α → Prop} {t u : Table α} (h : Rearranged R t u) :
    t.length = u.length := by
  simpa only [Table.names, List.length_map] using h.names.length_eq

theorem mem_names_iff_of_get? {g : α → β} {t u : Table α}
    (same : ∀ name, (t.get? name).map g = (u.get? name).map g) (name : String) :
    name ∈ t.names ↔ name ∈ u.names := by
  rw [← not_iff_not, ← get?_eq_none_iff, ← get?_eq_none_iff, ← Option.map_eq_none_iff (f := g),
    same name, Option.map_eq_none_iff]

/-- The order of entries is what lookups do not show. -/
theorem rearranged_iff_get? {t u : Table α} (ht : t.names.Nodup) (hu : u.names.Nodup) (g : α → β) :
    Rearranged (fun a b => g a = g b) t u ↔ ∀ name, (t.get? name).map g = (u.get? name).map g := by
  constructor
  · intro h name
    cases found : t.get? name with
    | none =>
        have missing := mt h.names.mem_iff.mpr (get?_eq_none_iff.mp found)
        rw [get?_eq_none_iff.mpr missing]
    | some a =>
        have left := mem_of_get? found
        obtain ⟨b, there⟩ := exists_get? (h.names.mem_iff.mp (mem_names left))
        have related : g a = g b := h.values name a b left (mem_of_get? there)
        rw [there, Option.map_some, Option.map_some, related]
  · intro same
    refine ⟨(List.perm_ext_iff_of_nodup ht hu).mpr (mem_names_iff_of_get? same), ?_⟩
    intro name a b left right
    have lookups := same name
    rw [get?_of_mem ht left, get?_of_mem hu right] at lookups
    exact Option.some.inj lookups

end Table

/-! ### Comparison -/

theorem sameTable_eq_true {same : α → α → Bool} {t u : Table α} :
    sameTable same t u = true ↔ t.length = u.length ∧
      ∀ name a, (name, a) ∈ t → ∃ b, u.get? name = some b ∧ same a b = true := by
  rw [sameTable, Bool.and_eq_true, beq_iff_eq, List.all_eq_true]
  refine and_congr_right fun _ => ?_
  constructor
  · intro h name a member
    have found := h (name, a) member
    simp only at found
    split at found
    next b there => exact ⟨b, there, found⟩
    next => cases found
  · rintro h ⟨name, a⟩ member
    obtain ⟨b, there, accepted⟩ := h name a member
    unfold Table.get? at there
    simp only [there, accepted]

/-- As many names, and each of the one table in the other, make the names the same. -/
theorem sameTable_iff {same : α → α → Bool} {t u : Table α} (ht : t.names.Nodup)
    (hu : u.names.Nodup) :
    sameTable same t u = true ↔ Table.Rearranged (fun a b => same a b = true) t u := by
  rw [sameTable_eq_true]
  constructor
  · rintro ⟨length, found⟩
    have inside : t.names ⊆ u.names := by
      intro name member
      obtain ⟨⟨_, a⟩, entry, rfl⟩ := List.mem_map.mp member
      obtain ⟨b, there, -⟩ := found _ a entry
      exact Table.mem_names (Table.mem_of_get? there)
    have lengths : u.names.length = t.names.length := by
      rw [Table.names, Table.names, List.length_map, List.length_map, length]
    refine ⟨(List.subperm_of_subset ht inside).perm_of_length_le (Nat.le_of_eq lengths), ?_⟩
    intro name a b left right
    obtain ⟨c, there, accepted⟩ := found name a left
    rw [Table.get?_of_mem hu right] at there
    cases there
    exact accepted
  · intro h
    refine ⟨h.length_eq, ?_⟩
    intro name a member
    obtain ⟨b, there⟩ := Table.exists_get? (h.names.mem_iff.mp (Table.mem_names member))
    exact ⟨b, there, h.values name a b member (Table.mem_of_get? there)⟩

theorem sameTable_iff_of {same : α → α → Bool} {R : α → α → Prop} {t u : Table α}
    (ht : t.names.Nodup) (hu : u.names.Nodup)
    (agree : ∀ a ∈ t, ∀ b ∈ u, (same a.2 b.2 = true ↔ R a.2 b.2)) :
    sameTable same t u = true ↔ Table.Rearranged R t u := by
  rw [sameTable_iff ht hu]
  constructor
  · intro h
    exact ⟨h.names, fun name a b left right =>
      (agree _ left _ right).mp (h.values name a b left right)⟩
  · intro h
    exact ⟨h.names, fun name a b left right =>
      (agree _ left _ right).mpr (h.values name a b left right)⟩

theorem sameList_iff_of {same : α → α → Bool} {R : α → α → Prop} {xs ys : List α}
    (agree : ∀ a ∈ xs, ∀ b ∈ ys, (same a b = true ↔ R a b)) :
    sameList same xs ys = true ↔ List.Forall₂ R xs ys := by
  induction xs generalizing ys with
  | nil => cases ys <;> simp [sameList]
  | cons x xs ih =>
      cases ys with
      | nil => simp [sameList]
      | cons y ys =>
          obtain ⟨first, others⟩ := List.forall_mem_cons.mp agree
          have tail := ih fun a member b there => others a member b (List.mem_cons_of_mem _ there)
          rw [sameList, Bool.and_eq_true, List.forall₂_cons, first y List.mem_cons_self, tail]

end ServiceDoc.OpenApi
