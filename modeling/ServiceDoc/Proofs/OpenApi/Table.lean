import ServiceDoc.OpenApi.Table
import ServiceDoc.Proofs.OpenApi.StableSort
import Mathlib.Data.List.Nodup

/-! Tables through lookups. Writing to a name changes the lookup of that name alone and keeps the
names as they are or puts the new one last; sorting changes no lookup as long as names do not
repeat. -/
namespace ServiceDoc.OpenApi.Table

variable {α : Type}

@[simp] theorem get?_nil (name : String) : get? ([] : Table α) name = none := rfl

theorem get?_cons (key : String) (value : α) (rest : Table α) (name : String) :
    get? ((key, value) :: rest) name = if name = key then some value else get? rest name := by
  unfold get?
  by_cases h : name = key
  · subst h
    simp
  · simp only [List.lookup_cons, h, if_false, beq_eq_false_iff_ne.mpr h]

@[simp] theorem names_nil : names ([] : Table α) = [] := rfl

@[simp] theorem names_cons (key : String) (value : α) (rest : Table α) :
    names ((key, value) :: rest) = key :: names rest := rfl

theorem get?_insert (t : Table α) (name : String) (value : α) (other : String) :
    (t.insert name value).get? other = if other = name then some value else t.get? other := by
  induction t with
  | nil => simp only [insert, get?_cons]
  | cons entry rest ih =>
      obtain ⟨key, old⟩ := entry
      by_cases same : key = name
      · subst same
        simp only [insert, if_true, get?_cons]
        split <;> rfl
      · simp only [insert, same, if_false, get?_cons, ih]
        by_cases h : other = key
        · subst h
          simp only [if_true, same, if_false]
        · simp only [h, if_false]

theorem names_insert_of_mem {t : Table α} {name : String} (h : name ∈ t.names) (value : α) :
    (t.insert name value).names = t.names := by
  induction t with
  | nil => cases h
  | cons entry rest ih =>
      obtain ⟨key, old⟩ := entry
      by_cases same : key = name
      · simp only [insert, same, if_true, names_cons]
      · have later : name ∈ names rest := by
          rcases List.mem_cons.mp h with first | later
          · exact absurd first.symm same
          · exact later
        simp only [insert, same, if_false, names_cons, ih later]

theorem names_insert_of_not_mem {t : Table α} {name : String} (h : name ∉ t.names) (value : α) :
    (t.insert name value).names = t.names ++ [name] := by
  induction t with
  | nil => rfl
  | cons entry rest ih =>
      obtain ⟨key, old⟩ := entry
      obtain ⟨first, later⟩ := not_or.mp (mt List.mem_cons.mpr h)
      simp only [insert, Ne.symm first, if_false, names_cons, ih later, List.cons_append]

theorem mem_names_insert (t : Table α) (name : String) (value : α) (other : String) :
    other ∈ (t.insert name value).names ↔ other = name ∨ other ∈ t.names := by
  by_cases h : name ∈ t.names
  · rw [names_insert_of_mem h]
    constructor
    · exact Or.inr
    · rintro (rfl | later)
      · exact h
      · exact later
  · rw [names_insert_of_not_mem h, List.mem_append, List.mem_singleton]
    exact or_comm

theorem nodup_names_insert {t : Table α} (h : t.names.Nodup) (name : String) (value : α) :
    (t.insert name value).names.Nodup := by
  by_cases old : name ∈ t.names
  · rwa [names_insert_of_mem old]
  · rw [names_insert_of_not_mem old]
    exact List.nodup_append_comm.mp (List.nodup_cons.mpr ⟨old, h⟩)

theorem mem_of_get? {t : Table α} {name : String} {value : α} (h : t.get? name = some value) :
    (name, value) ∈ t := by
  induction t with
  | nil => cases h
  | cons entry rest ih =>
      obtain ⟨key, first⟩ := entry
      rw [get?_cons] at h
      split at h
      next same =>
        cases h
        subst same
        exact List.mem_cons_self
      next => exact List.mem_cons_of_mem _ (ih h)

theorem get?_eq_none_iff {t : Table α} {name : String} : t.get? name = none ↔ name ∉ t.names := by
  induction t with
  | nil => simp
  | cons entry rest ih =>
      obtain ⟨key, value⟩ := entry
      rw [get?_cons, names_cons, List.mem_cons]
      by_cases h : name = key
      · simp only [h, if_true, reduceCtorEq, true_or, not_true]
      · simp only [h, if_false, false_or, ih]

theorem exists_get? {t : Table α} {name : String} (h : name ∈ t.names) :
    ∃ value, t.get? name = some value := by
  cases found : t.get? name with
  | none => exact absurd h (get?_eq_none_iff.mp found)
  | some value => exact ⟨value, rfl⟩

/-- Without repetitions an entry is what its name is looked up as. -/
theorem get?_of_mem {t : Table α} (nodup : t.names.Nodup) {name : String} {value : α}
    (h : (name, value) ∈ t) : t.get? name = some value := by
  induction t with
  | nil => cases h
  | cons entry rest ih =>
      obtain ⟨key, first⟩ := entry
      obtain ⟨fresh, nodup⟩ := List.nodup_cons.mp nodup
      rw [get?_cons]
      rcases List.mem_cons.mp h with same | later
      · cases same
        exact if_pos rfl
      · have present : name ∈ names rest := List.mem_map.mpr ⟨(name, value), later, rfl⟩
        have differs : name ≠ key := fun same => fresh (same ▸ present)
        rw [if_neg differs]
        exact ih nodup later

theorem sorted_perm (t : Table α) : t.sorted.Perm t := List.mergeSort_perm _ _

theorem mem_names_sorted (t : Table α) (name : String) :
    name ∈ t.sorted.names ↔ name ∈ t.names := (t.sorted_perm.map Prod.fst).mem_iff

theorem nodup_names_sorted {t : Table α} (h : t.names.Nodup) : t.sorted.names.Nodup :=
  (t.sorted_perm.map Prod.fst).nodup_iff.mpr h

theorem get?_sorted {t : Table α} (nodup : t.names.Nodup) (name : String) :
    t.sorted.get? name = t.get? name := by
  cases h : t.get? name with
  | none => exact get?_eq_none_iff.mpr (mt (mem_names_sorted t name).mp (get?_eq_none_iff.mp h))
  | some value =>
      exact get?_of_mem (nodup_names_sorted nodup) (t.sorted_perm.mem_iff.mpr (mem_of_get? h))

theorem names_sorted_le (t : Table α) : t.sorted.names.Pairwise (· ≤ ·) :=
  List.pairwise_map.mpr (stablySorted_mergeSort Prod.fst t).ordered

/-- Names that do not repeat are strictly increasing once they are sorted. -/
theorem names_sorted_lt {t : Table α} (nodup : t.names.Nodup) :
    t.sorted.names.Pairwise (· < ·) := by
  refine (names_sorted_le t).imp₂ ?_ (nodup_names_sorted nodup)
  intro a b le ne
  exact String.not_le.mp fun ge => ne (String.le_antisymm le ge)

theorem nodup_names_of_lt {t : Table α} (h : t.names.Pairwise (· < ·)) : t.names.Nodup := by
  refine h.imp ?_
  rintro a b lt rfl
  exact String.lt_irrefl a lt

theorem eq_of_perm {t u : Table α} (ht : t.names.Pairwise (· < ·))
    (hu : u.names.Pairwise (· < ·)) (perm : t.Perm u) : t = u := by
  refine perm.eq_of_pairwise ?_ (List.pairwise_map.mp ht) (List.pairwise_map.mp hu)
  intro a b _ _ lt gt
  exact absurd (String.lt_trans lt gt) (String.lt_irrefl _)

/-- Tables with increasing names are equal when their lookups are. -/
theorem eq_of_get? {t u : Table α} (ht : t.names.Pairwise (· < ·))
    (hu : u.names.Pairwise (· < ·)) (same : ∀ name, t.get? name = u.get? name) : t = u := by
  have nodup := nodup_names_of_lt ht
  have nodup' := nodup_names_of_lt hu
  have perm : t.Perm u := by
    refine (List.perm_ext_iff_of_nodup nodup.of_map nodup'.of_map).mpr ?_
    rintro ⟨name, value⟩
    constructor
    · intro mem
      exact mem_of_get? ((same name).symm.trans (get?_of_mem nodup mem))
    · intro mem
      exact mem_of_get? ((same name).trans (get?_of_mem nodup' mem))
  exact eq_of_perm ht hu perm

end ServiceDoc.OpenApi.Table
