import ServiceDoc.Datum

/-! Data without numbers and without nulls: what documents are made of. -/
namespace ServiceDoc.Datum

inductive Worded : Datum → Prop where
  | bool (b : Bool) : Worded (.bool b)
  | text (s : String) : Worded (.text s)
  | list {items : List Datum} (all : ∀ d ∈ items, d.Worded) : Worded (.list items)
  | map {members : List (String × Datum)} (all : ∀ m ∈ members, m.2.Worded) : Worded (.map members)

theorem Worded.item {items : List Datum} (h : (Datum.list items).Worded) : ∀ d ∈ items, d.Worded := by
  cases h with
  | list all => exact all

theorem Worded.member {members : List (String × Datum)} (h : (Datum.map members).Worded) :
    ∀ m ∈ members, m.2.Worded := by
  cases h with
  | map all => exact all

theorem worded_list_map {α : Type} {f : α → Datum} (h : ∀ a, (f a).Worded) (xs : List α) :
    (list (xs.map f)).Worded := by
  refine .list fun d member => ?_
  obtain ⟨a, -, rfl⟩ := List.mem_map.mp member
  exact h a

end ServiceDoc.Datum
