import ServiceDoc.Idl.Wire
import ServiceDoc.Proofs.Json.Decoding

/-! The wire catalogue, member by member. Its fallbacks may stand for their members, and never need
more levels than a reader has room for; what a member holds is an encoded value of its kind. -/
namespace ServiceDoc.Idl
namespace Wire
open Json (Shape Member Catalogue)

/-- How many levels a record needs for what stands in for absent members. Constants and types are
nested without end, and need none: their members are absent as null. -/
def levels : Part → Nat
  | .request => 9
  | .interface => 8
  | .service => 6
  | .struct | .function => 4
  | .field | .note => 2
  | .namespaceDecl | .type | .constant | .literal | .entry => 0

theorem coherent : catalogue.Coherent levels where
  distinct p := by cases p <;> decide
  fallback p := by
    cases p <;>
      simp [catalogue, members, text, flag, listOf, partIfAny, ifAny, requiredness, noType,
        noInterface, Catalogue.Stands, Catalogue.Fits, Catalogue.FitsMembers, Catalogue.FitsItems,
        Decimal.twoTo]
  shallow p := by cases p <;> decide
  roomy p := by
    cases p <;>
      simp [catalogue, members, levels, text, flag, listOf, partIfAny, ifAny, requiredness,
        Shape.Roomy]

theorem roomy (p : Part) : (Shape.record p).Roomy levels Catalogue.depthLimit := by
  change levels p ≤ Catalogue.depthLimit
  cases p <;> decide

/-! ### What fits a record, member by member -/

theorem members_of_fits {p : Part} {d : Datum} (h : catalogue.Fits (.record p) d) :
    ∃ pairs, d = .map pairs ∧ catalogue.FitsMembers (members p) pairs := by
  cases d with
  | map pairs => exact ⟨pairs, rfl, h⟩
  | _ => cases h

theorem first_of_fits {m : Member Part} {ms : List (Member Part)} {pairs : List (String × Datum)}
    (h : catalogue.FitsMembers (m :: ms) pairs) :
    ∃ d rest, pairs = (m.name, d) :: rest ∧ catalogue.Stands m d ∧
      catalogue.FitsMembers ms rest := by
  cases pairs with
  | nil => cases h
  | cons pair rest =>
      obtain ⟨name, d⟩ := pair
      obtain ⟨rfl, stands, later⟩ := h
      exact ⟨d, rest, rfl, stands, later⟩

theorem nil_of_fits {pairs : List (String × Datum)} (h : catalogue.FitsMembers [] pairs) :
    pairs = [] := by
  cases pairs with
  | nil => rfl
  | cons => cases h

/-- Only null fallbacks let a member hold something that does not fit. -/
theorem fits_of_stands {m : Member Part} {d : Datum} (h : catalogue.Stands m d)
    (given : m.fallback ≠ .null) : catalogue.Fits m.shape d := by
  rcases h with ⟨-, fallback, -⟩ | fits
  · exact absurd fallback given
  · exact fits

theorem exists_text_of_fits {d : Datum} (h : catalogue.Fits .text d) : ∃ s, .text s = d := by
  cases d with
  | text s => exact ⟨s, rfl⟩
  | _ => cases h

theorem exists_bool_of_fits {d : Datum} (h : catalogue.Fits .bool d) : ∃ b, .bool b = d := by
  cases d with
  | bool b => exact ⟨b, rfl⟩
  | _ => cases h

theorem exists_float_of_fits {d : Datum} (h : catalogue.Fits .float d) : ∃ x, .float x = d := by
  cases d with
  | float x => exact ⟨x, rfl⟩
  | _ => cases h

theorem exists_int32_of_fits {d : Datum} (h : catalogue.Fits .int32 d) :
    ∃ n : Int32, .int n.toInt = d := by
  cases d with
  | int n => exact ⟨.ofInt n, congrArg Datum.int (Int32.toInt_ofInt_of_le h.1 h.2)⟩
  | _ => cases h

theorem exists_int64_of_fits {d : Datum} (h : catalogue.Fits .int64 d) :
    ∃ n : Int64, .int n.toInt = d := by
  cases d with
  | int n => exact ⟨.ofInt n, congrArg Datum.int (Int64.toInt_ofInt_of_le h.1 h.2)⟩
  | _ => cases h

theorem first_text {name : String} {ms : List (Member Part)} {pairs : List (String × Datum)}
    (h : catalogue.FitsMembers (text name :: ms) pairs) :
    ∃ s rest, pairs = (name, .text s) :: rest ∧ catalogue.FitsMembers ms rest := by
  obtain ⟨_, rest, rfl, stands, later⟩ := first_of_fits h
  obtain ⟨s, rfl⟩ := exists_text_of_fits (fits_of_stands stands nofun)
  exact ⟨s, rest, rfl, later⟩

theorem first_flag {name : String} {ms : List (Member Part)} {pairs : List (String × Datum)}
    (h : catalogue.FitsMembers (flag name :: ms) pairs) :
    ∃ b rest, pairs = (name, .bool b) :: rest ∧ catalogue.FitsMembers ms rest := by
  obtain ⟨_, rest, rfl, stands, later⟩ := first_of_fits h
  obtain ⟨b, rfl⟩ := exists_bool_of_fits (fits_of_stands stands nofun)
  exact ⟨b, rest, rfl, later⟩

theorem items_of_fits {item : Shape Part} {d : Datum} (h : catalogue.Fits (.list item) d) :
    ∃ ds, d = .list ds ∧ catalogue.FitsItems item ds := by
  cases d with
  | list ds => exact ⟨ds, rfl, h⟩
  | _ => cases h

section Items
variable {α : Type} {f : α → Datum} {item : Shape Part}

theorem fitsItems_map {xs : List α} (h : ∀ x ∈ xs, catalogue.Fits item (f x)) :
    catalogue.FitsItems item (xs.map f) := by
  induction xs with
  | nil => trivial
  | cons x xs ih =>
      have later := ih fun other member => h other (List.mem_cons_of_mem _ member)
      exact ⟨h x List.mem_cons_self, later⟩

theorem exists_map_of_fitsItems {ds : List Datum}
    (h : ∀ d ∈ ds, catalogue.Fits item d → ∃ x, f x = d) (fits : catalogue.FitsItems item ds) :
    ∃ xs : List α, xs.map f = ds := by
  induction ds with
  | nil => exact ⟨[], rfl⟩
  | cons d ds ih =>
      obtain ⟨x, rfl⟩ := h d List.mem_cons_self fits.1
      obtain ⟨xs, rfl⟩ := ih (fun other member => h other (List.mem_cons_of_mem _ member)) fits.2
      exact ⟨x :: xs, rfl⟩

theorem exists_list_of_fits {d : Datum}
    (h : ∀ inner, inner.depth < d.depth → catalogue.Fits item inner → ∃ x, f x = inner)
    (fits : catalogue.Fits (.list item) d) : ∃ xs : List α, .list (xs.map f) = d := by
  obtain ⟨ds, rfl, items⟩ := items_of_fits fits
  obtain ⟨xs, rfl⟩ := exists_map_of_fitsItems
    (fun inner member => h inner (Nat.lt_succ_of_le (Datum.depth_le_of_mem member))) items
  exact ⟨xs, rfl⟩

theorem map_map_eq {g : Datum → α} {xs : List α}
    (h : ∀ x ∈ xs, g (f x) = x) : (xs.map f).map g = xs := by
  rw [List.map_map]
  exact (List.map_congr_left h).trans (List.map_id xs)

theorem stands_ofOption {m : Member Part} {o : Option α} (nullable : m.nullable = true)
    (fallback : m.fallback = .null) (h : ∀ x ∈ o, catalogue.Fits m.shape (f x)) :
    catalogue.Stands m (.ofOption f o) := by
  cases o with
  | none => exact .inl ⟨nullable, fallback, rfl⟩
  | some x => exact .inr (h x rfl)

theorem exists_ofOption_of_stands {m : Member Part} {d : Datum}
    (h : catalogue.Fits m.shape d → ∃ x, f x = d) (stands : catalogue.Stands m d) :
    ∃ o, Datum.ofOption f o = d := by
  rcases stands with ⟨-, -, rfl⟩ | fits
  · exact ⟨none, rfl⟩
  · obtain ⟨x, rfl⟩ := h fits
    exact ⟨some x, rfl⟩

theorem floatFree_ofOption {o : Option α} (h : ∀ x ∈ o, (f x).floatFree = true) :
    (Datum.ofOption f o).floatFree = true := by
  cases o with
  | none => rfl
  | some x => exact h x rfl

end Items

end Wire
end ServiceDoc.Idl
