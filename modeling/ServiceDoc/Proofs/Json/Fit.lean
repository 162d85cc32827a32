import ServiceDoc.Proofs.Json.Growth
import Mathlib.Data.List.Nodup

/-! Data that fit a shape are what decoding gives, and what it gives back when they are written:
every record has all of its members, in the catalogue's order. How deep they may be nested is what a
reader has room for. -/
namespace ServiceDoc

mutual

/-- How deep lists and maps are nested. -/
def Datum.depth : Datum → Nat
  | .list items => depthItems items + 1
  | .map members => depthMembers members + 1
  | _ => 0

def Datum.depthItems : List Datum → Nat
  | [] => 0
  | d :: ds => max d.depth (depthItems ds)

def Datum.depthMembers : List (String × Datum) → Nat
  | [] => 0
  | (_, d) :: rest => max d.depth (depthMembers rest)

end

theorem Datum.depth_le_of_mem {d : Datum} {ds : List Datum} (h : d ∈ ds) :
    d.depth ≤ Datum.depthItems ds := by
  induction ds with
  | nil => cases h
  | cons first ds ih =>
      rcases List.mem_cons.mp h with rfl | later
      · exact Nat.le_max_left _ _
      · exact Nat.le_trans (ih later) (Nat.le_max_right _ _)

namespace Json
namespace Catalogue
variable {ρ : Type}

mutual

def Fits (c : Catalogue ρ) : Shape ρ → Datum → Prop
  | .text, .text _ => True
  | .location, .text _ => True
  | .bool, .bool _ => True
  | .int32, .int n => -(Decimal.twoTo 31 : Int) ≤ n ∧ n < Decimal.twoTo 31
  | .int64, .int n => -(Decimal.twoTo 63 : Int) ≤ n ∧ n < Decimal.twoTo 63
  | .float, .float _ => True
  | .code _ bound, .int n => 0 ≤ n ∧ n < bound ∧ n < Decimal.twoTo 31
  | .list item, .list ds => FitsItems c item ds
  | .record r, .map ms => FitsMembers c (c.members r) ms
  | _, _ => False

def FitsItems (c : Catalogue ρ) (item : Shape ρ) : List Datum → Prop
  | [] => True
  | d :: ds => Fits c item d ∧ FitsItems c item ds

/-- A member that may be absent is null, or fits its shape. -/
def FitsMembers (c : Catalogue ρ) : List (Member ρ) → List (String × Datum) → Prop
  | [], [] => True
  | m :: ms, (name, d) :: rest =>
    name = m.name ∧ (m.nullable = true ∧ m.fallback = .null ∧ d = .null ∨ Fits c m.shape d) ∧
      FitsMembers c ms rest
  | _, _ => False

end

/-- What a member of a record may hold. -/
def Stands (c : Catalogue ρ) (m : Member ρ) (d : Datum) : Prop :=
  m.nullable = true ∧ m.fallback = .null ∧ d = .null ∨ c.Fits m.shape d

end Catalogue

/-- Whether `room` levels hold what stands in for absent members, given what each record needs. -/
def Shape.Roomy (levels : ρ → Nat) (room : Nat) : Shape ρ → Prop
  | .list item => Roomy levels (room - 1) item
  | .record r => levels r ≤ room
  | _ => True

theorem Shape.Roomy.mono {levels : ρ → Nat} {shape : Shape ρ} {low high : Nat}
    (h : shape.Roomy levels low) (le : low ≤ high) : shape.Roomy levels high := by
  induction shape generalizing low high with
  | list item ih => exact ih h (Nat.sub_le_sub_right le 1)
  | record r => exact Nat.le_trans h le
  | _ => trivial

/-- The members of a record have names of their own and fallbacks that may stand for them. -/
structure Catalogue.Coherent (c : Catalogue ρ) (levels : ρ → Nat) : Prop where
  distinct : ∀ r, ((c.members r).map Member.name).Nodup
  fallback : ∀ r, ∀ m ∈ c.members r, c.Stands m m.fallback
  shallow : ∀ r, ∀ m ∈ c.members r, m.fallback.depth ≤ levels r - 1
  roomy : ∀ r, ∀ m ∈ c.members r, m.shape.Roomy levels (levels r - 1)

namespace Catalogue
variable {ρ : Type} {c : Catalogue ρ} {levels : ρ → Nat}

theorem find?_of_mem {ms : List (Member ρ)} (distinct : (ms.map Member.name).Nodup) {m : Member ρ}
    (h : m ∈ ms) : (ms.find? fun other => other.name == m.name) = some m := by
  induction ms with
  | nil => cases h
  | cons first ms ih =>
      rw [List.map_cons, List.nodup_cons] at distinct
      rcases List.mem_cons.mp h with rfl | later
      · exact List.find?_cons_of_pos (beq_self_eq_true _)
      · have other : first.name ≠ m.name := by
          intro same
          exact distinct.1 (same ▸ List.mem_map_of_mem later)
        rw [List.find?_cons_of_neg]
        · exact ih distinct.2 later
        · simpa only [beq_iff_eq] using other

theorem mem_of_member? {r : ρ} {name : String} {m : Member ρ} (h : c.member? r name = some m) :
    m ∈ c.members r ∧ m.name = name := by
  have found := List.find?_some h
  exact ⟨List.mem_of_find?_eq_some h, beq_iff_eq.mp found⟩

theorem Coherent.member?_eq (coherent : c.Coherent levels) {r : ρ} {m : Member ρ}
    (h : m ∈ c.members r) : c.member? r m.name = some m :=
  find?_of_mem (coherent.distinct r) h

/-- What a record has room for, its members have. -/
theorem Coherent.room_of_mem (coherent : c.Coherent levels) {r : ρ} {room : Nat}
    (roomy : levels r ≤ room + 1) {m : Member ρ} (h : m ∈ c.members r) :
    m.fallback.depth ≤ room ∧ m.shape.Roomy levels room := by
  have less : levels r - 1 ≤ room := Nat.sub_le_of_le_add roomy
  exact ⟨Nat.le_trans (coherent.shallow r m h) less, (coherent.roomy r m h).mono less⟩

/-! ### Decoding what was written -/

theorem names_of_fitsMembers {ms : List (Member ρ)} {pairs : List (String × Datum)}
    (h : c.FitsMembers ms pairs) : pairs.map Prod.fst = ms.map Member.name := by
  induction ms generalizing pairs with
  | nil =>
      cases pairs with
      | nil => rfl
      | cons => cases h
  | cons m ms ih =>
      cases pairs with
      | nil => cases h
      | cons pair pairs =>
          obtain ⟨name, -, later⟩ := h
          rw [List.map_cons, List.map_cons, ih later, name]

theorem lookup_of_mem {pairs : List (String × Datum)} (distinct : (pairs.map Prod.fst).Nodup)
    {name : String} {d : Datum} (h : (name, d) ∈ pairs) : pairs.lookup name = some d := by
  induction pairs with
  | nil => cases h
  | cons pair pairs ih =>
      rw [List.map_cons, List.nodup_cons] at distinct
      rcases List.mem_cons.mp h with rfl | later
      · exact List.lookup_cons_self
      · have other : name ≠ pair.1 := by
          intro same
          exact distinct.1 (same ▸ List.mem_map_of_mem later)
        rw [List.lookup_cons, beq_false_of_ne other]
        exact ih distinct.2 later

/-- A record that was found whole is complete as it is. -/
theorem complete_reverse {ms : List (Member ρ)} {pairs : List (String × Datum)}
    (names : pairs.map Prod.fst = ms.map Member.name) (distinct : (ms.map Member.name).Nodup) :
    Found.complete ms pairs.reverse = .map pairs := by
  have found : ∀ pair ∈ pairs, pairs.reverse.lookup pair.1 = some pair.2 := by
    intro pair member
    apply lookup_of_mem
    · rw [List.map_reverse, List.nodup_reverse, names]
      exact distinct
    · exact List.mem_reverse.mpr member
  unfold Found.complete
  refine congrArg Datum.map ?_
  generalize pairs.reverse = all at found
  clear distinct
  induction ms generalizing pairs with
  | nil => exact (List.map_eq_nil_iff.mp names).symm
  | cons m ms ih =>
      cases pairs with
      | nil => cases names
      | cons pair pairs =>
          obtain ⟨name, later⟩ := List.cons.inj names
          have here := found pair List.mem_cons_self
          rw [List.map_cons, ih later fun p h => found p (List.mem_cons_of_mem _ h), ← name, here]
          rfl

theorem isNull_written {d : Datum} {shape : Shape ρ} (fits : c.Fits shape d)
    (free : d.floatFree = true) : (Tree.written d).isNull = false := by
  cases d with
  | null => cases shape <;> cases fits
  | float x => cases free
  | bool b => rfl
  | int n => rfl
  | text s => rfl
  | list items => rfl
  | map members => rfl

/-! ### What is found of a record -/

/-- Every value that was found stands for the member of its name. -/
def FoundFits (c : Catalogue ρ) (r : ρ) (room : Nat) (found : Found) : Prop :=
  ∀ name d, (name, d) ∈ found → ∀ m, c.member? r name = some m → c.Stands m d ∧ d.depth ≤ room

theorem FoundFits.nil (r : ρ) (room : Nat) : c.FoundFits r room [] := by
  intro name d member
  cases member

theorem FoundFits.cons {r : ρ} {room : Nat} {found : Found} {m : Member ρ} {d : Datum}
    (known : c.member? r m.name = some m) (stands : c.Stands m d) (shallow : d.depth ≤ room)
    (rest : c.FoundFits r room found) : c.FoundFits r room ((m.name, d) :: found) := by
  intro name value member m' named
  rcases List.mem_cons.mp member with here | later
  · cases here
    cases Option.some.inj (known.symm.trans named)
    exact ⟨stands, shallow⟩
  · exact rest name value later m' named

theorem mem_of_lookup {pairs : List (String × Datum)} {name : String} {d : Datum}
    (h : pairs.lookup name = some d) : (name, d) ∈ pairs := by
  obtain ⟨before, after, rfl, -⟩ := List.lookup_eq_some_iff.mp h
  exact List.mem_append_right before List.mem_cons_self

theorem fitsMembers_map {ms : List (Member ρ)} {value : Member ρ → Datum}
    (h : ∀ m ∈ ms, c.Stands m (value m)) :
    c.FitsMembers ms (ms.map fun m => (m.name, value m)) := by
  induction ms with
  | nil => trivial
  | cons m ms ih =>
      have later := ih fun other member => h other (List.mem_cons_of_mem _ member)
      exact ⟨rfl, h m List.mem_cons_self, later⟩

theorem depthMembers_map {ms : List (Member ρ)} {value : Member ρ → Datum} {room : Nat}
    (h : ∀ m ∈ ms, (value m).depth ≤ room) :
    Datum.depthMembers (ms.map fun m => (m.name, value m)) ≤ room := by
  induction ms with
  | nil => exact Nat.zero_le room
  | cons m ms ih =>
      have later := ih fun other member => h other (List.mem_cons_of_mem _ member)
      exact Nat.max_le.mpr ⟨h m List.mem_cons_self, later⟩

/-- A record is completed to one that fits, fallbacks included. -/
theorem complete_fits (coherent : c.Coherent levels) {r : ρ} {room : Nat}
    (roomy : levels r ≤ room + 1) {found : Found} (h : c.FoundFits r room found) :
    c.Fits (.record r) (Found.complete (c.members r) found) ∧
      (Found.complete (c.members r) found).depth ≤ room + 1 := by
  have value : ∀ m ∈ c.members r, c.Stands m ((found.lookup m.name).getD m.fallback) ∧
      ((found.lookup m.name).getD m.fallback).depth ≤ room := by
    intro m member
    cases looked : found.lookup m.name with
    | none => exact ⟨coherent.fallback r m member, (coherent.room_of_mem roomy member).1⟩
    | some d => exact h m.name d (mem_of_lookup looked) m (coherent.member?_eq member)
  exact ⟨fitsMembers_map fun m member => (value m member).1,
    Nat.succ_le_succ (depthMembers_map fun m member => (value m member).2)⟩

end Catalogue
end Json
end ServiceDoc
