import ServiceDoc.Proofs.Json.Faithful
import ServiceDoc.Proofs.OpenApi.Rearranged

/-! What JSON data stand for. A list is its items in order, an object is what it has under each
name: the order of its members is no part of it. Main statement: data that repeat no name stand for
the same value exactly when they differ in the order of members only, at whatever depth. -/
namespace ServiceDoc
open OpenApi (Table)

inductive Json.Value where
  | null
  | bool (b : Bool)
  | int (n : Int)
  | float (x : Float)
  | text (s : String)
  | list (items : List Value)
  | object (member : String → Option Value)

namespace Datum

mutual

def value : Datum → Json.Value
  | .null => .null
  | .bool b => .bool b
  | .int n => .int n
  | .float x => .float x
  | .text s => .text s
  | .list items => .list (itemValues items)
  | .map members => .object (memberValue members)

def itemValues : List Datum → List Json.Value
  | [] => []
  | d :: ds => d.value :: itemValues ds

/-- Of members with one name the first one counts. -/
def memberValue : List (String × Datum) → String → Option Json.Value
  | [], _ => none
  | (key, d) :: rest, name => if name = key then some d.value else memberValue rest name

end

theorem itemValues_eq_map (ds : List Datum) : itemValues ds = ds.map value := by
  induction ds with
  | nil => rfl
  | cons d ds ih => rw [itemValues, ih, List.map_cons]

theorem memberValue_eq_get? (ms : List (String × Datum)) (name : String) :
    memberValue ms name = (Table.get? ms name).map value := by
  induction ms with
  | nil => rfl
  | cons m ms ih =>
      obtain ⟨key, d⟩ := m
      rw [memberValue, Table.get?_cons, ih]
      split <;> rfl

@[simp] theorem value_list (items : List Datum) : (list items).value = .list (items.map value) := by
  rw [value, itemValues_eq_map]

@[simp] theorem value_map (members : List (String × Datum)) :
    (map members).value = .object fun name => (Table.get? members name).map value := by
  rw [value]
  exact congrArg Json.Value.object (funext (memberValue_eq_get? members))

/-- Equality up to the order of members: lists are compared place by place, maps name by name. -/
inductive Rearranged : Datum → Datum → Prop where
  | null : Rearranged .null .null
  | bool (b : Bool) : Rearranged (.bool b) (.bool b)
  | int (n : Int) : Rearranged (.int n) (.int n)
  | float (x : Float) : Rearranged (.float x) (.float x)
  | text (s : String) : Rearranged (.text s) (.text s)
  | list {ds es : List Datum} (length : ds.length = es.length)
      (items : ∀ (i : Nat) d e, ds[i]? = some d → es[i]? = some e → Rearranged d e) :
      Rearranged (.list ds) (.list es)
  | map {ms ns : List (String × Datum)} (names : (Table.names ms).Perm (Table.names ns))
      (values : ∀ name d e, (name, d) ∈ ms → (name, e) ∈ ns → Rearranged d e) :
      Rearranged (.map ms) (.map ns)

/-- No map has a name twice. -/
inductive Distinct : Datum → Prop where
  | null : Distinct .null
  | bool (b : Bool) : Distinct (.bool b)
  | int (n : Int) : Distinct (.int n)
  | float (x : Float) : Distinct (.float x)
  | text (s : String) : Distinct (.text s)
  | list {items : List Datum} (all : ∀ d ∈ items, d.Distinct) : Distinct (.list items)
  | map {members : List (String × Datum)} (names : (Table.names members).Nodup)
      (all : ∀ m ∈ members, m.2.Distinct) : Distinct (.map members)

theorem Distinct.item {items : List Datum} (h : (Datum.list items).Distinct) :
    ∀ d ∈ items, d.Distinct := by
  cases h with
  | list all => exact all

theorem Distinct.names {members : List (String × Datum)} (h : (Datum.map members).Distinct) :
    (Table.names members).Nodup := by
  cases h with
  | map names _ => exact names

theorem Distinct.member {members : List (String × Datum)} (h : (Datum.map members).Distinct) :
    ∀ m ∈ members, m.2.Distinct := by
  cases h with
  | map _ all => exact all

theorem value_map_eq_iff {ms ns : List (String × Datum)} (hm : (Table.names ms).Nodup)
    (hn : (Table.names ns).Nodup) :
    (map ms).value = (map ns).value ↔ Table.Rearranged (fun d e => d.value = e.value) ms ns := by
  rw [Table.rearranged_iff_get? hm hn, value_map, value_map, Json.Value.object.injEq, funext_iff]

theorem Rearranged.value_eq {d e : Datum} (h : d.Rearranged e) (hd : d.Distinct) (he : e.Distinct) :
    d.value = e.value := by
  induction h with
  | null | bool | int | float | text => rfl
  | list length items ih =>
      rw [value_list, value_list]
      refine congrArg Json.Value.list (List.ext_getElem (by simpa only [List.length_map]) ?_)
      intro i left right
      rw [List.length_map] at left right
      rw [List.getElem_map, List.getElem_map]
      exact ih i _ _ (List.getElem?_eq_getElem left) (List.getElem?_eq_getElem right)
        (hd.item _ (List.getElem_mem left)) (he.item _ (List.getElem_mem right))
  | map names values ih =>
      refine (value_map_eq_iff hd.names he.names).mpr ⟨names, ?_⟩
      intro name d e left right
      exact ih name d e left right (hd.member _ left) (he.member _ right)

theorem rearranged_of_value_eq {d e : Datum} (hd : d.Distinct) (he : e.Distinct)
    (h : d.value = e.value) : d.Rearranged e := by
  induction hd generalizing e with
  | null | bool | int | float | text =>
      cases e <;> cases h
      constructor
  | list _ ih =>
      cases e with
      | list es =>
          rw [value_list, value_list, Json.Value.list.injEq] at h
          refine .list (by simpa only [List.length_map] using congrArg List.length h) ?_
          intro i d e left right
          have values := congrArg (fun vs => vs[i]?) h
          simp only [List.getElem?_map, left, right, Option.map_some, Option.some.injEq] at values
          exact ih d (List.mem_of_getElem? left) (he.item e (List.mem_of_getElem? right)) values
      | _ => cases h
  | map names _ ih =>
      cases e with
      | map ns =>
          have same := (value_map_eq_iff names he.names).mp h
          refine .map same.names ?_
          intro name d e left right
          exact ih _ left (he.member _ right) (same.values name d e left right)
      | _ => cases h

/-- Data without repeated names stand for the same value exactly when they are equal up to the order
of members. -/
theorem value_eq_iff {d e : Datum} (hd : d.Distinct) (he : e.Distinct) :
    d.value = e.value ↔ d.Rearranged e :=
  ⟨rearranged_of_value_eq hd he, fun h => h.value_eq hd he⟩

end Datum

/-- The value that a text without fractions stands for. -/
def Json.meaning (s : String) : Json.Value := (Json.Text.read s).value.datum.value

theorem Json.meaning_write {d : Datum} (free : d.floatFree = true) :
    Json.meaning (Json.write d) = d.value := by
  rw [Json.meaning, Json.Text.read_write d free, Json.Tree.datum_written d free]

end ServiceDoc
