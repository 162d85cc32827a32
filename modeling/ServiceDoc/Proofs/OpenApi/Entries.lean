import ServiceDoc.Proofs.OpenApi.Table
import Mathlib.Data.Finset.Card

/-! Tables from entries whose names may repeat. A name stands at the place of its first entry and
has the value of its last one. -/
namespace ServiceDoc.OpenApi

/-- One more text comes last, unless it was there before. -/
theorem eraseDups_concat (xs : List String) (x : String) :
    (xs ++ [x]).eraseDups = xs.eraseDups ++ if x ∈ xs then [] else [x] := by
  rw [List.eraseDups_append, List.removeAll]
  split
  next old => simp [old]
  next new => simp [new, List.eraseDups_cons]

/-- Texts without their repetitions are in the order in which they first came. -/
theorem pairwise_eraseDups (xs : List String) :
    xs.eraseDups.Pairwise fun a b => xs.idxOf a < xs.idxOf b := by
  induction xs using List.reverseRecOn with
  | nil => exact .nil
  | append_singleton xs x ih =>
      have kept : xs.eraseDups.Pairwise fun a b => (xs ++ [x]).idxOf a < (xs ++ [x]).idxOf b := by
        refine ih.imp_of_mem fun {a b} ha hb lt => ?_
        rwa [List.idxOf_append_of_mem (List.mem_eraseDups.mp ha),
          List.idxOf_append_of_mem (List.mem_eraseDups.mp hb)]
      rw [eraseDups_concat]
      split
      next => rwa [List.append_nil]
      next new =>
        refine List.pairwise_append.mpr ⟨kept, List.pairwise_singleton _ _, ?_⟩
        intro a ha b hb
        have here := List.mem_eraseDups.mp ha
        rw [List.mem_singleton.mp hb, List.idxOf_append_of_mem here,
          List.idxOf_append_of_notMem new]
        exact Nat.lt_add_right _ (List.idxOf_lt_length_of_mem here)

theorem nodup_eraseDups (xs : List String) : xs.eraseDups.Nodup := by
  refine (pairwise_eraseDups xs).imp ?_
  rintro a b lt rfl
  exact Nat.lt_irrefl _ lt

namespace Table

variable {α : Type}

theorem ofEntries_concat (entries : List (String × α)) (name : String) (value : α) :
    ofEntries (entries ++ [(name, value)]) = (ofEntries entries).insert name value :=
  List.foldl_append

theorem names_ofEntries (entries : List (String × α)) :
    (ofEntries entries).names = (entries.map Prod.fst).eraseDups := by
  -- From the end, where the last entry is the last one to be written.
  induction entries using List.reverseRecOn with
  | nil => rfl
  | append_singleton entries entry ih =>
      obtain ⟨name, value⟩ := entry
      have mem : name ∈ (ofEntries entries).names ↔ name ∈ entries.map Prod.fst := by
        rw [ih, List.mem_eraseDups]
      rw [ofEntries_concat, List.map_append, List.map_singleton, eraseDups_concat, ← ih]
      split
      next old => rw [names_insert_of_mem (mem.mpr old), List.append_nil]
      next new => exact names_insert_of_not_mem (mt mem.mp new) value

theorem get?_ofEntries (entries : List (String × α)) (name : String) :
    (ofEntries entries).get? name =
      (entries.filter (·.1 = name)).getLast?.map Prod.snd := by
  induction entries using List.reverseRecOn with
  | nil => rfl
  | append_singleton entries entry ih =>
      obtain ⟨key, value⟩ := entry
      rw [ofEntries_concat, get?_insert, List.filter_append]
      by_cases same : key = name
      · simp [same]
      · simp [same, Ne.symm same, ih]

theorem nodup_names_ofEntries (entries : List (String × α)) : (ofEntries entries).names.Nodup := by
  rw [names_ofEntries]
  exact nodup_eraseDups _

theorem mem_names_ofEntries (entries : List (String × α)) (name : String) :
    name ∈ (ofEntries entries).names ↔ name ∈ entries.map Prod.fst := by
  rw [names_ofEntries, List.mem_eraseDups]

theorem length_ofEntries (entries : List (String × α)) :
    (ofEntries entries).length = (entries.map Prod.fst).toFinset.card := by
  have names : (ofEntries entries).names.toFinset = (entries.map Prod.fst).toFinset := by
    ext name
    rw [List.mem_toFinset, List.mem_toFinset, mem_names_ofEntries]
  rw [← names, List.toFinset_card_of_nodup (nodup_names_ofEntries entries)]
  exact (List.length_map _).symm

end Table
end ServiceDoc.OpenApi
