import Mathlib.Data.List.Basic

/-! Stable sorts by a key. Their result is determined by the values of each key in the order in
which they came, so it does not depend on the order of values with different keys. -/
namespace ServiceDoc.OpenApi

variable {α : Type} {key : α → String}

/-- The same values in increasing order of their keys; values of one key keep their order. -/
structure StablySorted (key : α → String) (before after : List α) : Prop where
  ordered : after.Pairwise fun a b => key a ≤ key b
  perm : after.Perm before
  stable : ∀ k, after.filter (key · = k) = before.filter (key · = k)

theorem pairwise_filter_key (key : α → String) (k : String) (xs : List α) :
    (xs.filter (key · = k)).Pairwise fun a b => decide (key a ≤ key b) = true := by
  have key_eq : ∀ a ∈ xs.filter (key · = k), key a = k := fun a mem =>
    of_decide_eq_true (List.mem_filter.mp mem).2
  refine List.pairwise_of_forall_mem_list fun a ha b hb => decide_eq_true ?_
  simp only [key_eq a ha, key_eq b hb, String.le_refl]

theorem stablySorted_mergeSort (key : α → String) (xs : List α) :
    StablySorted key xs (xs.mergeSort fun a b => decide (key a ≤ key b)) := by
  have trans : ∀ a b c : α, decide (key a ≤ key b) = true → decide (key b ≤ key c) = true →
      decide (key a ≤ key c) = true := by
    intro a b c ab bc
    exact decide_eq_true (String.le_trans (of_decide_eq_true ab) (of_decide_eq_true bc))
  have total : ∀ a b : α, (decide (key a ≤ key b) || decide (key b ≤ key a)) = true := by
    intro a b
    rw [Bool.or_eq_true, decide_eq_true_eq, decide_eq_true_eq]
    exact String.le_total (key a) (key b)
  have perm := List.mergeSort_perm xs fun a b => decide (key a ≤ key b)
  refine ⟨(List.pairwise_mergeSort trans total xs).imp of_decide_eq_true, perm, ?_⟩
  intro k
  -- The values of one key are in order already, so they come out as a sublist.
  have kept := (List.sublist_mergeSort trans total (pairwise_filter_key key k xs)
    List.filter_sublist).filter (key · = k)
  simp only [List.filter_filter, Bool.and_self] at kept
  exact (kept.eq_of_length (perm.filter _).length_eq.symm).symm

/-- A list in order starts with a least key. -/
theorem key_head_le {a : α} {xs : List α} (h : (a :: xs).Pairwise fun a b => key a ≤ key b)
    {b : α} (mem : b ∈ a :: xs) : key a ≤ key b := by
  rcases List.mem_cons.mp mem with rfl | later
  · exact String.le_refl _
  · exact (List.pairwise_cons.mp h).1 b later

theorem mem_iff_of_filter_key {xs ys : List α}
    (same : ∀ k, xs.filter (key · = k) = ys.filter (key · = k)) (a : α) : a ∈ xs ↔ a ∈ ys := by
  have here := congrArg (a ∈ ·) (same (key a))
  simpa only [List.mem_filter, decide_true, and_true, eq_iff_iff] using here

/-- Lists in order are equal when they have the same values of each key, in the same order. -/
theorem eq_of_filter_key {xs ys : List α} (hx : xs.Pairwise fun a b => key a ≤ key b)
    (hy : ys.Pairwise fun a b => key a ≤ key b)
    (same : ∀ k, xs.filter (key · = k) = ys.filter (key · = k)) : xs = ys := by
  induction xs generalizing ys with
  | nil => exact (List.eq_nil_iff_forall_not_mem.mpr fun b mem =>
      List.not_mem_nil ((mem_iff_of_filter_key same b).mpr mem)).symm
  | cons a xs ih =>
      cases ys with
      | nil =>
          exact absurd ((mem_iff_of_filter_key same a).mp List.mem_cons_self) List.not_mem_nil
      | cons b ys =>
          have le := key_head_le hx ((mem_iff_of_filter_key same b).mpr List.mem_cons_self)
          have ge := key_head_le hy ((mem_iff_of_filter_key same a).mp List.mem_cons_self)
          have heads := same (key a)
          simp only [List.filter_cons, String.le_antisymm ge le, decide_true, if_true] at heads
          obtain ⟨rfl, -⟩ := List.cons.inj heads
          refine congrArg (a :: ·) (ih (List.pairwise_cons.mp hx).2 (List.pairwise_cons.mp hy).2 ?_)
          intro k
          have here := same k
          simp only [List.filter_cons] at here
          split at here
          · exact (List.cons.inj here).2
          · exact here

theorem StablySorted.eq {before others after sorted : List α}
    (h : StablySorted key before after) (k : StablySorted key others sorted)
    (same : ∀ name, before.filter (key · = name) = others.filter (key · = name)) :
    after = sorted := by
  refine eq_of_filter_key h.ordered k.ordered fun name => ?_
  rw [h.stable, k.stable, same]

end ServiceDoc.OpenApi
