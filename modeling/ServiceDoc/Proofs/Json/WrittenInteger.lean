import ServiceDoc.Json.Writer
import Mathlib.Data.List.TakeWhile

/-! Integers as they are written. The text of an integer is one numeral, as long as what follows
does not go on with it, and machine integers are read back exactly; no others are read. -/
namespace ServiceDoc.Json

/-- Whether a number can end before a text. -/
def endsNumber : List Char → Bool
  | [] => true
  | c :: _ => !(c.isDigit || c == '.' || c == 'e' || c == 'E')

namespace Numeral

def written (n : Int) : Numeral := ⟨n < 0, digits (Nat.toDigits 10 n.natAbs), [], none⟩

theorem isDigit_of_mem {n : Nat} {c : Char} (h : c ∈ Nat.toDigits 10 n) : c.isDigit = true :=
  Nat.isDigit_of_mem_toDigits (by decide) (by decide) h

theorem not_isDigit_of_endsNumber {c : Char} {rest : List Char}
    (h : endsNumber (c :: rest) = true) :
    c.isDigit = false ∧ c ≠ '.' ∧ c ≠ 'e' ∧ c ≠ 'E' := by
  simpa only [endsNumber, Bool.not_eq_true', Bool.or_eq_false_iff, beq_eq_false_iff_ne, and_assoc]
    using h

theorem takeWhile_of_endsNumber {rest : List Char} (h : endsNumber rest = true) :
    rest.takeWhile Char.isDigit = [] ∧ rest.dropWhile Char.isDigit = rest := by
  cases rest with
  | nil => exact ⟨rfl, rfl⟩
  | cons c rest =>
      have no_digit : ¬ c.isDigit = true := by
        rw [(not_isDigit_of_endsNumber h).1]
        exact Bool.false_ne_true
      exact ⟨List.takeWhile_cons_of_neg no_digit, List.dropWhile_cons_of_neg no_digit⟩

theorem digits_append (n : Nat) {rest : List Char} (h : endsNumber rest = true) :
    digits (Nat.toDigits 10 n ++ rest) = digits (Nat.toDigits 10 n) := by
  have all : ∀ c ∈ Nat.toDigits 10 n, c.isDigit = true := fun c => isDigit_of_mem
  unfold digits
  rw [List.takeWhile_append_of_pos all, (takeWhile_of_endsNumber h).1, List.append_nil,
    List.takeWhile_eq_self_iff.mpr all]

theorem afterDigits_append (n : Nat) {rest : List Char} (h : endsNumber rest = true) :
    afterDigits (Nat.toDigits 10 n ++ rest) = rest := by
  unfold afterDigits
  rw [List.dropWhile_append_of_pos fun c => isDigit_of_mem]
  exact (takeWhile_of_endsNumber h).2

theorem digits_toDigits (n : Nat) :
    digits (Nat.toDigits 10 n) = (Nat.toDigits 10 n).map fun c => c.toNat - 48 := by
  unfold digits
  rw [List.takeWhile_eq_self_iff.mpr fun c => isDigit_of_mem]

theorem valueOf_toDigits (n : Nat) : valueOf (digits (Nat.toDigits 10 n)) = n := by
  rw [digits_toDigits, valueOf, List.foldl_map]
  exact Nat.ofDigitChars_ten_toDigits

/-- A positive number has no leading zero. -/
theorem leading_toDigits {n : Nat} (h : 0 < n) :
    ∃ d ds, digits (Nat.toDigits 10 n) = d :: ds ∧ d ≠ 0 := by
  rw [digits_toDigits]
  induction n using Nat.strongRecOn with
  | ind n ih =>
      by_cases small : n < 10
      · rw [Nat.toDigits_of_lt_base small]
        refine ⟨n, [], ?_, Nat.ne_of_gt h⟩
        rw [List.map_singleton, Nat.toNat_digitChar_sub_48_of_lt_ten small]
      · obtain ⟨d, ds, shape, nonzero⟩ := ih (n / 10) (by omega) (by omega)
        rw [Nat.toDigits_of_base_le (by decide) (by omega), List.map_append, shape]
        exact ⟨d, _, rfl, nonzero⟩

theorem toDigits_eq_cons (n : Nat) :
    ∃ c cs, Nat.toDigits 10 n = c :: cs ∧ c.isDigit = true := by
  obtain ⟨c, cs, shape⟩ := List.exists_cons_of_ne_nil (@Nat.toDigits_ne_nil n 10)
  exact ⟨c, cs, shape, isDigit_of_mem (shape ▸ List.mem_cons_self)⟩

theorem takeWhole_toDigits (n : Nat) {rest : List Char} (h : endsNumber rest = true) :
    takeWhole (Nat.toDigits 10 n ++ rest) = .ok (digits (Nat.toDigits 10 n), rest) := by
  unfold takeWhole
  rw [digits_append n h, afterDigits_append n h]
  cases n with
  | zero => rfl
  | succ n =>
      obtain ⟨d, ds, shape, nonzero⟩ := leading_toDigits (Nat.succ_pos n)
      rw [shape]
      split
      next none => cases none
      next zero =>
        cases zero
        exact absurd rfl nonzero
      next => rfl

theorem takeFraction_of_endsNumber {rest : List Char} (h : endsNumber rest = true) :
    takeFraction rest = .ok ([], rest) := by
  unfold takeFraction
  split
  · exact absurd rfl (not_isDigit_of_endsNumber h).2.1
  · rfl

theorem takeExponent_of_endsNumber {rest : List Char} (h : endsNumber rest = true) :
    takeExponent rest = .ok (none, rest) := by
  unfold takeExponent
  split
  · obtain ⟨-, -, small, capital⟩ := not_isDigit_of_endsNumber h
    rw [if_neg (not_or.mpr ⟨small, capital⟩)]
  · rfl

theorem take_written (n : Int) {rest : List Char} (h : endsNumber rest = true) :
    take (writeInt n ++ rest) = .ok (written n, rest) := by
  have whole := takeWhole_toDigits n.natAbs h
  unfold writeInt written
  split
  next negative =>
    simp only [take, List.cons_append, whole, takeFraction_of_endsNumber h,
      takeExponent_of_endsNumber h, bind, Except.bind, negative, decide_true]
    rfl
  next positive =>
    unfold take
    split
    next negative start sign =>
      obtain ⟨rfl, rfl⟩ : false = negative ∧ Nat.toDigits 10 n.natAbs ++ rest = start := by
        split at sign
        next rest' minus =>
          obtain ⟨c, cs, shape, digit⟩ := toDigits_eq_cons n.natAbs
          rw [shape, List.cons_append] at minus
          rw [(List.cons.inj minus).1] at digit
          exact absurd digit (by decide)
        next => exact Prod.mk.inj sign
      simp only [whole, takeFraction_of_endsNumber h,
        takeExponent_of_endsNumber h, bind, Except.bind, positive, decide_false]
      rfl

/-- Signed integers of 64 bits and less are read exactly. -/
theorem read_written {n : Int} (low : -9223372036854775808 ≤ n) (high : n < 9223372036854775808) :
    (written n).read = .ok (.int n) := by
  unfold read written
  simp only [valueOf_toDigits, true_and]
  have bound63 : Decimal.twoTo 63 = 9223372036854775808 := rfl
  have bound64 : Decimal.twoTo 64 = 18446744073709551616 := rfl
  by_cases negative : n < 0
  · have fits : 0 < n.natAbs ∧ n.natAbs ≤ Decimal.twoTo 63 := by omega
    have back : -(n.natAbs : Int) = n := by omega
    simp only [negative, decide_true, if_true, fits, and_self, back]
  · have fits : n.natAbs < Decimal.twoTo 64 := by omega
    have back : (n.natAbs : Int) = n := by omega
    simp only [negative, decide_false, Bool.false_eq_true, if_false, fits, decide_true, if_true,
      back]

theorem readInt_written {n : Int} {bits : Nat} (wanted : String) (width : bits ≤ 64)
    (low : -(Decimal.twoTo (bits - 1) : Int) ≤ n) (high : n < Decimal.twoTo (bits - 1)) :
    (written n).readInt bits wanted = .ok n := by
  have most : Decimal.twoTo (bits - 1) ≤ 9223372036854775808 :=
    Nat.pow_le_pow_right (by decide : 0 < 2) (by omega : bits - 1 ≤ 63)
  have whole : (written n).read = .ok (.int n) := read_written (by omega) (by omega)
  simp only [readInt, whole, bind, Except.bind, low, high, and_self, if_true]

theorem readCode_written {n : Int} {bound : Nat} (what : String) (low : 0 ≤ n) (high : n < bound)
    (below : n < (Decimal.twoTo 31 : Nat)) : (written n).readCode what bound = .ok n := by
  have whole : (written n).readInt 32 "i32" = .ok n :=
    readInt_written "i32" (by decide) (by omega) below
  simp only [readCode, whole, bind, Except.bind, low, high, and_self, if_true]

theorem readInt_range {n : Numeral} {bits : Nat} {wanted : String} {k : Int}
    (h : n.readInt bits wanted = .ok k) :
    -(Decimal.twoTo (bits - 1) : Int) ≤ k ∧ k < Decimal.twoTo (bits - 1) := by
  unfold readInt at h
  cases whole : n.read with
  | error f => rw [whole] at h; cases h
  | ok value =>
      cases value with
      | int k' =>
          simp only [whole, bind, Except.bind] at h
          split at h
          next range =>
            cases h
            exact range
          next => cases h
      | float x =>
          simp only [whole, bind, Except.bind] at h
          cases h

theorem readCode_range {n : Numeral} {what : String} {bound : Nat} {k : Int}
    (h : n.readCode what bound = .ok k) : 0 ≤ k ∧ k < bound ∧ k < Decimal.twoTo 31 := by
  unfold readCode at h
  cases whole : n.readInt 32 "i32" with
  | error f => rw [whole] at h; cases h
  | ok k' =>
      simp only [whole, bind, Except.bind] at h
      split at h
      next range =>
        cases h
        exact ⟨range.1, range.2, (readInt_range whole).2⟩
      next => cases h

end Numeral
end ServiceDoc.Json
