import ServiceDoc.Text.Hexadecimal
import ServiceDoc.Yaml.Writer

/-! Characters between double quotes. Each is written by itself, by a letter or by the digits of its
code in a fixed width, and no way of writing one begins another. -/
namespace ServiceDoc.Yaml.Page

/-! ### Digits -/

/-- The number that hexadecimal digits stand for. -/
def hexValue (cs : List Char) : Nat :=
  cs.foldl (fun n c => 16 * n + (Text.hexDigit? c).getD 0) 0

theorem hexDigit?_upper : ∀ n < 16, Text.hexDigit? n.digitChar.toUpper = some n := by
  decide

theorem hexValue_concat (cs : List Char) {n : Nat} (h : n < 16) :
    hexValue (cs ++ [n.digitChar.toUpper]) = 16 * hexValue cs + n := by
  rw [hexValue, List.foldl_append, List.foldl_cons, List.foldl_nil, hexDigit?_upper n h]
  rfl

theorem hexValue_upper_toDigits (n : Nat) :
    hexValue ((Nat.toDigits 16 n).map Char.toUpper) = n := by
  induction n using Nat.strongRecOn with
  | ind n ih =>
      rcases Nat.lt_or_ge n 16 with less | more
      · rw [Nat.toDigits_of_lt_base less, List.map_cons, List.map_nil]
        exact (hexValue_concat [] less).trans (by simp [hexValue])
      · have last : n % 16 < 16 := Nat.mod_lt n (by decide)
        rw [Nat.toDigits_of_base_le (by decide) more, List.map_append, List.map_cons, List.map_nil,
          hexValue_concat _ last, ih (n / 16) (by omega)]
        omega

theorem hexValue_zeros (k : Nat) (cs : List Char) :
    hexValue (List.replicate k '0' ++ cs) = hexValue cs := by
  induction k with
  | zero => rfl
  | succ k ih => exact ih

theorem hexValue_hexDigits (width n : Nat) : hexValue (hexDigits width n) = n := by
  rw [hexDigits, hexValue_zeros, hexValue_upper_toDigits]

theorem length_hexDigits {width n : Nat} (fits : (Nat.toDigits 16 n).length ≤ width) :
    (hexDigits width n).length = width := by
  simp [hexDigits]
  omega

theorem hexDigits_unique {width m n : Nat} (hm : (Nat.toDigits 16 m).length ≤ width)
    (hn : (Nat.toDigits 16 n).length ≤ width) {r s : List Char}
    (h : hexDigits width m ++ r = hexDigits width n ++ s) : m = n ∧ r = s := by
  have widths := (length_hexDigits hm).trans (length_hexDigits hn).symm
  obtain ⟨digits, rest⟩ := List.append_inj h widths
  exact ⟨by rw [← hexValue_hexDigits width m, digits, hexValue_hexDigits], rest⟩

/-! ### Letters -/

/-- The code that a letter stands for. -/
def codeOfName (c : Char) : Nat :=
  match c with
  | '0' => 0x00
  | 'a' => 0x07
  | 'b' => 0x08
  | 't' => 0x09
  | 'n' => 0x0A
  | 'v' => 0x0B
  | 'f' => 0x0C
  | 'r' => 0x0D
  | 'e' => 0x1B
  | '"' => 0x22
  | '\\' => 0x5C
  | 'N' => 0x85
  | '_' => 0xA0
  | 'L' => 0x2028
  | _ => 0x2029

/-- How many digits come after a mark. -/
def digitsAfter : Char → Option Nat
  | 'x' => some 2
  | 'u' => some 4
  | 'U' => some 8
  | _ => none

theorem escapeName?_eq_some {n : Nat} {name : Char} (h : escapeName? n = some name) :
    codeOfName name = n ∧ digitsAfter name = none := by
  unfold escapeName? at h
  split at h <;> first | cases h; decide | cases h

/-- What comes after a backslash: a letter for the code, or a mark with the code's digits. -/
inductive Escape (n : Nat) (cs : List Char) : Prop where
  | name (c : Char) (code : codeOfName c = n) (letter : digitsAfter c = none) (h : cs = [c])
  | digits (c : Char) (width : Nat) (mark : digitsAfter c = some width)
    (fits : (Nat.toDigits 16 n).length ≤ width) (h : cs = c :: hexDigits width n)

theorem Escape.unique {m n : Nat} {as bs : List Char} (ha : Escape m as) (hb : Escape n bs)
    {r s : List Char} (h : as ++ r = bs ++ s) : m = n ∧ r = s := by
  cases ha with
  | name c code letter shape =>
      subst shape
      cases hb with
      | name d code' letter' shape =>
          subst shape
          obtain ⟨rfl, rest⟩ := List.cons.inj h
          exact ⟨code.symm.trans code', rest⟩
      | digits d width mark fits shape =>
          subst shape
          obtain ⟨rfl, -⟩ := List.cons.inj h
          cases letter.symm.trans mark
  | digits c width mark fits shape =>
      subst shape
      cases hb with
      | name d code letter shape =>
          subst shape
          obtain ⟨rfl, -⟩ := List.cons.inj h
          cases letter.symm.trans mark
      | digits d width' mark' fits' shape =>
          subst shape
          obtain ⟨rfl, rest⟩ := List.cons.inj h
          obtain rfl := Option.some.inj (mark.symm.trans mark')
          exact hexDigits_unique fits fits' rest

/-! ### Characters -/

/-- A character stands for itself or is escaped. -/
theorem doubleChar_cases (c : Char) :
    (doubleChar c = [c] ∧ c ≠ '"' ∧ c ≠ '\\') ∨
      ∃ cs, doubleChar c = '\\' :: cs ∧ Escape c.toNat cs := by
  have fits {width : Nat} (positive : 0 < width) (h : c.toNat < 16 ^ width) :
      (Nat.toDigits 16 c.toNat).length ≤ width :=
    (Nat.length_toDigits_le_iff (by decide) positive).mpr h
  unfold doubleChar
  simp only
  split
  next =>
    refine .inr ⟨_, rfl, ?_⟩
    split
    next name found =>
      obtain ⟨code, letter⟩ := escapeName?_eq_some found
      exact .name name code letter rfl
    next =>
      split
      next small => exact .digits 'x' 2 rfl (fits (by decide) (Nat.lt_succ_of_le small)) rfl
      next =>
        split
        next middle => exact .digits 'u' 4 rfl (fits (by decide) (Nat.lt_succ_of_le middle)) rfl
        next => exact .digits 'U' 8 rfl (fits (by decide) c.val.toNat_lt) rfl
  next clear =>
    simp only [Bool.or_eq_true, decide_eq_true_eq, not_or] at clear
    exact .inl ⟨rfl, clear.1.2, clear.2⟩

theorem doubleChar_unique {c d : Char} {r s : List Char}
    (h : doubleChar c ++ r = doubleChar d ++ s) : c = d ∧ r = s := by
  rcases doubleChar_cases c with ⟨same, -, slash⟩ | ⟨cs, same, code⟩ <;>
    rcases doubleChar_cases d with ⟨same', -, slash'⟩ | ⟨ds, same', code'⟩ <;>
    rw [same, same'] at h <;> obtain ⟨head, rest⟩ := List.cons.inj h
  · exact ⟨head, rest⟩
  · exact absurd head slash
  · exact absurd head.symm slash'
  · obtain ⟨codes, rest⟩ := code.unique code' rest
    exact ⟨Char.toNat_inj.mp codes, rest⟩

theorem doubleChar_append_ne (c : Char) (r s : List Char) : doubleChar c ++ r ≠ '"' :: s := by
  intro h
  rcases doubleChar_cases c with ⟨same, quote, -⟩ | ⟨cs, same, -⟩ <;> rw [same] at h
  · exact quote (List.cons.inj h).1
  · cases (List.cons.inj h).1

/-- Between double quotes any two texts are told apart, whatever comes after them. -/
theorem doubleChars_unique {as bs r s : List Char}
    (h : as.flatMap doubleChar ++ '"' :: r = bs.flatMap doubleChar ++ '"' :: s) :
    as = bs ∧ r = s := by
  induction as generalizing bs with
  | nil =>
      cases bs with
      | nil => exact ⟨rfl, (List.cons.inj h).2⟩
      | cons d bs =>
          rw [List.flatMap_cons, List.append_assoc] at h
          exact absurd h.symm (doubleChar_append_ne d _ r)
  | cons c as ih =>
      rw [List.flatMap_cons, List.append_assoc] at h
      cases bs with
      | nil => exact absurd h (doubleChar_append_ne c _ s)
      | cons d bs =>
          rw [List.flatMap_cons, List.append_assoc] at h
          obtain ⟨rfl, later⟩ := doubleChar_unique h
          obtain ⟨rfl, rest⟩ := ih later
          exact ⟨rfl, rest⟩

end ServiceDoc.Yaml.Page
