import ServiceDoc.Text.Slice
import Mathlib.Data.String.Basic

/-! Places of a text: where so many bytes end with a character. A text can be divided at its places
and nowhere else, and what is between two places can be cut out. -/
namespace ServiceDoc.Text

open String (utf8Len)

variable {cs before after : List Char} {c : Char} {n start stop : Nat}

theorem divide?_zero : divide? 0 cs = some ([], cs) := by
  cases cs <;> rfl

/-- A character is before a place if all of its bytes are. -/
theorem divide?_cons (fits : c.utf8Size ≤ n) :
    divide? n (c :: cs) =
      (divide? (n - c.utf8Size) cs).map fun (before, after) => (c :: before, after) := by
  cases n with
  | zero => exact absurd c.utf8Size_pos (Nat.not_lt.mpr fits)
  | succ n => exact if_pos fits

theorem divide?_append : divide? (utf8Len before) (before ++ after) = some (before, after) := by
  induction before with
  | nil => exact divide?_zero
  | cons c before ih =>
      have fits : c.utf8Size ≤ utf8Len (c :: before) := Nat.le_add_left _ _
      rw [List.cons_append, divide?_cons fits, String.utf8Len_cons, Nat.add_sub_cancel, ih]
      rfl

theorem of_divide? (divided : divide? n cs = some (before, after)) :
    cs = before ++ after ∧ utf8Len before = n := by
  induction cs generalizing n before with
  | nil =>
      cases n with
      | zero =>
          cases divided
          exact ⟨rfl, rfl⟩
      | succ n => cases divided
  | cons c cs ih =>
      cases n with
      | zero =>
          cases divided
          exact ⟨rfl, rfl⟩
      | succ n =>
          by_cases fits : c.utf8Size ≤ n + 1
          · rw [divide?_cons fits] at divided
            obtain ⟨⟨b, a⟩, found, same⟩ := Option.map_eq_some_iff.mp divided
            cases same
            obtain ⟨whole, count⟩ := ih found
            refine ⟨congrArg _ whole, ?_⟩
            rw [String.utf8Len_cons, count, Nat.sub_add_cancel fits]
          · rw [divide?, if_neg fits] at divided
            cases divided

/-- So many bytes of a text end with a character. -/
def IsPlace (cs : List Char) (n : Nat) : Prop := ∃ before, before <+: cs ∧ utf8Len before = n

theorem isPlace_iff_divide? : IsPlace cs n ↔ ∃ parts, divide? n cs = some parts := by
  constructor
  · rintro ⟨before, ⟨after, rfl⟩, rfl⟩
    exact ⟨_, divide?_append⟩
  · rintro ⟨⟨before, after⟩, divided⟩
    obtain ⟨rfl, rfl⟩ := of_divide? divided
    exact ⟨before, List.prefix_append before after, rfl⟩

theorem isPlace_zero : IsPlace cs 0 := ⟨[], List.nil_prefix, rfl⟩

theorem IsPlace.cons (h : IsPlace cs n) : IsPlace (c :: cs) (c.utf8Size + n) := by
  obtain ⟨before, within, rfl⟩ := h
  refine ⟨c :: before, List.cons_prefix_cons.mpr ⟨rfl, within⟩, ?_⟩
  rw [String.utf8Len_cons, Nat.add_comm]

/-- The places of a text stay when more follows. -/
theorem IsPlace.followed {ds : List Char} (h : IsPlace cs n) (more : cs <+: ds) : IsPlace ds n := by
  obtain ⟨before, within, count⟩ := h
  exact ⟨before, within.trans more, count⟩

theorem IsPlace.le (h : IsPlace cs n) : n ≤ utf8Len cs := by
  obtain ⟨before, within, rfl⟩ := h
  exact String.utf8Len_le_of_prefix within

theorem utf8Len_eq_length (narrow : ∀ c ∈ cs, c.utf8Size = 1) : utf8Len cs = cs.length := by
  induction cs with
  | nil => rfl
  | cons c cs ih =>
      obtain ⟨first, others⟩ := List.forall_mem_cons.mp narrow
      rw [String.utf8Len_cons, ih others, first, List.length_cons]

/-- Where every character takes one byte, every byte ends one. -/
theorem isPlace_of_narrow (narrow : ∀ c ∈ cs, c.utf8Size = 1) (h : n ≤ utf8Len cs) :
    IsPlace cs n := by
  rw [utf8Len_eq_length narrow] at h
  refine ⟨cs.take n, List.take_prefix n cs, ?_⟩
  rw [utf8Len_eq_length fun c member => narrow c (List.mem_of_mem_take member),
    List.length_take_of_le h]

/-- Of two beginnings of a text, the one with fewer bytes is a beginning of the other. -/
theorem prefix_of_utf8Len_le {xs ys : List Char} (h : xs <+: cs) (h' : ys <+: cs)
    (le : utf8Len xs ≤ utf8Len ys) : xs <+: ys := by
  rcases List.prefix_or_prefix_of_prefix h h' with shorter | ⟨more, rfl⟩
  · exact shorter
  · rw [String.utf8Len_append] at le
    have none : more = [] := String.utf8Len_eq_zero.mp (by omega)
    exact ⟨[], by rw [none, List.append_nil, List.append_nil]⟩

/-- Between two places, in their order, a part can be cut out. -/
theorem exists_slice? (first : IsPlace cs start) (last : IsPlace cs stop) (ordered : start ≤ stop) :
    ∃ part, slice? start stop cs = some part := by
  obtain ⟨before, within, rfl⟩ := first
  obtain ⟨upTo, within', rfl⟩ := last
  obtain ⟨part, rfl⟩ := prefix_of_utf8Len_le within within' ordered
  obtain ⟨after, rfl⟩ := within'
  refine ⟨part, ?_⟩
  rw [slice?, divide?_append]
  dsimp only [bind, Option.bind]
  rw [from?, divide?_append]
  rfl

theorem exists_from? (h : IsPlace cs start) : ∃ part, from? start cs = some part := by
  obtain ⟨⟨before, part⟩, divided⟩ := isPlace_iff_divide?.mp h
  exact ⟨part, by rw [from?, divided]; rfl⟩

end ServiceDoc.Text
