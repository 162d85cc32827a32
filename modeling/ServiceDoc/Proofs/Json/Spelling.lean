import ServiceDoc.Proofs.Json.Scan
import ServiceDoc.Proofs.Json.WrittenInteger
import ServiceDoc.Proofs.Json.WrittenText

/-! The tokens of written data. Compact and indented texts differ in spaces alone: both are scanned
as the same tokens. Doubles are left out, as a reader does not give them back exactly. -/
namespace ServiceDoc

mutual

def Datum.floatFree : Datum → Bool
  | .float _ => false
  | .list items => floatFreeItems items
  | .map members => floatFreeMembers members
  | _ => true

def Datum.floatFreeItems : List Datum → Bool
  | [] => true
  | d :: ds => d.floatFree && floatFreeItems ds

def Datum.floatFreeMembers : List (String × Datum) → Bool
  | [] => true
  | (_, d) :: rest => d.floatFree && floatFreeMembers rest

end

namespace Datum

@[simp] theorem floatFree_null : Datum.null.floatFree = true := rfl

@[simp] theorem floatFree_bool (b : Bool) : (Datum.bool b).floatFree = true := rfl

@[simp] theorem floatFree_int (n : Int) : (Datum.int n).floatFree = true := rfl

@[simp] theorem floatFree_text (s : String) : (Datum.text s).floatFree = true := rfl

@[simp] theorem floatFree_map_nil : (Datum.map []).floatFree = true := rfl

@[simp] theorem floatFree_map_cons (key : String) (d : Datum) (rest : List (String × Datum)) :
    (Datum.map ((key, d) :: rest)).floatFree = (d.floatFree && (Datum.map rest).floatFree) := rfl

theorem floatFreeItems_map {α : Type} {f : α → Datum} {xs : List α}
    (h : ∀ x ∈ xs, (f x).floatFree = true) : floatFreeItems (xs.map f) = true := by
  induction xs with
  | nil => rfl
  | cons x xs ih =>
      have later := ih fun other member => h other (List.mem_cons_of_mem _ member)
      exact Bool.and_eq_true_iff.mpr ⟨h x List.mem_cons_self, later⟩

theorem floatFreeMembers_of_mem {members : List (String × Datum)}
    (h : ∀ m ∈ members, m.2.floatFree = true) : floatFreeMembers members = true := by
  induction members with
  | nil => rfl
  | cons m rest ih =>
      have later := ih fun other member => h other (List.mem_cons_of_mem _ member)
      exact Bool.and_eq_true_iff.mpr ⟨h m List.mem_cons_self, later⟩

end Datum

namespace Json
open Token

mutual

def Datum.tokens : Datum → List Token
  | .null => [.null]
  | .bool b => [.bool b]
  | .int n => [.number (.written n)]
  | .float _ => []
  | .text s => [.text (.written s)]
  | .list [] => [.openList, .closeList]
  | .list (d :: ds) => .openList :: (tokens d ++ itemTokens ds)
  | .map [] => [.openObject, .closeObject]
  | .map ((key, d) :: rest) =>
    .openObject :: .text (.written key) :: .colon :: (tokens d ++ memberTokens rest)

/-- The tokens after an item of a list. -/
def Datum.itemTokens : List Datum → List Token
  | [] => [.closeList]
  | d :: ds => .comma :: (tokens d ++ itemTokens ds)

def Datum.memberTokens : List (String × Datum) → List Token
  | [] => [.closeObject]
  | (key, d) :: rest =>
    .comma :: .text (.written key) :: .colon :: (tokens d ++ memberTokens rest)

end

namespace Token

theorem scan_punctuation {c : Char} {t : Token} (space : isSpace c = false)
    (known : punctuation? c = some t) (rest : List Char) : scan (c :: rest) = t :: scan rest :=
  scan_token space (by simp only [take, known])

theorem scan_null (rest : List Char) :
    scan ('n' :: 'u' :: 'l' :: 'l' :: rest) = .null :: scan rest := scan_token rfl rfl

theorem scan_true (rest : List Char) :
    scan ('t' :: 'r' :: 'u' :: 'e' :: rest) = .bool true :: scan rest := scan_token rfl rfl

theorem scan_false (rest : List Char) :
    scan ('f' :: 'a' :: 'l' :: 's' :: 'e' :: rest) = .bool false :: scan rest := scan_token rfl rfl

theorem scan_text (s : String) (rest : List Char) :
    scan (writeText s ++ rest) = .text (.written s) :: scan rest := by
  unfold writeText
  rw [List.cons_append, List.append_assoc, List.singleton_append]
  refine scan_token rfl ?_
  have quote : punctuation? '"' = none := rfl
  simp only [take, quote, if_true, QuotedText.take_written]
  rfl

theorem isDigit_cases {c : Char} (h : c.isDigit = true) :
    punctuation? c = none ∧ isSpace c = false ∧ c ≠ '"' := by
  have other : ∀ d : Char, d.isDigit = false → c ≠ d := by
    rintro d not_digit rfl
    rw [h] at not_digit
    cases not_digit
  refine ⟨?_, ?_, other '"' rfl⟩
  · unfold punctuation?
    split
    case h_7 => rfl
    all_goals cases h
  · simp only [isSpace, other ' ' rfl, other '\t' rfl, other '\n' rfl, other '\r' rfl,
      decide_false, Bool.or_self]

theorem scan_number {c : Char} {rest after : List Char} {n : Numeral}
    (first : c = '-' ∨ c.isDigit = true) (taken : Numeral.take (c :: rest) = .ok (n, after)) :
    scan (c :: rest) = .number n :: scan after := by
  have shape : punctuation? c = none ∧ isSpace c = false ∧ c ≠ '"' := by
    rcases first with rfl | digit
    · exact ⟨rfl, rfl, by decide⟩
    · exact isDigit_cases digit
  obtain ⟨punctuation, space, quote⟩ := shape
  refine scan_token space ?_
  simp only [take, punctuation, quote, if_false, first, if_true, taken]
  rfl

theorem scan_int (n : Int) {rest : List Char} (h : endsNumber rest = true) :
    scan (writeInt n ++ rest) = .number (.written n) :: scan rest := by
  have taken := Numeral.take_written n h
  obtain ⟨c, cs, shape, first⟩ : ∃ c cs, writeInt n = c :: cs ∧ (c = '-' ∨ c.isDigit = true) := by
    unfold writeInt
    split
    · exact ⟨_, _, rfl, .inl rfl⟩
    · obtain ⟨c, cs, shape, digit⟩ := Numeral.toDigits_eq_cons n.natAbs
      exact ⟨c, cs, shape, .inr digit⟩
  rw [shape, List.cons_append] at taken ⊢
  exact scan_number first taken

theorem scan_newLine (depth : Nat) (rest : List Char) :
    scan (Datum.newLine depth ++ rest) = scan rest := by
  have spaces : ∀ n, scan (List.replicate n ' ' ++ rest) = scan rest := by
    intro n
    induction n with
    | zero => rfl
    | succ n ih => exact (scan_space rfl _).trans ih
  exact (scan_space rfl _).trans (spaces (2 * depth))

end Token

theorem endsNumber_compactItems (ds : List Datum) (rest : List Char) :
    endsNumber (Datum.compactItems ds ++ rest) = true := by
  cases ds <;> rfl

theorem endsNumber_compactMembers (ms : List (String × Datum)) (rest : List Char) :
    endsNumber (Datum.compactMembers ms ++ rest) = true := by
  cases ms <;> rfl

theorem endsNumber_indentedItems (depth : Nat) (ds : List Datum) (rest : List Char) :
    endsNumber (Datum.indentedItems depth ds ++ rest) = true := by
  cases ds <;> rfl

theorem endsNumber_indentedMembers (depth : Nat) (ms : List (String × Datum))
    (rest : List Char) : endsNumber (Datum.indentedMembers depth ms ++ rest) = true := by
  cases ms <;> rfl

mutual

/-- A compact text is scanned as its tokens, whatever follows that does not go on with a number. -/
theorem scan_compact : ∀ (d : Datum) (rest : List Char), d.floatFree = true →
    endsNumber rest = true → scan (Datum.compact d ++ rest) = Datum.tokens d ++ scan rest
  | .null, rest, _, _ => scan_null rest
  | .bool true, rest, _, _ => scan_true rest
  | .bool false, rest, _, _ => scan_false rest
  | .int n, _, _, ends => scan_int n ends
  | .text s, rest, _, _ => scan_text s rest
  | .list [], rest, _, _ => by
      simp only [Datum.compact, List.cons_append, List.nil_append, Datum.tokens]
      rw [scan_punctuation rfl rfl, scan_punctuation rfl rfl]
  | .list (d :: ds), rest, free, _ => by
      obtain ⟨first, others⟩ := Bool.and_eq_true_iff.mp free
      simp only [Datum.compact, List.cons_append, List.append_assoc, Datum.tokens]
      rw [scan_punctuation rfl rfl, scan_compact d _ first (endsNumber_compactItems ds rest),
        scan_compactItems ds rest others]
  | .map [], rest, _, _ => by
      simp only [Datum.compact, List.cons_append, List.nil_append, Datum.tokens]
      rw [scan_punctuation rfl rfl, scan_punctuation rfl rfl]
  | .map ((key, d) :: ms), rest, free, _ => by
      obtain ⟨first, others⟩ := Bool.and_eq_true_iff.mp free
      simp only [Datum.compact, List.cons_append, List.append_assoc, Datum.tokens]
      rw [scan_punctuation rfl rfl, scan_text, scan_punctuation rfl rfl,
        scan_compact d _ first (endsNumber_compactMembers ms rest),
        scan_compactMembers ms rest others]

theorem scan_compactItems : ∀ (ds : List Datum) (rest : List Char),
    Datum.floatFreeItems ds = true →
      scan (Datum.compactItems ds ++ rest) = Datum.itemTokens ds ++ scan rest
  | [], rest, _ => scan_punctuation rfl rfl rest
  | d :: ds, rest, free => by
      obtain ⟨first, others⟩ := Bool.and_eq_true_iff.mp free
      simp only [Datum.compactItems, List.cons_append, List.append_assoc, Datum.itemTokens]
      rw [scan_punctuation rfl rfl, scan_compact d _ first (endsNumber_compactItems ds rest),
        scan_compactItems ds rest others]

theorem scan_compactMembers : ∀ (ms : List (String × Datum)) (rest : List Char),
    Datum.floatFreeMembers ms = true →
      scan (Datum.compactMembers ms ++ rest) = Datum.memberTokens ms ++ scan rest
  | [], rest, _ => scan_punctuation rfl rfl rest
  | (key, d) :: ms, rest, free => by
      obtain ⟨first, others⟩ := Bool.and_eq_true_iff.mp free
      simp only [Datum.compactMembers, List.cons_append, List.append_assoc, Datum.memberTokens]
      rw [scan_punctuation rfl rfl, scan_text, scan_punctuation rfl rfl,
        scan_compact d _ first (endsNumber_compactMembers ms rest),
        scan_compactMembers ms rest others]

end

mutual

/-- An indented text is scanned as the same tokens. -/
theorem scan_indented : ∀ (depth : Nat) (d : Datum) (rest : List Char), d.floatFree = true →
    endsNumber rest = true → scan (Datum.indented depth d ++ rest) = Datum.tokens d ++ scan rest
  | _, .null, rest, _, _ => scan_null rest
  | _, .bool true, rest, _, _ => scan_true rest
  | _, .bool false, rest, _, _ => scan_false rest
  | _, .int n, _, _, ends => scan_int n ends
  | _, .text s, rest, _, _ => scan_text s rest
  | _, .list [], rest, _, _ => by
      simp only [Datum.indented, List.cons_append, List.nil_append, Datum.tokens]
      rw [scan_punctuation rfl rfl, scan_punctuation rfl rfl]
  | depth, .list (d :: ds), rest, free, _ => by
      obtain ⟨first, others⟩ := Bool.and_eq_true_iff.mp free
      simp only [Datum.indented, List.cons_append, List.append_assoc, Datum.tokens]
      rw [scan_punctuation rfl rfl, scan_newLine,
        scan_indented (depth + 1) d _ first (endsNumber_indentedItems depth ds rest),
        scan_indentedItems depth ds rest others]
  | _, .map [], rest, _, _ => by
      simp only [Datum.indented, List.cons_append, List.nil_append, Datum.tokens]
      rw [scan_punctuation rfl rfl, scan_punctuation rfl rfl]
  | depth, .map ((key, d) :: ms), rest, free, _ => by
      obtain ⟨first, others⟩ := Bool.and_eq_true_iff.mp free
      simp only [Datum.indented, List.cons_append, List.append_assoc, Datum.tokens]
      rw [scan_punctuation rfl rfl, scan_newLine, scan_text, scan_punctuation rfl rfl,
        scan_space rfl,
        scan_indented (depth + 1) d _ first (endsNumber_indentedMembers depth ms rest),
        scan_indentedMembers depth ms rest others]

theorem scan_indentedItems : ∀ (depth : Nat) (ds : List Datum) (rest : List Char),
    Datum.floatFreeItems ds = true →
      scan (Datum.indentedItems depth ds ++ rest) = Datum.itemTokens ds ++ scan rest
  | depth, [], rest, _ => by
      rw [Datum.indentedItems, List.append_assoc, scan_newLine]
      exact scan_punctuation rfl rfl rest
  | depth, d :: ds, rest, free => by
      obtain ⟨first, others⟩ := Bool.and_eq_true_iff.mp free
      simp only [Datum.indentedItems, List.cons_append, List.append_assoc, Datum.itemTokens]
      rw [scan_punctuation rfl rfl, scan_newLine,
        scan_indented (depth + 1) d _ first (endsNumber_indentedItems depth ds rest),
        scan_indentedItems depth ds rest others]

theorem scan_indentedMembers : ∀ (depth : Nat) (ms : List (String × Datum)) (rest : List Char),
    Datum.floatFreeMembers ms = true →
      scan (Datum.indentedMembers depth ms ++ rest) = Datum.memberTokens ms ++ scan rest
  | depth, [], rest, _ => by
      rw [Datum.indentedMembers, List.append_assoc, scan_newLine]
      exact scan_punctuation rfl rfl rest
  | depth, (key, d) :: ms, rest, free => by
      obtain ⟨first, others⟩ := Bool.and_eq_true_iff.mp free
      simp only [Datum.indentedMembers, List.cons_append, List.append_assoc, Datum.memberTokens]
      rw [scan_punctuation rfl rfl, scan_newLine, scan_text, scan_punctuation rfl rfl,
        scan_space rfl,
        scan_indented (depth + 1) d _ first (endsNumber_indentedMembers depth ms rest),
        scan_indentedMembers depth ms rest others]

end

end Json
end ServiceDoc
