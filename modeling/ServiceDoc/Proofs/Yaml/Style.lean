import ServiceDoc.Yaml.Scalar

/-! What a style asks of the text that is written in it. A text that does not meet a style's demands
is sent on to another one, in the end to double quotes, which ask for nothing. -/
namespace ServiceDoc.Yaml

/-- A style that is not the one a text is sent on to was its style before. -/
theorem kept_of_ite {c : Bool} {sent style result : Style}
    (h : (if c then sent else style) = result) (other : result ≠ sent) :
    c = false ∧ style = result := by
  cases c with
  | false => exact ⟨rfl, h⟩
  | true => exact absurd h.symm other

theorem wantedStyle_of_feed {s : String} (h : '\n' ∈ s.toList) : wantedStyle s = .literal :=
  if_pos (List.contains_iff_mem.mpr h)

theorem wantedStyle_eq_plain {s : String} (h : wantedStyle s = .plain) :
    '\n' ∉ s.toList ∧ isKeyword s = false := by
  refine ⟨fun feed => ?_, ?_⟩
  · rw [wantedStyle_of_feed feed] at h
    cases h
  · obtain ⟨-, h⟩ := kept_of_ite h (by decide)
    obtain ⟨plain, -⟩ := kept_of_ite h (by decide)
    simp only [Bool.or_eq_false_iff] at plain
    exact plain.1.1.1.1

theorem styleOf_eq_plain {s : String} {simpleKey : Bool} (h : styleOf s simpleKey = .plain) :
    wantedStyle s = .plain ∧ plainAllowed s.toList = true := by
  obtain ⟨-, h⟩ := kept_of_ite h (by decide)
  obtain ⟨-, h⟩ := kept_of_ite h (by decide)
  obtain ⟨allowed, h⟩ := kept_of_ite h (by decide)
  obtain ⟨-, wanted⟩ := kept_of_ite h (by decide)
  rw [h, decide_eq_true rfl, Bool.true_and, Bool.not_eq_false'] at allowed
  exact ⟨wanted, allowed⟩

/-- A text with a line feed is never sent on to single quotes. -/
theorem styleOf_eq_single {s : String} {simpleKey : Bool} (h : styleOf s simpleKey = .single) :
    '\n' ∉ s.toList ∧ singleAllowed s.toList = true := by
  obtain ⟨-, h⟩ := kept_of_ite h (by decide)
  obtain ⟨allowed, h⟩ := kept_of_ite h (by decide)
  rw [h, decide_eq_true rfl, Bool.true_and, Bool.not_eq_false'] at allowed
  refine ⟨fun feed => ?_, allowed⟩
  rw [wantedStyle_of_feed feed] at h
  cases multiline : simpleKey && isMultiline s.toList <;> simp [multiline] at h

theorem styleOf_eq_literal {s : String} {simpleKey : Bool} (h : styleOf s simpleKey = .literal) :
    literalAllowed s.toList = true ∧ simpleKey = false := by
  obtain ⟨allowed, h⟩ := kept_of_ite h (by decide)
  rw [h, decide_eq_true rfl, Bool.true_and, Bool.or_eq_false_iff, Bool.not_eq_false'] at allowed
  exact allowed

/-! ### Neighbours -/

theorem withNext_cons (c : Char) (cs : List Char) :
    withNext (c :: cs) = (c, cs.head?) :: withNext cs := by
  cases cs <;> rfl

theorem mem_withNext (front : List Char) (c : Char) (rest : List Char) :
    (c, rest.head?) ∈ withNext (front ++ c :: rest) := by
  induction front with
  | nil => exact withNext_cons c rest ▸ List.mem_cons_self
  | cons d front ih =>
      rw [List.cons_append, withNext_cons]
      exact List.mem_cons_of_mem _ ih

theorem spaceAfterBreak_cons (c : Char) (cs : List Char) :
    spaceAfterBreak (c :: cs) = (isBreak c && cs.head? == some ' ' || spaceAfterBreak cs) := by
  cases cs with
  | nil => simp [spaceAfterBreak, withPrevious]
  | cons d cs => simp [spaceAfterBreak, withPrevious, Bool.beq_eq_decide_eq]

/-! ### Bare texts -/

/-- Marks that say how a scalar is written. -/
def isQuote (c : Char) : Bool := c = '\'' || c = '"' || c = '|'

/-- What a reader needs of a text that is written as it is: nothing in it ends it, and nothing in
front of it says that it is something else. -/
structure Bare (cs : List Char) : Prop where
  line : '\n' ∉ cs
  colon : ∀ next, (':', next) ∈ withNext cs → separatorOrEnd next = false
  head : ∃ c rest, cs = c :: rest ∧ c ≠ ' ' ∧ isBreak c = false ∧ isQuote c = false ∧
    (c = '-' ∨ c = '?' → separatorOrEnd rest.head? = false)

theorem bare_of_clear {c : Char} {cs : List Char} (feed : '\n' ∉ c :: cs) (colon : ':' ∉ c :: cs)
    (first : c ≠ ' ' ∧ isBreak c = false ∧ isQuote c = false ∧ c ≠ '-' ∧ c ≠ '?') :
    Bare (c :: cs) := by
  obtain ⟨space, ends, quote, dash, question⟩ := first
  refine ⟨feed, fun next member => ?_, c, cs, rfl, space, ends, quote, fun sign => ?_⟩
  · exact absurd (List.of_mem_zip member).1 colon
  · exact absurd sign (not_or.mpr ⟨dash, question⟩)

theorem indicators_of_cons {c : Char} {rest : List Char} (h : hasIndicator (c :: rest) = false) :
    "#,[]\x7b\x7d&*!|>'\"%@`".toList.contains c = false ∧
      (['?', ':', '-'].contains c && separatorOrEnd rest.head?) = false ∧
      ∀ next, (':', next) ∈ withNext rest → separatorOrEnd next = false := by
  rw [hasIndicator, withNext_cons] at h
  simp only [Bool.or_eq_false_iff, List.any_eq_false] at h
  obtain ⟨⟨-, ⟨marks, first⟩, later⟩, -⟩ := h
  refine ⟨marks, first, fun next member => ?_⟩
  simpa using later _ member

theorem bare_of_plain {s : String} {simpleKey : Bool} (h : styleOf s simpleKey = .plain) :
    Bare s.toList := by
  obtain ⟨wanted, allowed⟩ := styleOf_eq_plain h
  obtain ⟨line, word⟩ := wantedStyle_eq_plain wanted
  simp only [plainAllowed, Bool.not_eq_true', Bool.or_eq_false_iff] at allowed
  obtain ⟨⟨⟨⟨⟨⟨⟨⟨space, -⟩, ends⟩, -⟩, -⟩, -⟩, -⟩, -⟩, clear⟩ := allowed
  cases shape : s.toList with
  | nil =>
      obtain rfl : s = "" := String.toList_eq_nil_iff.mp shape
      cases word
  | cons c rest =>
      rw [shape] at line space ends clear
      obtain ⟨marks, first, later⟩ := indicators_of_cons clear
      refine ⟨line, fun next member => ?_, c, rest, rfl, ?_, ?_, ?_, ?_⟩
      · rw [withNext_cons] at member
        rcases List.mem_cons.mp member with same | member
        · obtain ⟨rfl, rfl⟩ := Prod.mk.inj same
          simpa using first
        · exact later next member
      · simpa [startsWith, isSpace] using space
      · simpa [startsWith] using ends
      · refine Bool.eq_false_iff.mpr fun quote => ?_
        simp only [isQuote, Bool.or_eq_true, decide_eq_true_eq, or_assoc] at quote
        rcases quote with rfl | rfl | rfl <;> cases marks
      · intro sign
        rcases sign with rfl | rfl <;> simpa using first

/-! ### Scalars that are read as they were meant -/

theorem spaceAfterBreak_of_single {cs : List Char} (h : singleAllowed cs = true) :
    spaceAfterBreak cs = false := by
  simp only [singleAllowed, Bool.not_eq_true', Bool.or_eq_false_iff] at h
  exact h.1.1

theorem ne_nil_of_literal {cs : List Char} (h : literalAllowed cs = true) : cs ≠ [] := by
  rintro rfl
  cases h

end ServiceDoc.Yaml
