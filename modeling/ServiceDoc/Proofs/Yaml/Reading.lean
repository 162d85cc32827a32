import ServiceDoc.Proofs.Yaml.Escape
import ServiceDoc.Proofs.Yaml.Printed
import ServiceDoc.Proofs.Yaml.Style
import Mathlib.Data.List.Basic

/-! Written scalars are told apart. A reader that sees a scalar and what comes after it has one way
only to say where the scalar ends and what it is. Each proof takes two scalars with what comes after
them and peels the same text from both sides. -/
namespace ServiceDoc.Yaml

open Page (literalEnd)

/-! ### Spaces -/

theorem spaces_append_inj {i j : Nat} {x y : Char} (hx : x ≠ ' ') (hy : y ≠ ' ') {s t : List Char}
    (h : spaces i ++ x :: s = spaces j ++ y :: t) : i = j ∧ x = y ∧ s = t := by
  induction i generalizing j with
  | zero =>
      cases j with
      | zero => exact ⟨rfl, List.cons.inj h⟩
      | succ j => exact absurd (List.cons.inj h).1 hx
  | succ i ih =>
      cases j with
      | zero => exact absurd (List.cons.inj h).1.symm hy
      | succ j =>
          obtain ⟨rfl, same⟩ := ih (List.cons.inj h).2
          exact ⟨rfl, same⟩

/-- Breaks do not come where a margin is. -/
theorem margin_append_ne {column : Nat} {broken : Bool} {x c : Char} (other : isBreak x = false)
    (ends : isBreak c = true) (s t : List Char) : margin column broken ++ x :: s ≠ c :: t := by
  intro h
  have head : c = x ∨ c = ' ' := by
    cases broken with
    | false => exact .inl (List.cons.inj h).1.symm
    | true =>
        cases column with
        | zero => exact .inl (List.cons.inj h).1.symm
        | succ n => exact .inr (List.cons.inj h).1.symm
  rcases head with rfl | rfl
  · exact Bool.noConfusion (ends.symm.trans other)
  · cases ends

/-! ### What comes after a scalar -/

/-- A scalar within a line ends with the line or at the mark of a key. -/
inductive Stops : List Char → Prop where
  | line (rest : List Char) : Stops ('\n' :: rest)
  | mark {c : Char} (h : c = ' ' ∨ c = '\n') (rest : List Char) : Stops (':' :: c :: rest)

theorem Stops.ne_quote {cs : List Char} (h : Stops cs) : cs.head? ≠ some '\'' := by
  cases h <;> exact fun same => nomatch same

/-- What comes after lines at a column stands before that column. -/
def Below (column : Nat) (cs : List Char) : Prop :=
  cs = [] ∨ ∃ i c rest, i < column ∧ cs = spaces i ++ c :: rest ∧ c ≠ ' ' ∧ isBreak c = false

theorem Below.mono {i j : Nat} {cs : List Char} (h : Below i cs) (le : i ≤ j) : Below j cs := by
  rcases h with none | ⟨k, c, rest, less, shape⟩
  · exact .inl none
  · exact .inr ⟨k, c, rest, Nat.lt_of_lt_of_le less le, shape⟩

theorem Below.ne_break {column : Nat} {cs : List Char} (h : Below column cs) {c : Char}
    (ends : isBreak c = true) (rest : List Char) : cs ≠ c :: rest := by
  rcases h with rfl | ⟨i, d, after, -, rfl, -, other⟩
  · exact (List.cons_ne_nil c rest).symm
  · have margins : margin i true ++ d :: after ≠ c :: rest := margin_append_ne other ends after rest
    exact margins

theorem Below.ne_spaces {column i : Nat} {cs : List Char} (h : Below column cs) (le : column ≤ i)
    {c : Char} (rest : List Char) : cs ≠ spaces i ++ c :: rest := by
  rintro rfl
  rcases h with none | ⟨j, d, after, less, shape, space, -⟩
  · exact absurd (List.append_eq_nil_iff.mp none).2 (List.cons_ne_nil c rest)
  · obtain ⟨k, rfl⟩ : ∃ k, i = j + (k + 1) := ⟨i - j - 1, by omega⟩
    rw [spaces, List.replicate_add, List.append_assoc] at shape
    exact space (List.cons.inj (List.append_cancel_left shape)).1.symm

/-- The first line of a text can be told from the others. -/
theorem line_unique {as bs r s : List Char} (ha : '\n' ∉ as) (hb : '\n' ∉ bs)
    (h : as ++ '\n' :: r = bs ++ '\n' :: s) : as = bs ∧ r = s := by
  induction as generalizing bs with
  | nil =>
      cases bs with
      | nil => exact ⟨rfl, (List.cons.inj h).2⟩
      | cons d bs => exact absurd ((List.cons.inj h).1 ▸ List.mem_cons_self) hb
  | cons c as ih =>
      cases bs with
      | nil => exact absurd ((List.cons.inj h).1 ▸ List.mem_cons_self) ha
      | cons d bs =>
          rw [List.mem_cons, not_or] at ha hb
          obtain ⟨rfl, later⟩ := List.cons.inj h
          obtain ⟨rfl, rest⟩ := ih ha.2 hb.2 later
          exact ⟨rfl, rest⟩

/-! ### Bare texts -/

theorem Stops.nil_of_bare {a b x r s : List Char} (bare : Bare b) (hb : b = a ++ x) (hr : Stops r)
    (h : r = x ++ s) : x = [] := by
  cases x with
  | nil => rfl
  | cons c x =>
      exfalso
      cases hr with
      | line rest =>
          obtain ⟨rfl, -⟩ := List.cons.inj h
          exact bare.line (hb ▸ by simp)
      | mark other rest =>
          obtain ⟨rfl, same⟩ := List.cons.inj h
          have clear := bare.colon x.head? (hb ▸ mem_withNext a ':' x)
          cases x with
          | nil => cases clear
          | cons d x =>
              obtain ⟨rfl, -⟩ := List.cons.inj same
              rcases other with rfl | rfl <;> cases clear

theorem bare_unique {a b r s : List Char} (ha : Bare a) (hb : Bare b) (hr : Stops r) (hs : Stops s)
    (h : a ++ r = b ++ s) : a = b ∧ r = s := by
  -- one of the two is the longer, and what it has more of is nothing
  rcases List.append_eq_append_iff.mp h with ⟨x, longer, rest⟩ | ⟨x, longer, rest⟩
  · obtain rfl := Stops.nil_of_bare hb longer hr rest
    exact ⟨by rw [longer, List.append_nil], rest⟩
  · obtain rfl := Stops.nil_of_bare ha longer hs rest
    exact ⟨by rw [longer, List.append_nil], rest.symm⟩

/-! ### Lines at a column -/

/-- Margins can be told from what comes after them, if they are alike or no space comes after them. -/
theorem margin_unique {i j : Nat} {broken : Bool} {x y : Char} {r s : List Char}
    (start : i = j ∨ (broken = true → x ≠ ' ' ∧ y ≠ ' '))
    (h : margin i broken ++ x :: r = margin j broken ++ y :: s) : x = y ∧ r = s := by
  rcases start with rfl | start
  · exact List.cons.inj (List.append_cancel_left h)
  · cases broken with
    | false => exact List.cons.inj h
    | true => exact (spaces_append_inj (start rfl).1 (start rfl).2 h).2

theorem linesAt_char_append {c : Char} (other : isBreak c = false) (column : Nat)
    (after : Char → List Char) (broken : Bool) (cs r : List Char) :
    linesAt column after broken (c :: cs) ++ r =
      margin column broken ++ c :: (after c ++ (linesAt column after false cs ++ r)) := by
  rw [linesAt_char other]
  simp

/-- Texts over several lines are peeled off character by character. -/
theorem linesAt_step {i j : Nat} {after : Char → List Char} {broken : Bool} {c d : Char}
    {as bs r s : List Char} (start : i = j ∨ (broken = true → c ≠ ' ' ∧ d ≠ ' '))
    (h : linesAt i after broken (c :: as) ++ r = linesAt j after broken (d :: bs) ++ s) :
    c = d ∧ linesAt i after (isBreak c) as ++ r = linesAt j after (isBreak c) bs ++ s := by
  cases ends : isBreak c with
  | true =>
      rw [linesAt_break ends] at h
      cases ends' : isBreak d with
      | true =>
          rw [linesAt_break ends'] at h
          exact List.cons.inj h
      | false =>
          rw [linesAt_char_append ends'] at h
          exact absurd h.symm (margin_append_ne ends' ends _ _)
  | false =>
      rw [linesAt_char_append ends] at h
      cases ends' : isBreak d with
      | true =>
          rw [linesAt_break ends'] at h
          exact absurd h (margin_append_ne ends ends' _ _)
      | false =>
          rw [linesAt_char_append ends'] at h
          obtain ⟨rfl, later⟩ := margin_unique start h
          exact ⟨rfl, List.append_cancel_left later⟩

/-! ### Single quotes -/

/-- No line but the first begins with a space. -/
structure Flush (broken : Bool) (cs : List Char) : Prop where
  start : broken = true → cs.head? ≠ some ' '
  later : spaceAfterBreak cs = false

theorem Flush.first {cs : List Char} (h : spaceAfterBreak cs = false) : Flush false cs :=
  ⟨nofun, h⟩

theorem Flush.tail {broken : Bool} {c : Char} {cs : List Char} (h : Flush broken (c :: cs)) :
    Flush (isBreak c) cs := by
  have later := h.later
  rw [spaceAfterBreak_cons, Bool.or_eq_false_iff] at later
  refine ⟨fun ends => ?_, later.2⟩
  simpa [ends] using later.1

theorem Flush.head {broken : Bool} {c : Char} {cs : List Char} (h : Flush broken (c :: cs))
    (ends : broken = true) : c ≠ ' ' := fun same => h.start ends (congrArg some same)

/-- Only a quote that is not followed by another one ends a text. -/
theorem quote_ne_linesAt {i j : Nat} {broken : Bool} {c : Char} {cs r : List Char}
    (flush : Flush broken (c :: cs)) (stop : r.head? ≠ some '\'') (s : List Char) :
    margin i broken ++ '\'' :: r ≠ linesAt j secondQuote broken (c :: cs) ++ s := by
  intro h
  cases ends : isBreak c with
  | true =>
      rw [linesAt_break ends] at h
      exact margin_append_ne rfl ends r _ h
  | false =>
      rw [linesAt_char_append ends] at h
      obtain ⟨rfl, rfl⟩ := margin_unique (.inr fun broke => ⟨by decide, flush.head broke⟩) h
      exact stop rfl

theorem singleLines_append (column : Nat) (cs r : List Char) :
    singleLines column cs ++ r =
      linesAt column secondQuote false cs ++ (margin column (endsBroken false cs) ++ '\'' :: r) := by
  simp [singleLines]

theorem quoted_unique {i j : Nat} {broken : Bool} {as bs r s : List Char}
    (ha : Flush broken as) (hb : Flush broken bs) (hr : r.head? ≠ some '\'')
    (hs : s.head? ≠ some '\'')
    (h : linesAt i secondQuote broken as ++ (margin i (endsBroken broken as) ++ '\'' :: r) =
      linesAt j secondQuote broken bs ++ (margin j (endsBroken broken bs) ++ '\'' :: s)) :
    as = bs ∧ r = s := by
  induction as generalizing bs broken with
  | nil =>
      cases bs with
      | nil => exact ⟨rfl, (margin_unique (.inr fun _ => ⟨by decide, by decide⟩) h).2⟩
      | cons d bs => exact absurd h (quote_ne_linesAt hb hr _)
  | cons c as ih =>
      cases bs with
      | nil => exact absurd h.symm (quote_ne_linesAt ha hs _)
      | cons d bs =>
          -- the columns may differ, so it is the first character of a line that ends its margin
          obtain ⟨rfl, later⟩ := linesAt_step (.inr fun broke => ⟨ha.head broke, hb.head broke⟩) h
          obtain ⟨rfl, rest⟩ := ih ha.tail hb.tail later
          exact ⟨rfl, rest⟩

theorem singleLines_unique {i j : Nat} {as bs r s : List Char} (ha : spaceAfterBreak as = false)
    (hb : spaceAfterBreak bs = false) (hr : r.head? ≠ some '\'') (hs : s.head? ≠ some '\'')
    (h : singleLines i as ++ r = singleLines j bs ++ s) : as = bs ∧ r = s := by
  rw [singleLines_append, singleLines_append] at h
  exact quoted_unique (.first ha) (.first hb) hr hs h

/-! ### Literals -/

theorem endsBroken_concat (broken : Bool) (cs : List Char) (c : Char) :
    endsBroken broken (cs ++ [c]) = isBreak c := by
  induction cs generalizing broken with
  | nil => rfl
  | cons d cs ih => exact ih (isBreak d)

theorem literalEnd_cases (cs : List Char) :
    literalEnd cs = ['-'] ∨ literalEnd cs = ['+'] ∨ literalEnd cs = [] := by
  unfold literalEnd
  split
  · exact .inl rfl
  · split
    · exact .inl rfl
    · split
      · exact .inr (.inl rfl)
      · split
        · exact .inr (.inl rfl)
        · exact .inr (.inr rfl)

theorem literalEnd_eq_dash_iff {cs : List Char} (some : cs ≠ []) :
    literalEnd cs = ['-'] ↔ endsBroken true cs = false := by
  obtain ⟨front, last, rfl⟩ := cs.eq_nil_or_concat'.resolve_left some
  rw [endsBroken_concat, literalEnd, List.reverse_append]
  cases ends : isBreak last with
  | false => simp [ends]
  | true =>
      cases front.reverse with
      | nil => simp [ends]
      | cons c before => cases before' : isBreak c <;> simp [ends, before']

theorem literalEnd_eq_filter (cs : List Char) :
    literalEnd cs = (literalMark cs).filter fun c => c = '-' || c = '+' := by
  unfold literalMark
  rcases literalEnd_cases cs with h | h | h <;> rw [h] <;> split <;> rfl

theorem endsBroken_of_mark {as bs : List Char} (ha : as ≠ []) (hb : bs ≠ [])
    (h : literalMark as = literalMark bs) : endsBroken true as = endsBroken true bs := by
  have ends : literalEnd as = literalEnd bs := by
    rw [literalEnd_eq_filter, h, ← literalEnd_eq_filter]
  have both : endsBroken true as = false ↔ endsBroken true bs = false := by
    rw [← literalEnd_eq_dash_iff ha, ← literalEnd_eq_dash_iff hb, ends]
  exact Bool.eq_iff_iff.mpr (by simpa using not_congr both)

theorem feed_not_mem_literalMark (cs : List Char) : '\n' ∉ literalMark cs := by
  unfold literalMark
  rcases literalEnd_cases cs with h | h | h <;> rw [h] <;> split <;> decide

/-- Lines at a column do not go on with what stands before it. -/
theorem Below.ne_linesAt {column : Nat} {r : List Char} (h : Below column r)
    (after : Char → List Char) (c : Char) (cs s : List Char) :
    r ≠ linesAt column after true (c :: cs) ++ s := by
  cases ends : isBreak c with
  | true => exact linesAt_break ends column after true cs ▸ h.ne_break ends _
  | false =>
      rw [linesAt_char_append ends]
      exact h.ne_spaces (Nat.le_refl column) _

theorem lineEnd_ne_linesAt {column : Nat} {broken : Bool} {c : Char} {cs r : List Char}
    (below : Below column r) (same : broken = endsBroken broken (c :: cs))
    (after : Char → List Char) (s : List Char) :
    lineEnd broken ++ r ≠ linesAt column after broken (c :: cs) ++ s := by
  cases broken with
  | true => exact below.ne_linesAt after c cs s
  | false =>
      cases ends : isBreak c with
      | false =>
          rw [linesAt_char_append ends]
          exact (margin_append_ne ends rfl _ _).symm
      | true =>
          -- the end of the last line is a break of the other text, which then has another line
          rw [linesAt_break ends]
          intro h
          obtain ⟨rfl, later⟩ := List.cons.inj h
          cases cs with
          | nil => cases same
          | cons d cs => exact below.ne_linesAt after d cs s later

theorem ended_unique {column : Nat} {after : Char → List Char} {broken : Bool}
    {as bs r s : List Char} (hr : Below column r) (hs : Below column s)
    (same : endsBroken broken as = endsBroken broken bs)
    (h : linesAt column after broken as ++ (lineEnd (endsBroken broken as) ++ r) =
      linesAt column after broken bs ++ (lineEnd (endsBroken broken bs) ++ s)) :
    as = bs ∧ r = s := by
  induction as generalizing bs broken with
  | nil =>
      cases bs with
      | nil => exact ⟨rfl, List.append_cancel_left h⟩
      | cons d bs => exact absurd h (lineEnd_ne_linesAt hr same after _)
  | cons c as ih =>
      cases bs with
      | nil => exact absurd h.symm (lineEnd_ne_linesAt hs same.symm after _)
      | cons d bs =>
          obtain ⟨rfl, later⟩ := linesAt_step (.inl rfl) h
          obtain ⟨rfl, rest⟩ := ih same later
          exact ⟨rfl, rest⟩

theorem literalLines_unique {column : Nat} {as bs r s : List Char} (hr : Below column r)
    (hs : Below column s) (same : endsBroken true as = endsBroken true bs)
    (h : literalLines column as ++ r = literalLines column bs ++ s) : as = bs ∧ r = s := by
  rw [literalLines, literalLines, List.append_assoc, List.append_assoc] at h
  exact ended_unique hr hs same h

/-! ### Scalars -/

namespace Scalar

/-- What the text of a scalar has to be so that a reader finds it again. -/
inductive Readable : Scalar → Prop where
  | bare {cs : List Char} (h : Bare cs) : Readable (.bare cs)
  | single {cs : List Char} (h : spaceAfterBreak cs = false) : Readable (.single cs)
  | double (cs : List Char) : Readable (.double cs)
  | literal {cs : List Char} (h : cs ≠ []) : Readable (.literal cs)

theorem readable_ofText (s : String) (simpleKey : Bool) : (ofText s simpleKey).Readable := by
  unfold ofText
  cases style : styleOf s simpleKey with
  | plain => exact .bare (bare_of_plain style)
  | single => exact .single (spaceAfterBreak_of_single (styleOf_eq_single style).2)
  | double => exact .double s.toList
  | literal => exact .literal (ne_nil_of_literal (styleOf_eq_literal style).1)

/-- The mark that a scalar begins with. -/
def mark : Scalar → Option Char
  | bare _ => none
  | single _ => some '\''
  | double _ => some '"'
  | literal _ => some '|'

theorem mark_eq_head {s : Scalar} (h : s.Readable) (column : Nat) (r : List Char) :
    (s.inline column ++ r).head?.filter isQuote = s.mark := by
  cases h with
  | bare h =>
      obtain ⟨c, rest, rfl, -, -, quote, -⟩ := h.head
      simp [inline, mark, quote]
  | single h => rfl
  | double cs => rfl
  | literal h => rfl

/-- Scalars with the same text begin with the same mark. -/
theorem mark_unique {a b : Scalar} (ha : a.Readable) (hb : b.Readable) {i j : Nat}
    {r s : List Char} (h : a.inline i ++ r = b.inline j ++ s) : a.mark = b.mark := by
  rw [← mark_eq_head ha i r, h, mark_eq_head hb]

theorem inline_unique {a b : Scalar} (ha : a.Readable) (hb : b.Readable) {i j : Nat}
    {r s : List Char} (hr : Stops r) (hs : Stops s) (within : a.mark ≠ some '|')
    (h : a.inline i ++ r = b.inline j ++ s) : a = b ∧ r = s := by
  have marks := mark_unique ha hb h
  cases ha with
  | bare bare =>
      cases hb with
      | bare bare' =>
          obtain ⟨rfl, rest⟩ := bare_unique bare bare' hr hs h
          exact ⟨rfl, rest⟩
      | single | double | literal => cases marks
  | single later =>
      cases hb with
      | single later' =>
          obtain ⟨rfl, rest⟩ := singleLines_unique later later' hr.ne_quote hs.ne_quote
            (List.cons.inj h).2
          exact ⟨rfl, rest⟩
      | bare | double | literal => cases marks
  | double cs =>
      cases hb with
      | double ds =>
          have texts : cs.flatMap Page.doubleChar ++ '"' :: r =
              ds.flatMap Page.doubleChar ++ '"' :: s := by
            simpa [inline] using h
          obtain ⟨rfl, rest⟩ := Page.doubleChars_unique texts
          exact ⟨rfl, rest⟩
      | bare | single | literal => cases marks
  | literal some => exact absurd rfl within

theorem lines_append (s : Scalar) (column : Nat) (r : List Char) :
    s.lines column ++ r = s.inline column ++ '\n' :: (s.body column ++ r) :=
  List.append_assoc ..

theorem exists_literal {s : Scalar} (h : s.mark = some '|') : ∃ cs, s = literal cs := by
  cases s with
  | literal cs => exact ⟨cs, rfl⟩
  | bare | single | double => cases h

theorem lines_unique {a b : Scalar} (ha : a.Readable) (hb : b.Readable) {column : Nat}
    {r s : List Char} (hr : Below column r) (hs : Below column s)
    (h : a.lines column ++ r = b.lines column ++ s) : a = b ∧ r = s := by
  rw [lines_append, lines_append] at h
  have marks := mark_unique ha hb h
  by_cases within : a.mark = some '|'
  · obtain ⟨cs, rfl⟩ := exists_literal within
    obtain ⟨ds, rfl⟩ := exists_literal (marks.symm.trans within)
    cases ha with
    | literal some =>
        cases hb with
        | literal some' =>
            obtain ⟨top, below⟩ :=
              line_unique (feed_not_mem_literalMark cs) (feed_not_mem_literalMark ds) h
            obtain ⟨rfl, rest⟩ := literalLines_unique hr hs (endsBroken_of_mark some some' top) below
            exact ⟨rfl, rest⟩
  · obtain ⟨rfl, rest⟩ := inline_unique ha hb (.line _) (.line _) within h
    exact ⟨rfl, List.append_cancel_left (List.cons.inj rest).2⟩

/-- A scalar begins with a character, and none begins as an item or a marked key does. -/
theorem inline_head {s : Scalar} (h : s.Readable) (column : Nat) (r : List Char) :
    ∃ c rest, s.inline column ++ r = c :: rest ∧ c ≠ ' ' ∧ isBreak c = false := by
  cases h with
  | bare h =>
      obtain ⟨c, rest, rfl, space, other, -⟩ := h.head
      exact ⟨c, rest ++ r, rfl, space, other⟩
  | single h => exact ⟨'\'', _, rfl, by decide, rfl⟩
  | double cs => exact ⟨'"', _, rfl, by decide, rfl⟩
  | literal h => exact ⟨'|', _, rfl, by decide, rfl⟩

theorem inline_ne_marked {s : Scalar} (h : s.Readable) {c : Char} (sign : c = '-' ∨ c = '?')
    (column : Nat) (r rest : List Char) : s.inline column ++ r ≠ c :: ' ' :: rest := by
  intro same
  have marks : s.mark = none := by
    rw [← mark_eq_head h column r, same]
    rcases sign with rfl | rfl <;> rfl
  cases h with
  | bare bare =>
      obtain ⟨d, later, rfl, -, -, -, clear⟩ := bare.head
      obtain ⟨rfl, next⟩ := List.cons.inj same
      cases later with
      | nil => cases clear sign
      | cons e later =>
          obtain ⟨rfl, -⟩ := List.cons.inj next
          cases clear sign
  | single | double | literal => cases marks

end Scalar
end ServiceDoc.Yaml
