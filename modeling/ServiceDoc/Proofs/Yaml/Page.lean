import ServiceDoc.Proofs.Worded
import ServiceDoc.Proofs.Yaml.Printed
import ServiceDoc.Proofs.Yaml.Style

/-! What the writer leaves on a page. It keeps the column and two flags, from which it tells whether a
line has to end before the next thing; wherever a node ends these are in one of two states, and in both
the next thing is put at its column after a line end. So a page holds the text of its data. -/
namespace ServiceDoc.Yaml

open Page (doubleChar literalEnd)

theorem textColumn_pos (indent : Option Nat) : 0 < textColumn indent := by
  cases indent <;> exact Nat.succ_pos _

namespace Page

/-- The text with the end of the line that the page stands in. -/
def finished (p : Page) : List Char := lineEnd p.atIndent ++ p.text

/-- Where a node has ended: within a line, or before a new one. -/
def Settled (p : Page) : Prop := p.atIndent = true → p.column = 0 ∧ p.afterSpace = true

/-- From `p` on, lines have been written down to `q`. -/
structure Lays (p : Page) (cs : List Char) (q : Page) : Prop where
  settled : q.Settled
  finished : q.finished = cs.reverse ++ p.text

/-- From `p` on, something has been written without a line's end. -/
structure Adds (p : Page) (cs : List Char) (q : Page) : Prop where
  text : q.text = cs.reverse ++ p.text
  within : q.atIndent = false

/-- At a column and ready for something there. -/
def atColumn (text : List Char) (column : Nat) : Page := ⟨text, column, true, true⟩

theorem Adds.lays {p q : Page} {cs : List Char} (h : p.Adds cs q) : p.Lays (cs ++ ['\n']) q where
  settled := fun indented => absurd (h.within.symm.trans indented) Bool.false_ne_true
  finished := by simp [Page.finished, h.within, h.text]

theorem putAll_eq (p : Page) (cs : List Char) :
    p.putAll cs = { p with text := cs.reverse ++ p.text, column := p.column + cs.length } := by
  induction cs generalizing p with
  | nil => rfl
  | cons c cs ih =>
      change (p.put c).putAll cs = _
      rw [ih]
      simp [put, Nat.add_comm, Nat.add_left_comm]

/-- On a line that is not past a column, spaces lead there. -/
theorem indent_within {p : Page} {column : Nat} (indented : p.atIndent = true)
    (before : p.column < column ∨ p.column = column ∧ p.afterSpace = true) :
    p.indent column = atColumn (spaces (column - p.column) ++ p.text) column := by
  have stay : (!p.atIndent || decide (column < p.column) ||
      (p.column == column && !p.afterSpace)) = false := by
    rcases before with less | ⟨same, spaced⟩
    · simp [indented, Nat.not_lt.mpr (Nat.le_of_lt less), Nat.ne_of_lt less]
    · simp [indented, same, spaced]
  have reached : p.column + (column - p.column) = column := by omega
  rw [indent, stay, if_neg Bool.false_ne_true, putAll_eq]
  simp [atColumn, spaces, reached]

theorem indent_after {p : Page} (within : p.atIndent = false) (column : Nat) :
    p.indent column = atColumn (spaces column ++ '\n' :: p.text) column := by
  simp [indent, within, putAll_eq, putBreak, atColumn, spaces]

theorem indent_settled {p : Page} (h : p.Settled) (column : Nat) :
    p.indent column = atColumn (spaces column ++ p.finished) column := by
  cases within : p.atIndent with
  | false =>
      rw [indent_after within, finished, within]
      rfl
  | true =>
      obtain ⟨start, spaced⟩ := h within
      have before : p.column < column ∨ p.column = column ∧ p.afterSpace = true := by
        rw [start]
        rcases Nat.eq_zero_or_pos column with rfl | positive
        · exact .inr ⟨rfl, spaced⟩
        · exact .inl positive
      rw [indent_within within before, start, finished, within, Nat.sub_zero]
      rfl

/-! ### Scalars on a page -/

/-- A space parts a scalar from what comes before it. -/
def gapAfter (p : Page) : List Char := if p.afterSpace then [] else [' ']

theorem reverse_gapAfter (p : Page) : p.gapAfter.reverse = p.gapAfter := by
  unfold gapAfter
  split <;> rfl

theorem mark_text (p : Page) (cs : List Char) (needsSpace endsSpace indents : Bool) :
    (p.mark cs needsSpace endsSpace indents).text =
      cs.reverse ++ ((if needsSpace then p.gapAfter else []) ++ p.text) := by
  cases needsSpace <;> cases spaced : p.afterSpace <;>
    simp [mark, gapAfter, putAll_eq, put, spaced]

theorem writePlain_adds (p : Page) {cs : List Char} (h : cs ≠ []) :
    p.Adds (p.gapAfter ++ cs) (p.writePlain cs) where
  text := by
    cases spaced : p.afterSpace <;> simp [writePlain, inText, gapAfter, putAll_eq, put, spaced, h]
  within := rfl

theorem writeDouble_adds (p : Page) (cs : List Char) :
    p.Adds (p.gapAfter ++ '"' :: (cs.flatMap doubleChar ++ ['"'])) (p.writeDouble cs) where
  text := by
    have shape (q : Page) : q.inText.text = q.text := rfl
    cases spaced : p.afterSpace <;>
      simp [writeDouble, shape, mark_text, gapAfter, putAll_eq, spaced]
  within := rfl

/-- What a text over several lines keeps between its characters. -/
structure Between (p : Page) (broken : Bool) : Prop where
  start : broken = true → p.column = 0
  indented : p.atIndent = broken

theorem resume_text {p : Page} {broken : Bool} (h : Between p broken) {column : Nat}
    (positive : 0 < column) :
    (if broken then p.indent column else p).text = margin column broken ++ p.text := by
  cases broken with
  | false => rfl
  | true =>
      have start := h.start rfl
      rw [if_pos rfl, indent_within h.indented (.inl (start ▸ positive)), start]
      rfl

/-- A character is written as lines at a column have it. -/
def StepsAt (column : Nat) (after : Char → List Char) (step : Page × Bool → Char → Page × Bool)
    (c : Char) : Prop :=
  ∀ (p : Page) (broken : Bool), Between p broken → ∃ q, step (p, broken) c = (q, isBreak c) ∧
    Between q (isBreak c) ∧ q.text = (linesAt column after broken [c]).reverse ++ p.text ∧
    (p.afterSpace = true → q.afterSpace = true)

/-- A whole text is written character by character. -/
theorem foldl_linesAt {column : Nat} {after : Char → List Char}
    {step : Page × Bool → Char → Page × Bool} {cs : List Char}
    (steps : ∀ c ∈ cs, StepsAt column after step c) {p : Page} {broken : Bool}
    (between : Between p broken) :
    ∃ q, cs.foldl step (p, broken) = (q, endsBroken broken cs) ∧
      Between q (endsBroken broken cs) ∧
      q.text = (linesAt column after broken cs).reverse ++ p.text ∧
      (p.afterSpace = true → q.afterSpace = true) := by
  induction cs generalizing p broken with
  | nil => exact ⟨p, rfl, between, rfl, id⟩
  | cons c cs ih =>
      obtain ⟨first, others⟩ := List.forall_mem_cons.mp steps
      obtain ⟨q, next, between, text, spaced⟩ := first p broken between
      obtain ⟨last, rest, ended, whole, spaced'⟩ := ih others between
      refine ⟨last, ?_, ended, ?_, spaced' ∘ spaced⟩
      · rw [List.foldl_cons, next, rest]
        rfl
      · rw [whole, text, linesAt_cons column after broken c cs]
        simp

theorem putSingle_stepsAt {column : Nat} (positive : 0 < column) {c : Char} (feed : c ≠ '\n') :
    StepsAt column secondQuote (putSingle column) c := by
  intro p broken between
  cases ends : isBreak c with
  | true =>
      refine ⟨{ p.putBreak c with atIndent := true }, ?_, ⟨fun _ => rfl, rfl⟩, ?_, id⟩
      · simp [putSingle, ends, feed]
      · rw [linesAt_break ends]
        rfl
  | false =>
      have resumed := resume_text between positive
      refine ⟨_, by rw [putSingle, ends, if_neg Bool.false_ne_true], ⟨nofun, rfl⟩, ?_, ?_⟩
      · rw [linesAt_char ends]
        by_cases quote : c = '\'' <;>
          simp [linesAt, secondQuote, quote, put, resumed, reverse_margin]
      · cases broken <;> by_cases quote : c = '\'' <;> simp [quote, put, indent]

theorem putLiteral_stepsAt {column : Nat} (positive : 0 < column) (c : Char) :
    StepsAt column (fun _ => []) (putLiteral column) c := by
  intro p broken between
  cases ends : isBreak c with
  | true =>
      refine ⟨{ p.putBreak c with atIndent := true }, ?_, ⟨fun _ => rfl, rfl⟩, ?_, id⟩
      · simp [putLiteral, ends]
      · rw [linesAt_break ends]
        rfl
  | false =>
      have resumed := resume_text between positive
      refine ⟨_, by rw [putLiteral, ends, if_neg Bool.false_ne_true], ⟨nofun, rfl⟩, ?_, ?_⟩
      · rw [linesAt_char ends]
        simp [linesAt, put, resumed, reverse_margin]
      · cases broken <;> simp [put, indent]

theorem writeSingle_adds (p : Page) {column : Nat} (positive : 0 < column) {cs : List Char}
    (single : '\n' ∉ cs) :
    p.Adds (p.gapAfter ++ '\'' :: singleLines column cs) (p.writeSingle column cs) where
  text := by
    have steps : ∀ c ∈ cs, StepsAt column secondQuote (putSingle column) c := fun c member =>
      putSingle_stepsAt positive fun same => single (same ▸ member)
    have between : Between (p.mark ['\''] true false false) false :=
      ⟨nofun, Bool.and_false _⟩
    obtain ⟨q, whole, between, text, -⟩ := foldl_linesAt steps between
    rw [writeSingle, whole]
    change ((if endsBroken false cs then q.indent column else q).mark
      ['\''] false false false).text = _
    rw [mark_text, resume_text between positive, text, mark_text]
    simp [singleLines, reverse_margin, reverse_gapAfter]
  within := rfl

theorem writeLiteral_lays (p : Page) {column : Nat} (positive : 0 < column) (cs : List Char) :
    p.Lays (p.gapAfter ++ (Scalar.literal cs).lines column) (p.writeLiteral column cs) := by
  -- after the mark the page is at the start of a line, which is all that the lines below it need
  obtain ⟨q, text, start, indented, spaced, shape⟩ : ∃ q : Page,
      q.text = '\n' :: (literalMark cs).reverse ++ (p.gapAfter ++ p.text) ∧ q.column = 0 ∧
        q.atIndent = true ∧ q.afterSpace = true ∧
        p.writeLiteral column cs = (cs.foldl (putLiteral column) (q, true)).1 := by
    refine ⟨_, ?_, rfl, rfl, rfl, rfl⟩
    simp only [putBreak]
    cases hinted : startsWith (fun c => c = ' ' || isBreak c) cs <;>
      cases ending : literalEnd cs <;> simp [mark_text, literalMark, hinted, ending]
  obtain ⟨last, whole, between, lines, after⟩ :=
    foldl_linesAt (fun c _ => putLiteral_stepsAt positive c) ⟨fun _ => start, indented⟩
  rw [shape, whole]
  refine ⟨fun ended => ⟨between.start (between.indented ▸ ended), after spaced⟩, ?_⟩
  rw [finished, between.indented, lines, text]
  cases ended : endsBroken true cs <;>
    simp [Scalar.lines, Scalar.inline, Scalar.body, literalLines, ended, reverse_gapAfter]

theorem writeText_adds (p : Page) {column : Nat} (positive : 0 < column) {s : String}
    {simpleKey : Bool} (other : styleOf s simpleKey ≠ .literal) :
    p.Adds (p.gapAfter ++ (Scalar.ofText s simpleKey).inline column)
      (p.writeText column s simpleKey) := by
  unfold writeText Scalar.ofText
  cases style : styleOf s simpleKey with
  | plain =>
      obtain ⟨c, rest, shape, -⟩ := (bare_of_plain style).head
      exact writePlain_adds p (shape ▸ List.cons_ne_nil c rest)
  | single => exact writeSingle_adds p positive (styleOf_eq_single style).1
  | double => exact writeDouble_adds p s.toList
  | literal => exact absurd style other

theorem writeText_lays (p : Page) {column : Nat} (positive : 0 < column) (s : String)
    (simpleKey : Bool) :
    p.Lays (p.gapAfter ++ (Scalar.ofText s simpleKey).lines column)
      (p.writeText column s simpleKey) := by
  by_cases style : styleOf s simpleKey = .literal
  · unfold writeText Scalar.ofText
    rw [style]
    exact writeLiteral_lays p positive s.toList
  · have inline : (Scalar.ofText s simpleKey).lines column =
        (Scalar.ofText s simpleKey).inline column ++ ['\n'] := by
      unfold Scalar.ofText
      cases same : styleOf s simpleKey <;> first | rfl | exact absurd same style
    rw [inline, ← List.append_assoc]
    exact (writeText_adds p positive style).lays

/-! ### Nodes on a page -/

/-- How a page is when a node is written at a place. -/
def StandsAt (p : Page) : Place → Prop
  | .top => p = {}
  | .mark column => p.column = column + 1 ∧ p.afterSpace = false ∧ p.atIndent = true
  | .key _ => p.afterSpace = false ∧ p.atIndent = false

theorem StandsAt.gap {p : Page} {place : Place} (h : p.StandsAt place) : p.gapAfter = place.gap := by
  cases place with
  | top =>
      obtain rfl := h
      rfl
  | mark column => simp [gapAfter, Place.gap, h.2.1]
  | key column => simp [gapAfter, Place.gap, h.1]

theorem StandsAt.indent {p : Page} {place : Place} (h : p.StandsAt place) {column : Nat}
    (block : column = place.itemColumn ∨ column = inner place.indent) :
    p.indent column = atColumn ((place.lead column).reverse ++ p.text) column := by
  cases place with
  | top =>
      obtain rfl := h
      obtain rfl : column = 0 := block.elim id id
      rfl
  | mark start =>
      obtain ⟨reached, -, indented⟩ := h
      obtain rfl : column = start + 2 := block.elim id id
      have one : start + 2 - p.column = 1 := by omega
      rw [indent_within indented (.inl (by omega)), one]
      rfl
  | key start =>
      rw [indent_after h.2]
      simp [Place.lead, reverse_spaces]

theorem gapAfter_atColumn (text : List Char) (column : Nat) :
    (atColumn text column).gapAfter = [] := rfl

/-- A mark at a column is one step from it. -/
theorem mark_atColumn (text : List Char) (column : Nat) (c : Char) (needsSpace : Bool) :
    (atColumn text column).mark [c] needsSpace false true =
      ⟨c :: text, column + 1, false, true⟩ := by
  cases needsSpace <;> rfl

/-- A key leads to the place of its value. -/
theorem writeKey_standsAt {p : Page} {column : Nat} {text : List Char}
    (h : p.indent column = atColumn text column) (key : String) :
    (p.writeKey column key).StandsAt (valuePlace column key) ∧
      (p.writeKey column key).text = (keyText column key).reverse ++ text := by
  have condition : (!isMultiline key.toList && key.utf8ByteSize ≤ 128) = isSimpleKey key := rfl
  have positive : 0 < column + 2 := by omega
  rw [writeKey, h, condition, valuePlace, keyText]
  cases isSimpleKey key with
  | true =>
      have other : styleOf key true ≠ .literal := fun style =>
        Bool.noConfusion (styleOf_eq_literal style).2
      have written := (writeText_adds (atColumn text column) positive other).text
      refine ⟨⟨rfl, Bool.and_false _⟩, ?_⟩
      rw [if_pos rfl, mark_text, written, gapAfter_atColumn]
      simp [atColumn]
  | false =>
      obtain ⟨settled, finished⟩ :=
        writeText_lays ⟨'?' :: text, column + 1, false, true⟩ positive key false
      simp only [mark_atColumn, Bool.false_eq_true, if_false, indent_settled settled, finished]
      refine ⟨⟨rfl, rfl, rfl⟩, ?_⟩
      simp [gapAfter, reverse_spaces]

/-- A word is a node that is written as it is. -/
theorem StandsAt.plain_lays {p : Page} {place : Place} (h : p.StandsAt place) {cs : List Char}
    (some : cs ≠ []) :
    p.Lays (place.gap ++ (Scalar.bare cs).lines (textColumn place.indent)) (p.writePlain cs) := by
  have written := (writePlain_adds p some).lays
  rwa [h.gap, List.append_assoc] at written

/-- The two marks of an empty collection. -/
theorem StandsAt.empty_lays {p : Page} {place : Place} (h : p.StandsAt place) (start stop : Char) :
    p.Lays (place.gap ++ (Scalar.bare [start, stop]).lines (textColumn place.indent))
      ((p.mark [start] true true false).mark [stop] false false false) := by
  have written : p.Adds (place.gap ++ [start, stop])
      ((p.mark [start] true true false).mark [stop] false false false) := by
    refine ⟨?_, Bool.and_false _⟩
    rw [mark_text, mark_text, if_pos rfl, h.gap]
    cases place <;> rfl
  have ended := written.lays
  rwa [List.append_assoc] at ended

theorem StandsAt.itemColumn_eq {p : Page} {place : Place} (h : p.StandsAt place) {inMap : Bool}
    (inside : p.atIndent = false → inMap = true) :
    (if inMap && !p.atIndent then place.indent.getD 0 else inner place.indent) =
      place.itemColumn := by
  cases place with
  | top =>
      obtain rfl := h
      cases inMap <;> rfl
  | mark column => simp [h.2.2, Place.indent, inner, Place.itemColumn]
  | key column => simp [h.2, inside h.2, Place.indent, Place.itemColumn]

mutual

theorem writeNode_lays : ∀ (d : Datum), d.Worded → ∀ (inMap : Bool) {p : Page} {place : Place},
    p.StandsAt place → (p.atIndent = false → inMap = true) →
      p.Lays (nodeText place d) (writeNode p place.indent inMap d)
  | .bool b, _, _, _, _, h, _ => by
      refine h.plain_lays ?_
      cases b <;> exact List.cons_ne_nil _ _
  | .text s, _, _, p, place, h, _ => by
      have written := writeText_lays p (textColumn_pos place.indent) s false
      rwa [h.gap] at written
  | .list [], _, _, _, _, h, _ => h.empty_lays '[' ']'
  | .map [], _, _, _, _, h, _ => h.empty_lays '\x7b' '\x7d'
  | .list (d :: ds), worded, inMap, p, place, h, inside => by
      have written := writeItems_lays (d :: ds) worded.item (h.indent (.inl rfl)) nofun
      rw [← h.itemColumn_eq inside] at written
      rw [nodeText, ← h.itemColumn_eq inside]
      exact ⟨written.1, written.2⟩
  | .map (m :: ms), worded, _, p, place, h, _ => by
      have written := writeMembers_lays (m :: ms) worded.member (h.indent (.inr rfl)) nofun
      exact ⟨written.1, written.2⟩

/-- A block of items is written from its column on; only when it is empty, what has been written
before it has to end on its own. -/
theorem writeItems_lays : ∀ (ds : List Datum), (∀ d ∈ ds, d.Worded) →
    ∀ {p : Page} {column : Nat} {lead text : List Char},
    p.indent column = atColumn (lead.reverse ++ text) column →
      (ds = [] → p.Settled ∧ p.finished = text) →
        (writeItems p column ds).Settled ∧
          (writeItems p column ds).finished = (itemsText lead column ds).reverse ++ text
  | [], _, _, _, _, _, _, done => done rfl
  | d :: ds, worded, p, column, lead, text, h, _ => by
      obtain ⟨first, others⟩ := List.forall_mem_cons.mp worded
      have stands : (⟨'-' :: (lead.reverse ++ text), column + 1, false, true⟩ : Page).StandsAt
          (.mark column) := ⟨rfl, rfl, rfl⟩
      obtain ⟨settled, finished⟩ := writeNode_lays d first false stands nofun
      have next := indent_settled settled column
      rw [finished, ← reverse_spaces] at next
      have rest := writeItems_lays ds others next fun _ => ⟨settled, finished⟩
      rw [writeItems, h, mark_atColumn]
      refine ⟨rest.1, rest.2.trans ?_⟩
      simp [itemsText]

theorem writeMembers_lays : ∀ (ms : List (String × Datum)), (∀ m ∈ ms, m.2.Worded) →
    ∀ {p : Page} {column : Nat} {lead text : List Char},
    p.indent column = atColumn (lead.reverse ++ text) column →
      (ms = [] → p.Settled ∧ p.finished = text) →
        (writeMembers p column ms).Settled ∧
          (writeMembers p column ms).finished = (membersText lead column ms).reverse ++ text
  | [], _, _, _, _, _, _, done => done rfl
  | (key, d) :: ms, worded, p, column, lead, text, h, _ => by
      obtain ⟨first, others⟩ := List.forall_mem_cons.mp worded
      obtain ⟨stands, written⟩ := writeKey_standsAt h key
      obtain ⟨settled, finished⟩ := writeNode_lays d first true stands fun _ => rfl
      rw [indent_valuePlace, written] at finished
      rw [indent_valuePlace] at settled
      have next := indent_settled settled column
      rw [finished, ← reverse_spaces] at next
      have rest := writeMembers_lays ms others next fun _ => ⟨settled, finished⟩
      rw [writeMembers]
      refine ⟨rest.1, rest.2.trans ?_⟩
      simp [membersText]

end

end Page

/-- A whole text is what its data leave on an empty page. -/
theorem toList_write {d : Datum} (h : d.Worded) : (write d).toList = nodeText .top d := by
  have stands : ({} : Page).StandsAt .top := rfl
  obtain ⟨settled, finished⟩ := Page.writeNode_lays d h false stands nofun
  rw [write, String.toList_ofList]
  change ((writeNode {} Place.top.indent false d).indent 0).text.reverse = nodeText .top d
  rw [Page.indent_settled settled, finished]
  simp [Page.atColumn, spaces]

end ServiceDoc.Yaml
