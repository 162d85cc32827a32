import ServiceDoc.Generation
import Mathlib.Data.List.Chain

/-! The comment that heads a rendered document. A comment is divided at line feeds only, while YAML
takes a carriage return alone for the end of a line too. What follows one in a comment therefore
starts a line of the document's text without a mark before it. -/
namespace ServiceDoc.Yaml

/-- Lines of YAML: a line feed, a carriage return or both in this order end one. -/
def lines : List Char → List (List Char)
  | [] => []
  | c :: rest =>
    if c = '\n' then [] :: lines rest
    else if c = '\r' then if rest.head? = some '\n' then lines rest else [] :: lines rest
    else
      match lines rest with
      | [] => [[c]]
      | line :: more => (c :: line) :: more

theorem lines_cons {c : Char} (feed : c ≠ '\n') (back : c ≠ '\r') {rest line : List Char}
    {more : List (List Char)} (h : lines rest = line :: more) :
    lines (c :: rest) = (c :: line) :: more := by
  rw [lines, if_neg feed, if_neg back, h]

theorem exists_lines_feed (front rest : List Char) :
    ∃ line more, lines (front ++ '\n' :: rest) = line :: more := by
  induction front with
  | nil => exact ⟨[], lines rest, rfl⟩
  | cons c front ih =>
      obtain ⟨line, more, h⟩ := ih
      rw [List.cons_append, lines, h]
      split
      · exact ⟨_, _, rfl⟩
      · split
        · split
          · exact ⟨_, _, rfl⟩
          · exact ⟨_, _, rfl⟩
        · exact ⟨_, _, rfl⟩

/-- After a line feed lines start anew. -/
theorem lines_append (front rest : List Char) :
    lines (front ++ '\n' :: rest) = lines (front ++ ['\n']) ++ lines rest := by
  induction front with
  | nil => rfl
  | cons c front ih =>
      have next : (front ++ '\n' :: rest).head? = (front ++ ['\n']).head? := by
        cases front <;> rfl
      rw [List.cons_append, List.cons_append, lines, lines, ih, next]
      split
      · rfl
      · split
        · split <;> rfl
        · obtain ⟨line, more, h⟩ := exists_lines_feed front []
          rw [h]
          rfl

end ServiceDoc.Yaml

namespace ServiceDoc

/-! ### The header -/

/-- A line of a comment as the header has it. -/
def commentLine (line : List Char) : List Char := '#' :: ' ' :: line ++ ['\n']

def headerChars (lines : List (List Char)) : List Char :=
  lines.flatMap commentLine ++ if lines = [] then [] else ['\n']

theorem toList_commentHeader (comment : String) :
    (commentHeader comment).toList = headerChars (Text.lineChars comment.toList) := by
  have each (line : List Char) :
      ("# " ++ String.ofList line ++ "\n").toList = commentLine line := by
    simp [commentLine]
  unfold commentHeader Text.lines headerChars
  cases Text.lineChars comment.toList with
  | nil => rfl
  | cons line more =>
      change (String.join (((line :: more).map String.ofList).map fun l => "# " ++ l ++ "\n") ++
        "\n").toList = (line :: more).flatMap commentLine ++ ['\n']
      rw [String.toList_append, String.toList_join, List.map_map, List.flatMap_map]
      simp only [Function.comp_apply, each]
      rfl

/-- No line of a text holds a line feed. -/
theorem feed_not_mem_lineChars {cs line : List Char} (h : line ∈ Text.lineChars cs) :
    '\n' ∉ line := by
  induction cs using Text.lineChars.induct generalizing line with
  | case1 => cases h
  | case2 rest ih =>
      rcases List.mem_cons.mp h with rfl | h
      · exact List.not_mem_nil
      · exact ih h
  | case3 rest ih =>
      rcases List.mem_cons.mp h with rfl | h
      · exact List.not_mem_nil
      · exact ih h
  | case4 c rest feed both none ih =>
      rw [Text.lineChars, none] at h
      · cases List.mem_singleton.mp h
        exact fun member => feed (List.mem_singleton.mp member).symm
      · exact feed
      · exact both
  | case5 c rest feed both first more found ih =>
      rw [Text.lineChars, found] at h
      · rw [found] at ih
        rcases List.mem_cons.mp h with rfl | h
        · intro member
          rcases List.mem_cons.mp member with same | member
          · exact feed same.symm
          · exact ih List.mem_cons_self member
        · exact ih (List.mem_cons_of_mem first h)
      · exact feed
      · exact both

/-! ### Returns within a line -/

/-- What may come after a carriage return so that no line starts there without a mark. -/
def Guards (c next : Char) : Prop := c = '\r' → next = '\r' ∨ next = '\n' ∨ next = '#'

/-- A line that says nothing to a reader of the document. -/
def IsComment (line : List Char) : Prop := line = [] ∨ line.head? = some '#'

theorem guards_of_ne {c : Char} (other : c ≠ '\r') (next : Char) : Guards c next :=
  fun same => absurd same other

theorem guarded_cons {c : Char} (other : c ≠ '\r') (cs : List Char) :
    (c :: cs).IsChain Guards ↔ cs.IsChain Guards := by
  cases cs with
  | nil => simp
  | cons d cs => exact List.isChain_cons_cons.trans (and_iff_right (guards_of_ne other d))

theorem lineChars_eq_nil {cs : List Char} (h : Text.lineChars cs = []) : cs = [] := by
  unfold Text.lineChars at h
  split at h
  · rfl
  · cases h
  · cases h
  · split at h <;> cases h

/-- A text begins as its first line does, unless that is empty. -/
theorem head_of_lineChars {cs first : List Char} {more : List (List Char)}
    (h : Text.lineChars cs = first :: more) :
    cs.head? = first.head? ∨ first = [] ∧ (cs.head? = some '\n' ∨ cs.head? = some '\r') := by
  unfold Text.lineChars at h
  split at h
  · cases h
  · cases h
    exact .inr ⟨rfl, .inl rfl⟩
  · cases h
    exact .inr ⟨rfl, .inr rfl⟩
  · split at h
    · cases h
      exact .inl rfl
    · cases h
      exact .inl rfl

/-- A text's returns are guarded if those of its lines are. -/
theorem guarded_lineChars (cs : List Char) :
    (∀ line ∈ Text.lineChars cs, line.IsChain Guards) ↔ cs.IsChain Guards := by
  induction cs using Text.lineChars.induct with
  | case1 => simp [Text.lineChars]
  | case2 rest ih =>
      rw [guarded_cons (by decide), ← ih]
      simp [Text.lineChars]
  | case3 rest ih =>
      rw [List.isChain_cons_cons, guarded_cons (by decide), ← ih]
      simp [Text.lineChars, Guards]
  | case4 c rest feed both none ih =>
      obtain rfl := lineChars_eq_nil none
      rw [Text.lineChars, none]
      · simp
      · exact feed
      · exact both
  | case5 c rest feed both first more found ih =>
      rw [found, List.forall_mem_cons] at ih
      rw [Text.lineChars, found, List.forall_mem_cons, List.isChain_cons, List.isChain_cons, ← ih,
        and_assoc]
      · refine and_congr_left' ?_
        rcases head_of_lineChars found with same | ⟨rfl, feed | back⟩
        · rw [same]
        · simp [feed, Guards]
        · simp [back, Guards]
      · exact feed
      · exact both

/-- After a return the next line begins with what comes next in the text, unless it is empty. -/
theorem isComment_first_iff {d : Char} (feed : d ≠ '\n') {rest first : List Char}
    {more : List (List Char)} (h : Yaml.lines (d :: rest) = first :: more) :
    IsComment first ↔ Guards '\r' d := by
  rw [Yaml.lines, if_neg feed] at h
  by_cases back : d = '\r'
  · subst back
    suffices first = [] by simp [IsComment, Guards, this]
    rw [if_pos rfl] at h
    split at h
    next fed =>
      obtain ⟨after, rfl⟩ := List.head?_eq_some_iff.mp fed
      exact (List.cons.inj h).1.symm
    next => exact (List.cons.inj h).1.symm
  · suffices first.head? = some d by
      simp [IsComment, Guards, feed, back, this, ← List.head?_eq_none_iff]
    rw [if_neg back] at h
    split at h
    next => rw [← (List.cons.inj h).1, List.head?_cons]
    next => rw [← (List.cons.inj h).1, List.head?_cons]

/-- The lines that a line of a comment gives to a reader, but the first, are comments if its returns
are guarded. -/
theorem comment_tail_iff {line : List Char} (whole : '\n' ∉ line) :
    (∀ l ∈ (Yaml.lines (line ++ ['\n'])).tail, IsComment l) ↔ line.IsChain Guards := by
  induction line with
  | nil => simp [Yaml.lines]
  | cons c line ih =>
      rw [List.mem_cons, not_or] at whole
      obtain ⟨first, more, found⟩ := Yaml.exists_lines_feed line []
      have ih := ih whole.2
      rw [found, List.tail_cons] at ih
      by_cases back : c = '\r'
      · subst back
        cases line with
        | nil => simp [Yaml.lines]
        | cons d line =>
            rw [List.mem_cons, not_or] at whole
            have feed : d ≠ '\n' := Ne.symm whole.2.1
            have next : Yaml.lines ('\r' :: d :: line ++ ['\n']) = [] :: first :: more := by
              rw [← found]
              simp [Yaml.lines, feed]
            rw [next, List.tail_cons, List.forall_mem_cons, ih, List.isChain_cons_cons,
              isComment_first_iff feed found]
      · rw [List.cons_append, Yaml.lines_cons (Ne.symm whole.1) back found, List.tail_cons, ih,
          guarded_cons back]

theorem commentLine_iff {line : List Char} (whole : '\n' ∉ line) :
    (∀ l ∈ Yaml.lines (commentLine line), IsComment l) ↔ line.IsChain Guards := by
  obtain ⟨first, more, found⟩ := Yaml.exists_lines_feed line []
  have tail := comment_tail_iff whole
  rw [found, List.tail_cons] at tail
  have shape : Yaml.lines (commentLine line) = ('#' :: ' ' :: first) :: more :=
    Yaml.lines_cons (by decide) (by decide) (Yaml.lines_cons (by decide) (by decide) found)
  rw [shape, List.forall_mem_cons, tail]
  exact and_iff_right (.inr rfl)

theorem lines_commentLine_append (line rest : List Char) :
    Yaml.lines (commentLine line ++ rest) = Yaml.lines (commentLine line) ++ Yaml.lines rest := by
  have shape : commentLine line ++ rest = ('#' :: ' ' :: line) ++ '\n' :: rest := by
    simp [commentLine]
  rw [shape, Yaml.lines_append]
  rfl

theorem lines_commentLines_append (lines : List (List Char)) (rest : List Char) :
    Yaml.lines (lines.flatMap commentLine ++ rest) =
      lines.flatMap (fun line => Yaml.lines (commentLine line)) ++ Yaml.lines rest := by
  induction lines with
  | nil => rfl
  | cons line more ih =>
      rw [List.flatMap_cons, List.append_assoc, lines_commentLine_append, ih, List.flatMap_cons,
        List.append_assoc]

/-- A header's lines are those of the comment's and the empty one, whatever comes after it. -/
theorem lines_headerChars_append (lines : List (List Char)) (rest : List Char) :
    Yaml.lines (headerChars lines ++ rest) =
      lines.flatMap (fun line => Yaml.lines (commentLine line)) ++
        (if lines = [] then [] else [[]]) ++ Yaml.lines rest := by
  unfold headerChars
  rw [List.append_assoc, lines_commentLines_append, List.append_assoc]
  split <;> rfl

theorem lines_headerChars (lines : List (List Char)) :
    Yaml.lines (headerChars lines) =
      lines.flatMap (fun line => Yaml.lines (commentLine line)) ++ if lines = [] then [] else [[]] := by
  have whole := lines_headerChars_append lines []
  rwa [List.append_nil, Yaml.lines, List.append_nil] at whole

theorem headerChars_iff {lines : List (List Char)} (whole : ∀ line ∈ lines, '\n' ∉ line) :
    (∀ l ∈ Yaml.lines (headerChars lines), IsComment l) ↔ ∀ line ∈ lines, line.IsChain Guards := by
  have last : ∀ l ∈ (if lines = [] then [] else [[]] : List (List Char)), IsComment l := by
    split <;> simp [IsComment]
  rw [lines_headerChars, List.forall_mem_append, and_iff_left last]
  constructor
  · intro all line member
    refine (commentLine_iff (whole line member)).mp fun l inside => all l ?_
    exact List.mem_flatMap.mpr ⟨line, member, inside⟩
  · intro all l inside
    obtain ⟨line, member, inside⟩ := List.mem_flatMap.mp inside
    exact (commentLine_iff (whole line member)).mpr (all line member) l inside

/-- The text of a document is a header and the document's own text, also line by line. The header has
only empty lines and lines with a mark in front exactly if in the comment nothing but another return,
a line feed or a mark comes after a carriage return. -/
theorem header_is_comment_iff (d : OpenApi.Document) (comment : String) :
    ∃ header, render d comment = header ++ Yaml.write d.toDatum ∧
      Yaml.lines (render d comment).toList =
        Yaml.lines header.toList ++ Yaml.lines (Yaml.write d.toDatum).toList ∧
      ((∀ line ∈ Yaml.lines header.toList, line = [] ∨ line.head? = some '#') ↔
        comment.toList.IsChain fun c next => c = '\r' → next = '\r' ∨ next = '\n' ∨ next = '#') := by
  refine ⟨commentHeader comment, rfl, ?_, ?_⟩
  · rw [render, String.toList_append, toList_commentHeader, lines_headerChars_append,
      lines_headerChars]
  · rw [toList_commentHeader]
    refine (headerChars_iff fun line => feed_not_mem_lineChars).trans ?_
    exact guarded_lineChars comment.toList

/-- After the return a line of the document's text starts with what the comment goes on with. -/
theorem comment_escapes :
    ¬ ∀ (d : OpenApi.Document) (comment : String), ∃ header,
      render d comment = header ++ Yaml.write d.toDatum ∧
        ∀ line ∈ Yaml.lines header.toList, line = [] ∨ line.head? = some '#' := by
  intro all
  obtain ⟨header, shape, marked⟩ := all {} "made by\rtags: x"
  have same : commentHeader "made by\rtags: x" = header :=
    (String.append_left_inj _).mp shape
  subst same
  revert marked
  decide +kernel

end ServiceDoc
