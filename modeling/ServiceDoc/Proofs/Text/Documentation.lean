import ServiceDoc.Text.Blank
import Mathlib.Data.List.DropRight
import Mathlib.Data.List.Infix

/-! Documentation and the comment that it comes from. A comment with a visible character is
documented by what stands between its blank ends, and any other one by nothing; nothing can be taken
off a documentation any more. -/
namespace ServiceDoc.Text

theorem trimChars_eq (cs : List Char) :
    trimChars cs = (cs.dropWhile isBlank).rdropWhile isBlank := rfl

theorem trimChars_within {cs : List Char} : trimChars cs <:+: cs := by
  have begins : trimChars cs <+: cs.dropWhile isBlank := List.rdropWhile_prefix _ _
  exact begins.isInfix.trans (List.dropWhile_suffix _).isInfix

/-- Only a blank start moves a trimmed text. -/
theorem trimChars_begins {cs : List Char} (visible : ∀ c ∈ cs.head?, isBlank c = false) :
    trimChars cs <+: cs := by
  have front : cs.dropWhile isBlank = cs := by
    cases cs with
    | nil => rfl
    | cons c cs => exact List.dropWhile_cons_of_neg (by simp [visible c rfl])
  rw [trimChars_eq, front]
  exact List.rdropWhile_prefix _ _

theorem trimChars_eq_nil_iff {cs : List Char} :
    trimChars cs = [] ↔ ∀ c ∈ cs, isBlank c = true := by
  rw [trimChars_eq, List.rdropWhile_eq_nil_iff]
  constructor
  · intro blank c member
    rw [← List.takeWhile_append_dropWhile (p := isBlank) (l := cs)] at member
    rcases List.mem_append.mp member with before | after
    · exact List.mem_takeWhile_imp before
    · exact blank c after
  · intro blank c member
    exact blank c (List.dropWhile_subset isBlank member)

theorem trimChars_ne_nil_iff {cs : List Char} :
    trimChars cs ≠ [] ↔ ∃ c ∈ cs, isBlank c = false := by
  simp [trimChars_eq_nil_iff]

theorem not_isBlank_head {cs : List Char} {c : Char} (h : c ∈ (trimChars cs).head?) :
    isBlank c = false := by
  obtain ⟨rest, front⟩ := List.rdropWhile_prefix isBlank (cs.dropWhile isBlank)
  have first : c ∈ (cs.dropWhile isBlank).head? := by
    rw [← front]
    exact List.mem_head?_append_of_mem_head? h
  have visible := List.head?_dropWhile_not isBlank cs
  rw [Option.mem_def.mp first] at visible
  exact visible

theorem not_isBlank_last {cs : List Char} {c : Char} (h : c ∈ (trimChars cs).getLast?) :
    isBlank c = false := by
  obtain ⟨some, rfl⟩ := List.mem_getLast?_eq_getLast h
  have visible := List.rdropWhile_last_not isBlank (cs.dropWhile isBlank) some
  exact Bool.not_eq_true _ ▸ visible

/-- A character that is not blank ends the trailing run, whatever stands before it. -/
theorem rtakeWhile_append {xs ys : List Char} (h : ∃ c ∈ ys, isBlank c = false) :
    (xs ++ ys).rtakeWhile isBlank = ys.rtakeWhile isBlank := by
  obtain ⟨c, member, visible⟩ := h
  have stops : (ys.reverse.takeWhile isBlank).length ≠ ys.reverse.length := by
    intro all
    have same := (List.takeWhile_prefix isBlank).eq_of_length all
    have blank := List.takeWhile_eq_self_iff.mp same c (List.mem_reverse.mpr member)
    rw [visible] at blank
    cases blank
  rw [List.rtakeWhile, List.reverse_append, List.takeWhile_append, if_neg stops, List.rtakeWhile]

/-- Trimming takes the longest blank run from each end. -/
theorem split_trimChars {cs : List Char} (h : trimChars cs ≠ []) :
    cs = cs.takeWhile isBlank ++ trimChars cs ++ cs.rtakeWhile isBlank := by
  have fronted : cs.takeWhile isBlank ++ cs.dropWhile isBlank = cs :=
    List.takeWhile_append_dropWhile
  have visible : ∃ c ∈ cs.dropWhile isBlank, isBlank c = false := by
    have some : ¬ ∀ c ∈ cs.dropWhile isBlank, isBlank c = true :=
      mt List.rdropWhile_eq_nil_iff.mpr h
    simpa using some
  have trailing : cs.rtakeWhile isBlank = (cs.dropWhile isBlank).rtakeWhile isBlank := by
    rw [← rtakeWhile_append visible, fronted]
  rw [trailing, trimChars_eq, List.append_assoc, List.rdropWhile_append_rtakeWhile, fronted]

theorem trimChars_trimChars (cs : List Char) : trimChars (trimChars cs) = trimChars cs := by
  have front : (trimChars cs).dropWhile isBlank = trimChars cs := by
    cases trimmed : trimChars cs with
    | nil => rfl
    | cons c rest =>
        have visible : isBlank c = false := not_isBlank_head (by rw [trimmed]; rfl)
        exact List.dropWhile_cons_of_neg (by simp [visible])
  rw [trimChars_eq (trimChars cs), front, trimChars_eq, List.rdropWhile_idempotent]

theorem documentation_eq_some_iff {comment text : String} :
    documentation comment = some text ↔
      trimChars comment.toList ≠ [] ∧ text = String.ofList (trimChars comment.toList) := by
  unfold documentation
  cases trimChars comment.toList with
  | nil => simp
  | cons c rest => simp [eq_comm]

/-- A text that a comment comes to: the comment without its longest blank runs at both ends. -/
structure Trimmed (comment text : String) : Prop where
  whole : comment.toList =
    comment.toList.takeWhile isBlank ++ text.toList ++ comment.toList.rtakeWhile isBlank
  part : text.toList <:+: comment.toList
  visible : text ≠ ""
  first : ∀ c ∈ text.toList.head?, isBlank c = false
  last : ∀ c ∈ text.toList.getLast?, isBlank c = false
  settled : documentation text = some text

/-- What a comment documents: it is there if the comment has a visible character. -/
structure Documents (comment : String) (docs : Option String) : Prop where
  present : docs.isSome = true ↔ ∃ c ∈ comment.toList, isBlank c = false
  trimmed : ∀ text ∈ docs, Trimmed comment text

theorem trimmed_of_documentation {comment text : String} (h : documentation comment = some text) :
    Trimmed comment text := by
  obtain ⟨some, rfl⟩ := documentation_eq_some_iff.mp h
  have split := split_trimChars some
  refine ⟨?_, ?_, ?_, ?_, ?_, ?_⟩
  · rwa [String.toList_ofList]
  · rw [String.toList_ofList]
    exact ⟨_, _, split.symm⟩
  · intro empty
    exact some (by rw [← String.toList_ofList (l := trimChars comment.toList), empty]; rfl)
  · rw [String.toList_ofList]
    exact fun c => not_isBlank_head
  · rw [String.toList_ofList]
    exact fun c => not_isBlank_last
  · rw [documentation_eq_some_iff, String.toList_ofList, trimChars_trimChars]
    exact ⟨some, rfl⟩

theorem documents_documentation (comment : String) :
    Documents comment (documentation comment) := by
  refine ⟨?_, fun text => trimmed_of_documentation⟩
  rw [← trimChars_ne_nil_iff, Option.isSome_iff_exists]
  constructor
  · rintro ⟨text, found⟩
    exact (documentation_eq_some_iff.mp found).1
  · intro some
    exact ⟨_, documentation_eq_some_iff.mpr ⟨some, rfl⟩⟩

end ServiceDoc.Text
