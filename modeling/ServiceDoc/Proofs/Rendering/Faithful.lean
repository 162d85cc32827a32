import ServiceDoc.Proofs.OpenApi.Faithful
import ServiceDoc.Proofs.Rendering.Comment
import ServiceDoc.Proofs.Yaml.Faithful

/-! Rendered documents are told apart. Nothing but the mark of its lines divides a header from the
text of a document; as that text never begins with the mark, a reader still finds where the header
ends. -/
namespace ServiceDoc

theorem commentLine_append (line rest : List Char) :
    commentLine line ++ rest = '#' :: ' ' :: (line ++ '\n' :: rest) := by
  simp [commentLine]

/-- Marked lines are peeled off one by one, up to the first text without a mark. -/
theorem commentLines_unique {as bs : List (List Char)} (ha : ∀ line ∈ as, '\n' ∉ line)
    (hb : ∀ line ∈ bs, '\n' ∉ line) {r s : List Char} (hr : r.head? ≠ some '#')
    (hs : s.head? ≠ some '#')
    (h : as.flatMap commentLine ++ r = bs.flatMap commentLine ++ s) : as = bs ∧ r = s := by
  induction as generalizing bs with
  | nil =>
      cases bs with
      | nil => exact ⟨rfl, h⟩
      | cons line bs =>
          rw [List.flatMap_cons, List.append_assoc, commentLine_append] at h
          exact absurd (congrArg List.head? h) hr
  | cons line as ih =>
      rw [List.flatMap_cons, List.append_assoc, commentLine_append] at h
      cases bs with
      | nil => exact absurd (congrArg List.head? h.symm) hs
      | cons line' bs =>
          rw [List.flatMap_cons, List.append_assoc, commentLine_append] at h
          rw [List.forall_mem_cons] at ha hb
          obtain ⟨rfl, later⟩ :=
            Yaml.line_unique ha.1 hb.1 (List.cons.inj (List.cons.inj h).2).2
          obtain ⟨rfl, rest⟩ := ih ha.2 hb.2 later
          exact ⟨rfl, rest⟩

theorem headerChars_unique {as bs : List (List Char)} (ha : ∀ line ∈ as, '\n' ∉ line)
    (hb : ∀ line ∈ bs, '\n' ∉ line) {r s : List Char} (hr : r.head? ≠ some '#')
    (hs : s.head? ≠ some '#') (h : headerChars as ++ r = headerChars bs ++ s) :
    as = bs ∧ r = s := by
  have unmarked (lines : List (List Char)) {t : List Char} (ht : t.head? ≠ some '#') :
      ((if lines = [] then [] else ['\n']) ++ t).head? ≠ some '#' := by
    split
    · exact ht
    · exact nofun
  unfold headerChars at h
  rw [List.append_assoc, List.append_assoc] at h
  obtain ⟨rfl, rest⟩ := commentLines_unique ha hb (unmarked as hr) (unmarked bs hs) h
  exact ⟨rfl, List.append_cancel_left rest⟩

/-- The text of a document begins with its first key. -/
theorem head_write_document (d : OpenApi.Document) :
    (Yaml.write d.toDatum).toList.head? = some 'o' := by
  have key : Yaml.keyText 0 "openapi" = "openapi:".toList := by decide
  obtain ⟨ms, shape⟩ : ∃ ms, d.toDatum = .map (("openapi", .text d.openapi) :: ms) := ⟨_, rfl⟩
  rw [Yaml.toList_write d.worded_toDatum, shape]
  change (Yaml.membersText [] 0 (("openapi", .text d.openapi) :: ms)).head? = some 'o'
  rw [Yaml.membersText, key]
  rfl

theorem lines_eq_iff {s t : String} :
    Text.lines s = Text.lines t ↔ Text.lineChars s.toList = Text.lineChars t.toList := by
  have injective : Function.Injective String.ofList := fun _ _ => String.ofList_inj.mp
  exact injective.list_map.eq_iff

theorem toList_render (d : OpenApi.Document) (comment : String) :
    (render d comment).toList =
      headerChars (Text.lineChars comment.toList) ++ (Yaml.write d.toDatum).toList := by
  rw [render, String.toList_append, toList_commentHeader]

/-- Two rendered texts are the same exactly if their comments have the same lines and the texts of
their documents are the same; and these are the same for one document only, down to every field and
to the order of every list and table. -/
theorem render_tells_apart (d e : OpenApi.Document) (comment other : String) :
    (render d comment = render e other ↔
      Text.lines comment = Text.lines other ∧ Yaml.write d.toDatum = Yaml.write e.toDatum) ∧
    (Yaml.write d.toDatum = Yaml.write e.toDatum ↔ d = e) := by
  have unmarked (d : OpenApi.Document) : (Yaml.write d.toDatum).toList.head? ≠ some '#' := by
    rw [head_write_document]
    decide
  constructor
  · rw [lines_eq_iff, ← String.toList_inj, ← String.toList_inj, toList_render, toList_render]
    constructor
    · exact headerChars_unique (fun _ => feed_not_mem_lineChars) (fun _ => feed_not_mem_lineChars)
        (unmarked d) (unmarked e)
    · rintro ⟨lines, body⟩
      rw [lines, body]
  · constructor
    · intro h
      exact OpenApi.Document.toDatum_injective
        (Yaml.eq_of_write d.worded_toDatum e.worded_toDatum h)
    · rintro rfl
      rfl

end ServiceDoc
