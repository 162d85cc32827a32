import ServiceDoc.Proofs.Files.Tree

/-! Paths as what their names say. Empty names and dots do not move, and all that is made of a path
on the way to it moves along the path: the directories that lead to it pass nothing it does not. -/
namespace ServiceDoc.Text

theorem split_ne_nil (mark : Char) (cs : List Char) : split mark cs ≠ [] := by
  cases cs with
  | nil => exact List.cons_ne_nil _ _
  | cons c cs =>
      rw [split]
      split
      · exact List.cons_ne_nil _ _
      · split <;> exact List.cons_ne_nil _ _

theorem split_append (mark : Char) (as bs : List Char) :
    split mark (as ++ mark :: bs) = split mark as ++ split mark bs := by
  induction as with
  | nil => simp [split]
  | cons a as ih =>
      rw [List.cons_append, split, split, ih]
      by_cases marked : a = mark
      · rw [if_pos marked, if_pos marked, List.cons_append]
      · rw [if_neg marked, if_neg marked]
        cases first : split mark as with
        | nil => exact absurd first (split_ne_nil mark as)
        | cons part parts => rfl

theorem split_of_not_mem {mark : Char} {cs : List Char} (free : mark ∉ cs) :
    split mark cs = [cs] := by
  induction cs with
  | nil => rfl
  | cons c cs ih =>
      rw [List.mem_cons, not_or] at free
      rw [split, if_neg (Ne.symm free.1), ih free.2]

theorem not_mem_of_mem_split {mark : Char} {cs part : List Char} (h : part ∈ split mark cs) :
    mark ∉ part := by
  induction cs generalizing part with
  | nil =>
      cases List.mem_singleton.mp h
      exact List.not_mem_nil
  | cons c cs ih =>
      rw [split] at h
      split at h
      · rcases List.mem_cons.mp h with rfl | h
        · exact List.not_mem_nil
        · exact ih h
      next unmarked =>
        cases parted : split mark cs with
        | nil => exact absurd parted (split_ne_nil mark cs)
        | cons first parts =>
            rw [parted] at h ih
            rcases List.mem_cons.mp h with rfl | h
            · rw [List.mem_cons, not_or]
              exact ⟨Ne.symm unmarked, ih List.mem_cons_self⟩
            · exact ih (List.mem_cons_of_mem first h)

end ServiceDoc.Text

namespace ServiceDoc.Files

/-- Whether a name leads elsewhere. -/
def moves (name : String) : Bool := name != "" && name != "."

/-- The names of a path that lead elsewhere. -/
def course (path : String) : List String := (names path).filter moves

theorem follow_of_still {name : String} (still : moves name = false) (l : Location) :
    follow l name = l := by
  unfold follow
  rw [if_pos]
  simpa [moves, Decidable.or_iff_not_imp_left] using still

theorem passes_cons {l k : Location} {name : String} {names : List String} :
    Passes l (name :: names) k ↔ l = k ∨ Passes (follow l name) names k := by
  constructor
  · rintro ⟨done, within, rfl⟩
    cases done with
    | nil => exact .inl rfl
    | cons first done =>
        obtain ⟨rfl, others⟩ := List.cons_prefix_cons.mp within
        exact .inr ⟨done, others, rfl⟩
  · rintro (rfl | passed)
    · exact .start l _
    · exact .cons passed

theorem passes_filter {l k : Location} {names : List String} :
    Passes l (names.filter moves) k ↔ Passes l names k := by
  induction names generalizing l with
  | nil => rfl
  | cons name rest ih =>
      cases moved : moves name with
      | false =>
          rw [List.filter_cons_of_neg (by simp [moved]), passes_cons, follow_of_still moved, ih]
          exact ⟨.inr, fun h => h.elim (fun same => same ▸ .start l rest) id⟩
      | true => rw [List.filter_cons_of_pos moved, passes_cons, passes_cons, ih]

theorem Passes.of_prefix {l k : Location} {some all : List String} (h : Passes l some k)
    (within : some <+: all) : Passes l all k := by
  obtain ⟨done, reached, rfl⟩ := h
  exact ⟨done, reached.trans within, rfl⟩

/-! ### Names joined -/

theorem names_append (a b : String) : names (a ++ "/" ++ b) = names a ++ names b := by
  have shape : (a ++ "/" ++ b).toList = a.toList ++ '/' :: b.toList := by simp
  unfold names Text.parts
  rw [shape, Text.split_append, List.map_append]

theorem names_of_not_mem {name : String} (plain : '/' ∉ name.toList) : names name = [name] := by
  unfold names Text.parts
  rw [Text.split_of_not_mem plain, List.map_singleton, String.ofList_toList]

theorem not_mem_of_mem_names {path name : String} (h : name ∈ names path) :
    '/' ∉ name.toList := by
  obtain ⟨part, member, rfl⟩ := List.mem_map.mp h
  rw [String.toList_ofList]
  exact Text.not_mem_of_mem_split member

theorem isAbsolute_of_not_mem {name : String} (plain : '/' ∉ name.toList) :
    isAbsolute name = false :=
  decide_eq_false fun h => plain (List.mem_of_mem_head? h)

/-- What is joined moves as its parts do. -/
theorem course_join {name : String} (plain : '/' ∉ name.toList) (dir : String) :
    course (join dir name) = course dir ++ course name := by
  unfold join
  rw [isAbsolute_of_not_mem plain, if_neg Bool.false_ne_true]
  cases last : dir.toList.getLast? with
  | none =>
      have empty : dir = "" := by simpa using last
      subst empty
      rfl
  | some c =>
      dsimp only
      split
      -- What ends in a slash has an empty last name, which says nothing.
      next slash =>
        obtain ⟨before, shape⟩ := List.getLast?_eq_some_iff.mp last
        obtain rfl : dir = String.ofList before ++ "/" := by
          refine String.toList_inj.mp ?_
          simp [shape, slash]
        have slashed := names_append (String.ofList before) ""
        rw [String.append_empty] at slashed
        have nothing : (names "").filter moves = [] := rfl
        simp only [course, names_append, slashed, List.filter_append, nothing, List.append_nil]
      next => simp only [course, names_append, List.filter_append]

theorem isAbsolute_join {name : String} (plain : '/' ∉ name.toList) (dir : String) :
    isAbsolute (join dir name) = isAbsolute dir := by
  unfold join
  rw [isAbsolute_of_not_mem plain, if_neg Bool.false_ne_true]
  cases last : dir.toList.getLast? with
  | none =>
      have empty : dir = "" := by simpa using last
      subst empty
      exact isAbsolute_of_not_mem plain
  | some c =>
      have nonempty : dir.toList ≠ [] := by
        intro none
        rw [none] at last
        cases last
      obtain ⟨first, rest, shape⟩ := List.exists_cons_of_ne_nil nonempty
      dsimp only
      split <;> simp [isAbsolute, shape]

theorem filter_parts (path : String) : (parts path).filter moves = course path := by
  unfold parts course
  cases names path with
  | nil => rfl
  | cons first rest =>
      change ((if first = "" then [] else [first]) ++ rest.filter moves).filter moves = _
      simp only [List.filter_append, List.filter_filter, Bool.and_self]
      by_cases empty : first = ""
      · subst empty
        rfl
      · rw [if_neg empty, ← List.filter_append]
        rfl

theorem mem_names_of_mem_parts {path name : String} (h : name ∈ parts path) : name ∈ names path := by
  unfold parts at h
  cases all : names path with
  | nil =>
      rw [all] at h
      exact h
  | cons first rest =>
      rw [all] at h
      rcases List.mem_append.mp h with h | h
      · split at h
        · cases h
        · exact List.mem_cons.mpr (.inl (List.mem_singleton.mp h))
      · exact List.mem_cons_of_mem first (List.mem_of_mem_filter h)

/-! ### Directories on the way -/

/-- Going on from a directory that has been made of some parts, each next one is made of more. -/
theorem course_of_mem_foldl {parts : List String} (done found : List String) {absolute : Bool}
    (plain : ∀ part ∈ parts, '/' ∉ part.toList)
    (last : course (found.headD "") = done.filter moves ∧ isAbsolute (found.headD "") = absolute)
    {path : String}
    (h : path ∈ parts.foldl (fun found part => join (found.headD "") part :: found) found) :
    path ∈ found ∨
      (∃ reached, reached <+: done ++ parts ∧ course path = reached.filter moves) ∧
        isAbsolute path = absolute := by
  induction parts generalizing done found with
  | nil => exact .inl h
  | cons part rest ih =>
      have free := plain part List.mem_cons_self
      have next : course (join (found.headD "") part) = (done ++ [part]).filter moves := by
        rw [course_join free, last.1, List.filter_append, course, names_of_not_mem free]
      have start : isAbsolute (join (found.headD "") part) = absolute :=
        (isAbsolute_join free _).trans last.2
      have others := fun p member => plain p (List.mem_cons_of_mem part member)
      rcases ih (done ++ [part]) (_ :: found) others ⟨next, start⟩ h with
        member | ⟨⟨reached, within, same⟩, begins⟩
      · rcases List.mem_cons.mp member with rfl | member
        · refine .inr ⟨⟨done ++ [part], ?_, next⟩, start⟩
          exact ⟨rest, List.append_assoc ..⟩
        · exact .inl member
      · rw [List.append_assoc] at within
        exact .inr ⟨⟨reached, within, same⟩, begins⟩

/-- A directory that leads to a path starts where the path does and passes nothing the path does
not. -/
theorem of_mem_ancestors {path dir : String} (h : dir ∈ ancestors path) :
    isAbsolute dir = isAbsolute path ∧
      ∀ l k, Passes l (names dir) k → Passes l (names path) k := by
  suffices (∃ reached, reached <+: (parts path).dropLast ∧ course dir = reached.filter moves) ∧
      isAbsolute dir = isAbsolute path by
    obtain ⟨⟨reached, within, same⟩, begins⟩ := this
    refine ⟨begins, fun l k passed => ?_⟩
    rw [← passes_filter] at passed ⊢
    refine passed.of_prefix ?_
    rw [← course, ← course, same, ← filter_parts]
    exact (within.trans (List.dropLast_prefix _)).filter moves
  have plain : ∀ part ∈ (parts path).dropLast, '/' ∉ part.toList := fun part member =>
    not_mem_of_mem_names (mem_names_of_mem_parts (List.mem_of_mem_dropLast member))
  unfold ancestors at h
  cases absolute : isAbsolute path with
  | false =>
      rw [absolute, if_neg Bool.false_ne_true] at h
      rcases course_of_mem_foldl [] [] plain ⟨rfl, rfl⟩ h with none | found
      · cases none
      · exact found
  | true =>
      rw [absolute, if_pos rfl] at h
      rcases course_of_mem_foldl [] ["/"] plain ⟨rfl, rfl⟩ h with root | found
      · cases List.mem_singleton.mp root
        exact ⟨⟨[], List.nil_prefix, rfl⟩, rfl⟩
      · exact found

end ServiceDoc.Files
