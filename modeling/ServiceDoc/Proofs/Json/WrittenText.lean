import ServiceDoc.Json.Writer

/-! Texts as they are written. An escaped character is read back as one piece, and the pieces of a
written text stand for its characters. -/
namespace ServiceDoc.Json

/-- What an escaped character is read as: controls without a letter of their own are units. -/
def writtenPiece (c : Char) : Piece :=
  match c with
  | '"' | '\\' | '\x08' | '\x0c' | '\n' | '\r' | '\t' => .char c
  | c => if c.toNat < 0x20 then .unit c.toNat else .char c

def QuotedText.written (s : String) : QuotedText := ⟨s.toList.map writtenPiece⟩

namespace QuotedText

theorem hexDigit?_hexDigit : ∀ n, n < 16 → Text.hexDigit? (hexDigit n) = some n := by
  decide

theorem unit?_control {n : Nat} (h : n < 0x20) :
    unit? '0' '0' (hexDigit (n / 16)) (hexDigit (n % 16)) = some n := by
  have zero : Text.hexDigit? '0' = some 0 := rfl
  have high := hexDigit?_hexDigit (n / 16) (by omega)
  have low := hexDigit?_hexDigit (n % 16) (by omega)
  simp only [unit?, zero, high, low, Option.bind_eq_bind, Option.bind_some]
  refine congrArg some ?_
  omega

theorem takeAfter_char (done : List Piece) {c : Char} (quote : c ≠ '"') (slash : c ≠ '\\')
    (visible : ¬ c.toNat < 0x20) (rest : List Char) :
    takeAfter done (c :: rest) = takeAfter (.char c :: done) rest := by
  rw [takeAfter, if_neg visible]
  · exact quote
  · intro same
    exact absurd same slash
  · intro _ same
    exact absurd same slash
  · intro _ _ same
    exact absurd same slash

theorem takeAfter_escape (done : List Piece) (c : Char) (rest : List Char) :
    takeAfter done (escape c ++ rest) = takeAfter (writtenPiece c :: done) rest := by
  unfold escape writtenPiece
  split
  · rfl
  · rfl
  · rfl
  · rfl
  · rfl
  · rfl
  · rfl
  next quote slash _ _ _ _ _ =>
    by_cases control : c.toNat < 0x20
    · simp only [control, if_true, List.cons_append, List.nil_append, takeAfter,
        unit?_control control]
    · simp only [control, if_false, List.cons_append, List.nil_append]
      exact takeAfter_char done quote slash control rest

theorem takeAfter_written (done : List Piece) (cs rest : List Char) :
    takeAfter done (cs.flatMap escape ++ '"' :: rest) =
      .ok (⟨done.reverse ++ cs.map writtenPiece⟩, rest) := by
  induction cs generalizing done with
  | nil => simp only [List.flatMap_nil, List.nil_append, takeAfter, List.map_nil, List.append_nil]
  | cons c cs ih =>
      rw [List.flatMap_cons, List.append_assoc, takeAfter_escape, ih, List.reverse_cons,
        List.append_assoc]
      rfl

theorem take_written (s : String) (rest : List Char) :
    take (s.toList.flatMap escape ++ '"' :: rest) = .ok (written s, rest) :=
  takeAfter_written [] s.toList rest

theorem step_written (done : List Char) (c : Char) :
    Progress.step ⟨none, done⟩ (writtenPiece c) = .ok ⟨none, c :: done⟩ := by
  unfold writtenPiece
  split
  case h_8 =>
    split
    next control =>
      have trailing : isTrailing c.toNat = false := by
        unfold isTrailing
        rw [Bool.and_eq_false_iff]
        exact .inl (decide_eq_false (by omega))
      have leading : isLeading c.toNat = false := by
        unfold isLeading
        rw [Bool.and_eq_false_iff]
        exact .inl (decide_eq_false (by omega))
      simp only [Progress.step, trailing, leading, Bool.false_eq_true, if_false, Char.ofNat_toNat]
    next => rfl
  all_goals rfl

theorem progress_written (done cs : List Char) :
    (cs.map writtenPiece).foldlM Progress.step ⟨none, done⟩ =
      .ok ⟨none, cs.reverse ++ done⟩ := by
  induction cs generalizing done with
  | nil => rfl
  | cons c cs ih =>
      rw [List.map_cons, List.foldlM_cons, step_written, List.reverse_cons, List.append_assoc]
      exact ih (c :: done)

/-- A written text is read as itself. -/
theorem read_written (s : String) : (written s).read = .ok s := by
  have pieces : progress (written s).pieces = .ok ⟨none, s.toList.reverse ++ []⟩ :=
    progress_written [] s.toList
  simp only [read, readChars, pieces, bind, Except.bind, List.append_nil]
  change Except.ok (String.ofList s.toList.reverse.reverse) = .ok s
  rw [List.reverse_reverse, String.ofList_toList]

end QuotedText
end ServiceDoc.Json
