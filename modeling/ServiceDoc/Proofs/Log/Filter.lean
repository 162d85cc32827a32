import ServiceDoc.Log.Filter
import ServiceDoc.Proofs.Text.Slice
import ServiceDoc.Proofs.Text.Documentation

/-! Filters that can be read to their end. Reading a word cuts it at places that are counted without
the blanks at its ends. Where each of them is a place of the word itself, the word is a directive or
is refused; only a blank at its start can move them. -/
namespace ServiceDoc.Log

namespace Directive

/-- A reading does not break off, and what it reads, if it refuses nothing, is such. -/
def Reading.Yields {α : Type} (reading : Reading α) (P : α → Prop) : Prop :=
  ∃ r, reading.run = some r ∧ ∀ a, r = .ok a → P a

namespace Reading

variable {α β : Type} {P : α → Prop} {Q : β → Prop}

theorem yields_pure {a : α} (h : P a) : Yields (pure a) P :=
  ⟨.ok a, rfl, fun _ same => Except.ok.inj same ▸ h⟩

theorem yields_throw {r : Refusal} : Yields (throw r) P :=
  ⟨.error r, rfl, nofun⟩

theorem Yields.bind {reading : Reading α} {next : α → Reading β} (h : reading.Yields P)
    (after : ∀ a, P a → (next a).Yields Q) : (reading >>= next).Yields Q := by
  obtain ⟨r, found, such⟩ := h
  unfold Yields
  rw [ExceptT.run_bind, found]
  cases r with
  | error f => exact yields_throw
  | ok a => exact after a (such a rfl)

end Reading

open Reading

/-- Where what is being read starts. -/
def Place.start? : Place → Option Nat
  | .word first | .span first | .field first | .level first => some first
  | .start | .fieldEnd | .bracketEnd => none

/-- The invariant of a reading that has come to a place: what it is reading starts at a place of the
word, and not after that one. -/
def Place.Fits (word : List Char) (i : Nat) (p : Place) : Prop :=
  ∀ first, p.start? = some first → Text.IsPlace word first ∧ first ≤ i

variable {word : List Char} {d : Directive} {p : Place} {i : Nat}

theorem Place.fits_of_start {first : Nat} (h : Text.IsPlace word first ∧ first ≤ i)
    (starts : p.start? = some first) : p.Fits word i :=
  fun _ other => Option.some.inj (starts.symm.trans other) ▸ h

theorem Place.fits_of_none (h : p.start? = none) : p.Fits word i := by
  intro first starts
  cases h.symm.trans starts

theorem Place.Fits.later {j : Nat} (h : p.Fits word i) (later : i ≤ j) : p.Fits word j :=
  fun first starts => ⟨(h first starts).1, (h first starts).2.trans later⟩

theorem cut_yields {first : Nat} (h : Text.IsPlace word first ∧ first ≤ i)
    (here : Text.IsPlace word i) : (cut word first i).Yields fun _ => True := by
  obtain ⟨part, found⟩ := Text.exists_slice? h.1 here h.2
  rw [cut, found]
  exact yields_pure trivial

theorem cutFrom_yields {first : Nat} (h : Text.IsPlace word first) :
    (cutFrom word first).Yields fun _ => True := by
  obtain ⟨part, found⟩ := Text.exists_from? h
  rw [cutFrom, found]
  exact yields_pure trivial

/-- A character between two places of a word is read, and the invariant stays. -/
theorem step_yields (c : Char) (fits : p.Fits word i) (here : Text.IsPlace word i)
    (next : Text.IsPlace word (i + c.utf8Size)) :
    (step word d p i c).Yields fun after => after.2.Fits word (i + c.utf8Size) := by
  have stays : p.Fits word (i + c.utf8Size) := fits.later (Nat.le_add_right _ _)
  -- Marks take one byte, so what starts after one starts at the next place.
  have starts {mark : Char} (same : c = mark) (narrow : mark.utf8Size = 1) :
      Text.IsPlace word (i + 1) ∧ i + 1 ≤ i + c.utf8Size := by
    rw [same, narrow] at next ⊢
    exact ⟨next, le_rfl⟩
  cases p with
  | start =>
      dsimp only [step]
      split_ifs with bracket first
      · exact yields_pure (Place.fits_of_start (starts bracket rfl) rfl)
      · exact yields_pure (Place.fits_of_start ⟨here, Nat.le_add_right _ _⟩ rfl)
      · exact yields_throw
  | word first =>
      dsimp only [step]
      have text := cut_yields (fits first rfl) here
      split_ifs with equals bracket
      · exact text.bind fun _ _ => yields_pure (Place.fits_of_start (starts equals rfl) rfl)
      · exact text.bind fun _ _ => yields_pure (Place.fits_of_start (starts bracket rfl) rfl)
      · exact yields_pure stays
  | span first =>
      dsimp only [step]
      have text := cut_yields (fits first rfl) here
      split_ifs with bracket brace
      · exact text.bind fun _ _ => yields_pure (Place.fits_of_none rfl)
      · exact text.bind fun _ _ => yields_pure (Place.fits_of_start (starts brace rfl) rfl)
      · exact yields_pure stays
  | field first =>
      dsimp only [step]
      have text := cut_yields (fits first rfl) here
      split_ifs with brace
      · refine text.bind fun text _ => ?_
        split_ifs
        · exact yields_throw
        · split
          · exact yields_throw
          · exact yields_pure (Place.fits_of_none rfl)
      · exact yields_pure stays
  | fieldEnd =>
      dsimp only [step]
      split_ifs
      · exact yields_pure (Place.fits_of_none rfl)
      · exact yields_throw
  | bracketEnd =>
      dsimp only [step]
      split_ifs with equals
      · exact yields_pure (Place.fits_of_start (starts equals rfl) rfl)
      · exact yields_throw
  | level first => exact yields_pure stays

theorem finish_yields (fits : p.Fits word i) : (finish word d p).Yields fun _ => True := by
  unfold finish
  cases p with
  | word first =>
      refine (cutFrom_yields (fits first rfl).1).bind fun text _ => ?_
      split
      · exact yields_pure trivial
      · exact yields_pure trivial
  | level first =>
      refine (cutFrom_yields (fits first rfl).1).bind fun text _ => ?_
      split
      · exact yields_pure trivial
      · split
        · exact yields_pure trivial
        · exact yields_throw
  | bracketEnd => exact yields_pure trivial
  | _ => exact yields_throw

/-- What is left of a word is read if every character left ends at a place of the word. -/
theorem readFrom_yields (cs : List Char) (fits : p.Fits word i)
    (places : ∀ n, Text.IsPlace cs n → Text.IsPlace word (i + n)) :
    (readFrom word d p i cs).Yields fun _ => True := by
  induction cs generalizing d p i with
  | nil => exact finish_yields fits
  | cons c cs ih =>
      have here : Text.IsPlace word i := places 0 Text.isPlace_zero
      have later (n : Nat) (h : Text.IsPlace cs n) : Text.IsPlace word (i + c.utf8Size + n) := by
        rw [Nat.add_assoc]
        exact places _ h.cons
      have next : Text.IsPlace word (i + c.utf8Size) := later 0 Text.isPlace_zero
      exact (step_yields c fits here next).bind fun after fits => ih fits later

/-- A word is a directive or refused if the places of its text without the blanks at its ends are
places of the whole. -/
theorem exists_read {word : String} (places : ∀ n, Text.IsPlace (Text.trimChars word.toList) n →
    Text.IsPlace word.toList n) : ∃ r, read word = some r := by
  obtain ⟨r, found, -⟩ := readFrom_yields (d := {}) (p := .start) (i := 0)
    (Text.trimChars word.toList) (Place.fits_of_none rfl)
    fun n h => (Nat.zero_add n).symm ▸ places n h
  exact ⟨r, found⟩

/-- A word that does not start with a blank, or that is of ASCII. -/
def Plain (word : String) : Prop :=
  (∀ c ∈ word.toList.head?, Text.isBlank c = false) ∨ ∀ c ∈ word.toList, c.toNat < 128

theorem exists_read_of_plain {word : String} (plain : Plain word) : ∃ r, read word = some r := by
  refine exists_read fun n h => ?_
  rcases plain with visible | ascii
  · exact h.followed (Text.trimChars_begins visible)
  · have narrow (c : Char) (member : c ∈ word.toList) : c.utf8Size = 1 :=
      Char.utf8Size_eq_one_iff.mpr (UInt32.le_iff_toNat_le.mpr (Nat.le_of_lt_succ (ascii c member)))
    exact Text.isPlace_of_narrow narrow (h.le.trans (String.utf8Len_le_of_infix Text.trimChars_within))

end Directive

namespace Filter

/-- A text has a word that breaks off the reading of its filter. -/
def Torn (text : String) : Prop := ∃ word ∈ words text, Directive.read word = none

theorem mapM_read_eq_none_iff (ws : List String) :
    ws.mapM Directive.read = none ↔ ∃ word ∈ ws, Directive.read word = none := by
  induction ws with
  | nil => simp
  | cons word ws ih =>
      rw [List.mapM_cons]
      simp only [List.mem_cons, exists_eq_or_imp]
      cases Directive.read word with
      | none => exact iff_of_true rfl (.inl rfl)
      | some r =>
          rw [← ih]
          cases ws.mapM Directive.read with
          | none => exact iff_of_true rfl (.inr rfl)
          | some rs => exact iff_of_false nofun (by simp)

/-- A text stands for a filter unless a word of it is torn. -/
theorem ofText?_eq_none_iff {text : String} : ofText? text = none ↔ Torn text := by
  rw [Torn, ← mapM_read_eq_none_iff, ofText?]
  cases (words text).mapM Directive.read with
  | none => exact iff_of_true rfl rfl
  | some rs =>
      refine iff_of_false ?_ nofun
      dsimp only [bind, Option.bind]
      split
      · exact nofun
      · exact nofun

theorem not_torn_of_plain {text : String} (plain : ∀ word ∈ words text, Directive.Plain word) :
    ¬ Torn text := by
  rintro ⟨word, member, torn⟩
  obtain ⟨r, found⟩ := Directive.exists_read_of_plain (plain word member)
  cases torn.symm.trans found

end Filter
end ServiceDoc.Log
