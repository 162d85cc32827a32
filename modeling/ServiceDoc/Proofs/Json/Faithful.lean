import ServiceDoc.Proofs.Json.Growth

/-! Written data are told apart by their texts. The tree that a written text is read as still holds
all of the data, so two data with the same compact text are the same. -/
namespace ServiceDoc.Json

def QuotedText.text (q : QuotedText) : String := (q.read.toOption).getD ""

theorem QuotedText.text_written (s : String) : (written s).text = s := by
  rw [text, read_written]
  rfl

/-- The digits before the point, with their sign. -/
def Numeral.integer (n : Numeral) : Int := if n.negative then -valueOf n.whole else valueOf n.whole

theorem Numeral.integer_written (n : Int) : (written n).integer = n := by
  unfold integer written
  simp only [valueOf_toDigits, decide_eq_true_eq]
  split <;> omega

namespace Tree

mutual

/-- The data that a tree holds. -/
def datum : Tree → Datum
  | .null => .null
  | .bool b => .bool b
  | .number n => .int n.integer
  | .text q => .text q.text
  | .list items _ => .list (itemData items)
  | .object members _ => .map (memberData members)
  | .broken _ => .null

def itemData : List Tree → List Datum
  | [] => []
  | t :: ts => datum t :: itemData ts

def memberData : List (QuotedText × Tree) → List (String × Datum)
  | [] => []
  | (q, t) :: rest => (q.text, datum t) :: memberData rest

end

mutual

theorem datum_written : ∀ d : Datum, d.floatFree = true → (written d).datum = d
  | .null, _ => rfl
  | .bool _, _ => rfl
  | .int n, _ => congrArg Datum.int (Numeral.integer_written n)
  | .text s, _ => congrArg Datum.text (QuotedText.text_written s)
  | .list items, free => congrArg Datum.list (itemData_written items free)
  | .map members, free => congrArg Datum.map (memberData_written members free)

theorem itemData_written : ∀ items : List Datum, Datum.floatFreeItems items = true →
    itemData (writtenItems items) = items
  | [], _ => rfl
  | d :: ds, free => by
      obtain ⟨first, others⟩ := Bool.and_eq_true_iff.mp free
      rw [writtenItems, itemData, datum_written d first, itemData_written ds others]

theorem memberData_written : ∀ members : List (String × Datum),
    Datum.floatFreeMembers members = true → memberData (writtenMembers members) = members
  | [], _ => rfl
  | (key, d) :: rest, free => by
      obtain ⟨first, others⟩ := Bool.and_eq_true_iff.mp free
      rw [writtenMembers, memberData, QuotedText.text_written, datum_written d first,
        memberData_written rest others]

end

end Tree

theorem eq_of_write {d e : Datum} (hd : d.floatFree = true) (he : e.floatFree = true)
    (h : write d = write e) : d = e := by
  have trees : Tree.written d = Tree.written e := by
    have values := congrArg (fun s => (Text.read s).value) h
    simpa only [Text.read_write d hd, Text.read_write e he] using values
  rw [← Tree.datum_written d hd, trees, Tree.datum_written e he]

/-- Values that are faithfully turned into data are told apart by their compact texts. -/
theorem write_eq_iff {α : Type} {toDatum : α → Datum} (faithful : Function.Injective toDatum)
    (free : ∀ a, (toDatum a).floatFree = true) (a b : α) :
    write (toDatum a) = write (toDatum b) ↔ a = b := by
  constructor
  · intro same
    exact faithful (eq_of_write (free a) (free b) same)
  · rintro rfl
    rfl

end ServiceDoc.Json
