import ServiceDoc.Proofs.Worded
import ServiceDoc.Proofs.Yaml.Reading

/-! How the text of a node begins. A node of one line is a scalar, also where it is no text; a block
begins with the mark of an item or with a key. The first line of a node therefore says which form it
has. -/
namespace ServiceDoc.Yaml

/-! ### Nodes of one line -/

/-- Data that are no text and yet written as a word. -/
def wordOf : Datum → Option String
  | .bool true => some "true"
  | .bool false => some "false"
  | .list [] => some "[]"
  | .map [] => some "\x7b\x7d"
  | _ => none

def scalarOf : Datum → Option Scalar
  | .text s => some (.ofText s false)
  | d => (wordOf d).map fun w => .bare w.toList

theorem wordOf_unique {d e : Datum} {w : String} (hd : wordOf d = some w) (he : wordOf e = some w) :
    d = e := by
  unfold wordOf at hd
  split at hd <;> cases hd <;> unfold wordOf at he <;> split at he <;> simp_all

/-- No text that reads as a word is written as it is. -/
theorem styleOf_word {d : Datum} {w : String} (h : wordOf d = some w) :
    styleOf w false ≠ .plain := by
  unfold wordOf at h
  split at h <;> cases h <;> decide

theorem bare_word {d : Datum} {w : String} (h : wordOf d = some w) : Bare w.toList := by
  unfold wordOf at h
  split at h <;> cases h <;> exact bare_of_clear (by decide) (by decide) (by decide)

theorem ofText_injective {s t : String} {simpleKey simpleKey' : Bool}
    (h : Scalar.ofText s simpleKey = Scalar.ofText t simpleKey') : s = t := by
  have chars (s : String) (simpleKey : Bool) : (Scalar.ofText s simpleKey).chars = s.toList := by
    unfold Scalar.ofText
    cases styleOf s simpleKey <;> rfl
  refine String.toList_inj.mp ?_
  rw [← chars s simpleKey, h, chars]

theorem ofText_ne_word {d : Datum} {w : String} (h : wordOf d = some w) (s : String) :
    Scalar.ofText s false ≠ .bare w.toList := by
  unfold Scalar.ofText
  cases style : styleOf s false with
  | plain =>
      intro same
      obtain rfl : s = w := String.toList_inj.mp (Scalar.bare.inj same)
      exact styleOf_word h style
  | single | double | literal => exact nofun

theorem scalarOf_cases {d : Datum} {a : Scalar} (h : scalarOf d = some a) :
    (∃ s, d = .text s ∧ a = .ofText s false) ∨ ∃ w, wordOf d = some w ∧ a = .bare w.toList := by
  unfold scalarOf at h
  split at h
  next s => exact .inl ⟨s, rfl, (Option.some.inj h).symm⟩
  next =>
    obtain ⟨w, word, rfl⟩ := Option.map_eq_some_iff.mp h
    exact .inr ⟨w, word, rfl⟩

theorem scalarOf_unique {d e : Datum} {a : Scalar} (hd : scalarOf d = some a)
    (he : scalarOf e = some a) : d = e := by
  rcases scalarOf_cases hd with ⟨s, rfl, rfl⟩ | ⟨w, word, rfl⟩
  · rcases scalarOf_cases he with ⟨t, rfl, same⟩ | ⟨w, word, same⟩
    · rw [ofText_injective same]
    · exact absurd same (ofText_ne_word word s)
  · rcases scalarOf_cases he with ⟨t, rfl, same⟩ | ⟨v, word', same⟩
    · exact absurd same.symm (ofText_ne_word word t)
    · obtain rfl : w = v := String.toList_inj.mp (Scalar.bare.inj same)
      exact wordOf_unique word word'

theorem readable_scalarOf {d : Datum} {a : Scalar} (h : scalarOf d = some a) : a.Readable := by
  rcases scalarOf_cases h with ⟨s, -, rfl⟩ | ⟨w, word, rfl⟩
  · exact Scalar.readable_ofText s false
  · exact .bare (bare_word word)

theorem nodeText_scalar {d : Datum} {a : Scalar} (h : scalarOf d = some a) (place : Place) :
    nodeText place d = place.gap ++ a.lines (textColumn place.indent) := by
  rcases scalarOf_cases h with ⟨s, rfl, rfl⟩ | ⟨w, word, rfl⟩
  · rfl
  · unfold wordOf at word
    split at word <;> cases word <;> rfl

/-! ### Forms -/

inductive Form where
  | scalar
  | items
  | members

def formOf : Datum → Form
  | .list (_ :: _) => .items
  | .map (_ :: _) => .members
  | _ => .scalar

/-- How the first line of a node goes on after the spaces and line ends before it. -/
inductive Opens : Form → List Char → Prop where
  | scalar {a : Scalar} (h : a.Readable) (column : Nat) (rest : List Char) :
    Opens .scalar (a.lines column ++ rest)
  | item (rest : List Char) : Opens .items ('-' :: ' ' :: rest)
  | key {a : Scalar} (h : a.Readable) (within : a.mark ≠ some '|') (column : Nat) {rest : List Char}
    (stop : Stops (':' :: rest)) : Opens .members (a.inline column ++ ':' :: rest)
  | markedKey (rest : List Char) : Opens .members ('?' :: ' ' :: rest)

theorem lines_ne_marked {a : Scalar} (h : a.Readable) {c : Char} (sign : c = '-' ∨ c = '?')
    (column : Nat) (r rest : List Char) : a.lines column ++ r ≠ c :: ' ' :: rest :=
  a.lines_append column r ▸ Scalar.inline_ne_marked h sign column _ rest

/-- The line of a scalar ends where that of a key has its mark. -/
theorem lines_ne_key {a b : Scalar} (ha : a.Readable) (hb : b.Readable) (within : b.mark ≠ some '|')
    (i j : Nat) {r s : List Char} (stop : Stops (':' :: s)) :
    a.lines i ++ r ≠ b.inline j ++ ':' :: s := by
  intro h
  rw [Scalar.lines_append] at h
  have plain : a.mark ≠ some '|' := Scalar.mark_unique ha hb h ▸ within
  cases (List.cons.inj (Scalar.inline_unique ha hb (.line _) stop plain h).2).1

theorem Opens.unique {f g : Form} {as bs : List Char} (hf : Opens f as) (hg : Opens g bs)
    (h : as = bs) : f = g := by
  cases hf with
  | scalar readable column rest =>
      cases hg with
      | scalar => rfl
      | item => exact absurd h (lines_ne_marked readable (.inl rfl) column rest _)
      | key readable' within column' stop =>
          exact absurd h (lines_ne_key readable readable' within column column' stop)
      | markedKey => exact absurd h (lines_ne_marked readable (.inr rfl) column rest _)
  | item rest =>
      cases hg with
      | scalar readable column =>
          exact absurd h.symm (lines_ne_marked readable (.inl rfl) column _ rest)
      | item => rfl
      | key readable => exact absurd h.symm (Scalar.inline_ne_marked readable (.inl rfl) _ _ rest)
      | markedKey => cases h
  | key readable within column stop =>
      cases hg with
      | scalar readable' column' =>
          exact absurd h.symm (lines_ne_key readable' readable within column' column stop)
      | item => exact absurd h (Scalar.inline_ne_marked readable (.inl rfl) column _ _)
      | key | markedKey => rfl
  | markedKey rest =>
      cases hg with
      | scalar readable column =>
          exact absurd h.symm (lines_ne_marked readable (.inr rfl) column _ rest)
      | item => cases h
      | key | markedKey => rfl

theorem Opens.head {f : Form} {cs : List Char} (h : Opens f cs) :
    ∃ c rest, cs = c :: rest ∧ c ≠ ' ' ∧ isBreak c = false := by
  cases h with
  | scalar readable column rest =>
      rw [Scalar.lines_append]
      exact Scalar.inline_head readable column _
  | item rest => exact ⟨'-', _, rfl, by decide, rfl⟩
  | key readable within column stop => exact Scalar.inline_head readable column _
  | markedKey rest => exact ⟨'?', _, rfl, by decide, rfl⟩

/-! ### First lines -/

/-- What a node of a form is. -/
theorem form_cases {d : Datum} (h : d.Worded) :
    match formOf d with
    | .scalar => ∃ a, scalarOf d = some a
    | .items => ∃ e es, d = .list (e :: es)
    | .members => ∃ m ms, d = .map (m :: ms) := by
  cases h with
  | bool b => cases b <;> exact ⟨_, rfl⟩
  | text s => exact ⟨_, rfl⟩
  | @list items all =>
      cases items with
      | nil => exact ⟨_, rfl⟩
      | cons e es => exact ⟨e, es, rfl⟩
  | @map members all =>
      cases members with
      | nil => exact ⟨_, rfl⟩
      | cons m ms => exact ⟨m, ms, rfl⟩

theorem exists_scalar {d : Datum} (h : d.Worded) (form : formOf d = .scalar) :
    ∃ a, scalarOf d = some a := by
  have shape := form_cases h
  rwa [form] at shape

theorem exists_items {d : Datum} (h : d.Worded) (form : formOf d = .items) :
    ∃ e es, d = .list (e :: es) := by
  have shape := form_cases h
  rwa [form] at shape

theorem exists_members {d : Datum} (h : d.Worded) (form : formOf d = .members) :
    ∃ m ms, d = .map (m :: ms) := by
  have shape := form_cases h
  rwa [form] at shape

theorem itemsText_cons (lead : List Char) (column : Nat) (d : Datum) (ds : List Datum)
    (r : List Char) :
    itemsText lead column (d :: ds) ++ r =
      lead ++ '-' :: (nodeText (.mark column) d ++ (itemsText (spaces column) column ds ++ r)) := by
  simp [itemsText]

theorem membersText_cons (lead : List Char) (column : Nat) (key : String) (d : Datum)
    (ms : List (String × Datum)) (r : List Char) :
    membersText lead column ((key, d) :: ms) ++ r =
      lead ++ (keyText column key ++ (nodeText (valuePlace column key) d ++
        (membersText (spaces column) column ms ++ r))) := by
  simp [membersText]

/-- Every node has something before its first line. -/
theorem nodeText_leads {d : Datum} (h : d.Worded) (place : Place) (r : List Char) :
    ∃ front rest, nodeText place d ++ r = front ++ rest ∧
      (front = place.gap ∨ ∃ column, front = place.lead column) := by
  cases form : formOf d with
  | scalar =>
      obtain ⟨a, found⟩ := exists_scalar h form
      rw [nodeText_scalar found, List.append_assoc]
      exact ⟨_, _, rfl, .inl rfl⟩
  | items =>
      obtain ⟨e, es, rfl⟩ := exists_items h form
      exact ⟨_, _, itemsText_cons _ _ e es r, .inr ⟨_, rfl⟩⟩
  | members =>
      obtain ⟨⟨key, e⟩, ms, rfl⟩ := exists_members h form
      exact ⟨_, _, membersText_cons _ _ key e ms r, .inr ⟨_, rfl⟩⟩

/-- A value begins with a space, or below its key. -/
theorem nodeText_first {d : Datum} (h : d.Worded) {place : Place} {column : Nat}
    (inside : place.indent = some column) (r : List Char) : ∃ c rest,
      nodeText place d ++ r = c :: rest ∧ (c = ' ' ∨ c = '\n' ∧ place = .key column) := by
  obtain ⟨front, rest, shape, leads⟩ := nodeText_leads h place r
  rw [shape]
  cases place with
  | top => cases inside
  | mark start =>
      rcases leads with rfl | ⟨_, rfl⟩ <;> exact ⟨' ', rest, rfl, .inl rfl⟩
  | key start =>
      obtain rfl := Option.some.inj inside
      rcases leads with rfl | ⟨_, rfl⟩
      · exact ⟨' ', rest, rfl, .inl rfl⟩
      · exact ⟨'\n', _, rfl, .inr ⟨rfl, rfl⟩⟩

theorem itemsText_opens {lead : List Char} {column : Nat} {d : Datum} (h : d.Worded)
    (ds : List Datum) (r : List Char) :
    ∃ cs, itemsText lead column (d :: ds) ++ r = lead ++ cs ∧ Opens .items cs := by
  have inside : (Place.mark column).indent = some column := rfl
  obtain ⟨c, rest, shape, same⟩ :=
    nodeText_first h inside (itemsText (spaces column) column ds ++ r)
  obtain rfl : c = ' ' := same.resolve_right fun below => nomatch below.2
  refine ⟨_, itemsText_cons lead column d ds r, ?_⟩
  rw [shape]
  exact .item rest

theorem within_ofText_key (key : String) : (Scalar.ofText key true).mark ≠ some '|' := by
  unfold Scalar.ofText
  cases style : styleOf key true with
  | literal => cases (styleOf_eq_literal style).2
  | plain | single | double => exact nofun

/-- The mark of a key ends it, whatever its value is. -/
theorem stops_value {d : Datum} (h : d.Worded) {place : Place} {column : Nat}
    (inside : place.indent = some column) (r : List Char) :
    Stops (':' :: (nodeText place d ++ r)) := by
  obtain ⟨c, rest, shape, blank⟩ := nodeText_first h inside r
  rw [shape]
  exact .mark (blank.imp_right And.left) rest

theorem keyText_simple {key : String} (simple : isSimpleKey key = true) (column : Nat)
    (r : List Char) :
    keyText column key ++ r = (Scalar.ofText key true).inline (column + 2) ++ ':' :: r := by
  rw [keyText, if_pos simple, List.append_assoc]
  rfl

theorem keyText_marked {key : String} (marked : isSimpleKey key = false) (column : Nat)
    (r : List Char) :
    keyText column key ++ r =
      '?' :: ' ' :: ((Scalar.ofText key false).lines (column + 2) ++
        (spaces column ++ ':' :: r)) := by
  rw [keyText, if_neg (Bool.eq_false_iff.mp marked)]
  simp

theorem membersText_opens {lead : List Char} {column : Nat} (key : String) {d : Datum}
    (h : d.Worded) (ms : List (String × Datum)) (r : List Char) :
    ∃ cs, membersText lead column ((key, d) :: ms) ++ r = lead ++ cs ∧ Opens .members cs := by
  refine ⟨_, membersText_cons lead column key d ms r, ?_⟩
  rw [valuePlace]
  cases simple : isSimpleKey key with
  | true =>
      rw [keyText_simple simple]
      have inside : (Place.key column).indent = some column := rfl
      exact .key (Scalar.readable_ofText key true) (within_ofText_key key) (column + 2)
        (stops_value h inside _)
  | false =>
      rw [keyText_marked simple]
      exact .markedKey _

/-- A space or the end of a line. -/
def isBlank (c : Char) : Bool := c = ' ' || c = '\n'

theorem isBlank_lead (place : Place) (column : Nat) :
    ∀ c ∈ place.lead column, isBlank c = true := by
  cases place with
  | top => exact nofun
  | mark start => simp [Place.lead, isBlank]
  | key start =>
      intro c member
      rcases List.mem_cons.mp member with rfl | member
      · rfl
      · rw [List.eq_of_mem_replicate member]
        rfl

theorem nodeText_opens {d : Datum} (h : d.Worded) (place : Place) (r : List Char) :
    ∃ front cs, nodeText place d ++ r = front ++ cs ∧ (∀ c ∈ front, isBlank c = true) ∧
      Opens (formOf d) cs := by
  cases form : formOf d with
  | scalar =>
      obtain ⟨a, found⟩ := exists_scalar h form
      rw [nodeText_scalar found, List.append_assoc]
      refine ⟨place.gap, _, rfl, ?_, .scalar (readable_scalarOf found) _ r⟩
      cases place <;> simp [Place.gap, isBlank]
  | items =>
      obtain ⟨e, es, rfl⟩ := exists_items h form
      obtain ⟨cs, shape, opens⟩ := itemsText_opens (h.item e List.mem_cons_self) es r
      exact ⟨_, cs, shape, isBlank_lead place place.itemColumn, opens⟩
  | members =>
      obtain ⟨⟨key, e⟩, ms, rfl⟩ := exists_members h form
      obtain ⟨cs, shape, opens⟩ := membersText_opens key (h.member _ List.mem_cons_self) ms r
      exact ⟨_, cs, shape, isBlank_lead place (inner place.indent), opens⟩

theorem Opens.dropWhile_blank {f : Form} {cs : List Char} (h : Opens f cs) :
    cs.dropWhile isBlank = cs := by
  obtain ⟨c, rest, rfl, space, ends⟩ := h.head
  refine List.dropWhile_cons_of_neg ?_
  rintro blank
  simp only [isBlank, space, decide_false, Bool.false_or, decide_eq_true_eq] at blank
  subst blank
  cases ends

/-- Nodes with the same text have the same form. -/
theorem formOf_unique {d e : Datum} (hd : d.Worded) (he : e.Worded) {place : Place}
    {r s : List Char} (h : nodeText place d ++ r = nodeText place e ++ s) : formOf d = formOf e := by
  obtain ⟨front, as, shape, blank, opens⟩ := nodeText_opens hd place r
  obtain ⟨front', bs, shape', blank', opens'⟩ := nodeText_opens he place s
  rw [shape, shape'] at h
  have rest := congrArg (List.dropWhile isBlank) h
  rw [List.dropWhile_append_of_pos blank, List.dropWhile_append_of_pos blank',
    opens.dropWhile_blank, opens'.dropWhile_blank] at rest
  exact opens.unique opens' rest

end ServiceDoc.Yaml
