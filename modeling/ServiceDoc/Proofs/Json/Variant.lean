import ServiceDoc.Proofs.Json.Objects

/-! What the writer of a record is free in. Variants of a tree differ, at any depth, in the order of
members, in members that no record declares, and in nulls for absent members that may be null. A
decoder that gives a value for a tree gives the same value for each of its variants. -/
namespace ServiceDoc.Json

/-! ### Results up to their complaints -/

/-- The same value, or no value on either side. -/
def SameValue {ε α : Type} (x y : Except ε α) : Prop := ∀ a, x = .ok a ↔ y = .ok a

namespace SameValue
variable {ε α β : Type} {x y z : Except ε α}

theorem refl (x : Except ε α) : SameValue x x := fun _ => Iff.rfl

theorem symm (h : SameValue x y) : SameValue y x := fun a => (h a).symm

theorem trans (h : SameValue x y) (k : SameValue y z) : SameValue x z :=
  fun a => (h a).trans (k a)

theorem ok_of_bind_ok {f g : α → Except ε β} (h : SameValue x y)
    (k : ∀ a, SameValue (f a) (g a)) {b : β} (ok : (x >>= f) = .ok b) : (y >>= g) = .ok b := by
  obtain ⟨a, hx, hf⟩ := ok_of_bind ok
  rw [(h a).mp hx]
  exact (k a b).mp hf

theorem bind {f g : α → Except ε β} (h : SameValue x y) (k : ∀ a, SameValue (f a) (g a)) :
    SameValue (x >>= f) (y >>= g) :=
  fun _ => ⟨ok_of_bind_ok h k, ok_of_bind_ok h.symm fun a => (k a).symm⟩

theorem map (f : α → β) (h : SameValue x y) : SameValue (x.map f) (y.map f) := by
  intro b
  constructor
  · intro ok
    obtain ⟨a, hx, rfl⟩ := ok_of_map ok
    rw [(h a).mp hx]
    rfl
  · intro ok
    obtain ⟨a, hy, rfl⟩ := ok_of_map ok
    rw [(h a).mpr hy]
    rfl

theorem toOption_eq (h : SameValue x y) : x.toOption = y.toOption := by
  cases x with
  | ok a =>
      rw [(h a).mp rfl]
  | error e =>
      cases y with
      | error e' => rfl
      | ok a => cases (h a).mpr rfl

end SameValue

namespace Catalogue
variable {ρ : Type}

/-- Trees that a writer may give for one value of a shape. -/
inductive Variant (c : Catalogue ρ) : Shape ρ → Tree → Tree → Prop where
  | refl (shape : Shape ρ) (t : Tree) : Variant c shape t t
  | symm {shape : Shape ρ} {t u : Tree} : Variant c shape t u → Variant c shape u t
  | trans {shape : Shape ρ} {t u v : Tree} :
      Variant c shape t u → Variant c shape u v → Variant c shape t v
  /-- Inside a list. -/
  | item {item : Shape ρ} {t u : Tree} (before after : List Tree) : Variant c item t u →
      Variant c (.list item) (.list (before ++ t :: after) none) (.list (before ++ u :: after) none)
  /-- Inside a record that is written as a list. -/
  | place {r : ρ} {m : Member ρ} {t u : Tree} (before after : List Tree) :
      (c.members r)[before.length]? = some m → Variant c m.shape t u →
      Variant c (.record r) (.list (before ++ t :: after) none) (.list (before ++ u :: after) none)
  /-- Inside a record that is written as an object. -/
  | member {r : ρ} {m : Member ρ} {key : QuotedText} {name : String} {t u : Tree}
      (before after : List (QuotedText × Tree)) : key.read = .ok name →
      c.member? r name = some m → Variant c m.shape t u →
      Variant c (.record r) (.object (before ++ (key, t) :: after) none)
        (.object (before ++ (key, u) :: after) none)
  | order {r : ρ} {members others : List (QuotedText × Tree)} : members.Perm others →
      Variant c (.record r) (.object members none) (.object others none)
  /-- A member that the record does not declare, with anything that can be passed over. -/
  | unknown {r : ρ} {key : QuotedText} {name : String} {t : Tree}
      (members : List (QuotedText × Tree)) : key.read = .ok name → c.member? r name = none →
      t.skip = .ok () →
      Variant c (.record r) (.object members none) (.object ((key, t) :: members) none)
  /-- Null for a member that is absent and may be null. -/
  | absent {r : ρ} {m : Member ρ} {key : QuotedText} {name : String}
      (members : List (QuotedText × Tree)) : key.read = .ok name → c.member? r name = some m →
      m.nullable = true → (∀ pair ∈ members, pair.1.read ≠ .ok name) →
      Variant c (.record r) (.object members none) (.object ((key, .null) :: members) none)
  /-- Null at the end of a record that is written as a list. -/
  | ending {r : ρ} {m : Member ρ} (items : List Tree) : (c.members r)[items.length]? = some m →
      m.nullable = true → Variant c (.record r) (.list items none) (.list (items ++ [.null]) none)

variable {c : Catalogue ρ} {levels : ρ → Nat} {room : Nat} {r : ρ}

theorem Variant.isNull_eq {shape : Shape ρ} {t u : Tree} (h : c.Variant shape t u) :
    t.isNull = u.isNull := by
  induction h with
  | refl => rfl
  | symm _ ih => exact ih.symm
  | trans _ _ first second => exact first.trans second
  | item => rfl
  | place => rfl
  | member => rfl
  | order => rfl
  | unknown => rfl
  | absent => rfl
  | ending => rfl

theorem sameValue_member {m : Member ρ} {t u : Tree} (null : t.isNull = u.isNull)
    (h : SameValue (c.decode room m.shape t) (c.decode room m.shape u)) :
    SameValue (c.memberValue room m t) (c.memberValue room m u) := by
  unfold memberValue
  rw [null]
  split
  · exact .refl _
  · exact h

/-! ### Lists -/

theorem sameValue_items {item : Shape ρ} {t u : Tree}
    (h : SameValue (c.decode room item t) (c.decode room item u)) (before after : List Tree) :
    SameValue (c.decodeItems room item (before ++ t :: after))
      (c.decodeItems room item (before ++ u :: after)) := by
  induction before with
  | nil => exact h.bind fun value => .refl _
  | cons first before ih =>
      exact SameValue.bind (.refl (c.decode room item first)) fun value => ih.bind fun _ => .refl _

theorem decodeInOrder_cons (found : Found) (m : Member ρ) (ms : List (Member ρ)) (t : Tree)
    (ts : List Tree) (cut : Option Break) :
    c.decodeInOrder room found (m :: ms) (t :: ts) cut = (do
      let value ← c.memberValue room m t
      c.decodeInOrder room ((m.name, value) :: found) ms ts cut) := by
  simp only [decodeInOrder, memberValue]
  split <;> rfl

theorem sameValue_inOrder {m : Member ρ} {t u : Tree}
    (h : SameValue (c.memberValue room m t) (c.memberValue room m u)) (before after : List Tree)
    {ms : List (Member ρ)} (found : Found) (placed : ms[before.length]? = some m) :
    SameValue (c.decodeInOrder room found ms (before ++ t :: after) none)
      (c.decodeInOrder room found ms (before ++ u :: after) none) := by
  induction before generalizing ms found with
  | nil =>
      cases ms with
      | nil => cases placed
      | cons first ms =>
          cases placed
          rw [List.nil_append, List.nil_append, decodeInOrder_cons, decodeInOrder_cons]
          exact h.bind fun value => .refl _
  | cons here before ih =>
      cases ms with
      | nil => cases placed
      | cons first ms =>
          rw [List.cons_append, List.cons_append, decodeInOrder_cons, decodeInOrder_cons]
          exact SameValue.bind (.refl _) fun value => ih _ placed

/-- Null for one more member adds its fallback. -/
theorem decodeInOrder_ending {m : Member ρ} (nullable : m.nullable = true) (items : List Tree)
    {ms : List (Member ρ)} (found : Found) (placed : ms[items.length]? = some m) :
    c.decodeInOrder room found ms (items ++ [.null]) none =
      (c.decodeInOrder room found ms items none).map ((m.name, m.fallback) :: ·) := by
  induction items generalizing ms found with
  | nil =>
      cases ms with
      | nil => cases placed
      | cons first ms =>
          cases placed
          rw [List.nil_append, decodeInOrder_cons, memberValue_null nullable]
          rfl
  | cons t items ih =>
      cases ms with
      | nil => cases placed
      | cons first ms =>
          rw [List.cons_append, decodeInOrder_cons, decodeInOrder_cons]
          cases c.memberValue room first t with
          | error f => rfl
          | ok value => exact ih _ placed

theorem names_of_decodeInOrder (items : List Tree) {ms : List (Member ρ)} {found all : Found}
    (h : c.decodeInOrder room found ms items none = .ok all) :
    all.map Prod.fst = ((ms.take items.length).map Member.name).reverse ++ found.map Prod.fst := by
  induction items generalizing ms found with
  | nil =>
      cases h
      rfl
  | cons t items ih =>
      cases ms with
      | nil => cases h
      | cons m ms =>
          rw [decodeInOrder_cons] at h
          obtain ⟨value, -, later⟩ := ok_of_bind h
          rw [ih later, List.length_cons, List.take_succ_cons, List.map_cons, List.map_cons,
            List.reverse_cons, List.append_assoc]
          rfl

theorem decode_recordList (items : List Tree) :
    c.decode (room + 1) (.record r) (.list items none) =
      (c.decodeInOrder room [] (c.members r) items none).map (Found.complete (c.members r)) := by
  simp only [decode]
  cases c.decodeInOrder room [] (c.members r) items none <;> rfl

theorem name_not_mem_take {ms : List (Member ρ)} (distinct : (ms.map Member.name).Nodup) {n : Nat}
    {m : Member ρ} (placed : ms[n]? = some m) : m.name ∉ (ms.take n).map Member.name := by
  have front : ((ms.take (n + 1)).map Member.name).Nodup :=
    distinct.sublist ((List.take_sublist (n + 1) ms).map Member.name)
  rw [List.take_add_one, placed, List.map_append, Option.toList_some, List.map_singleton,
    List.nodup_append] at front
  exact fun member => front.2.2 m.name member m.name List.mem_cons_self rfl

theorem sameValue_ending (coherent : c.Coherent levels) {m : Member ρ} (items : List Tree)
    (placed : (c.members r)[items.length]? = some m) (nullable : m.nullable = true) :
    SameValue (c.decode (room + 1) (.record r) (.list items none))
      (c.decode (room + 1) (.record r) (.list (items ++ [.null]) none)) := by
  rw [decode_recordList, decode_recordList, decodeInOrder_ending nullable items [] placed]
  cases decoded : c.decodeInOrder room [] (c.members r) items none with
  | error f => exact .refl _
  | ok all =>
      have fresh : m.name ∉ all.map Prod.fst := by
        rw [names_of_decodeInOrder items decoded, List.map_nil, List.append_nil, List.mem_reverse]
        exact name_not_mem_take (coherent.distinct r) placed
      have completed := complete_fallback coherent (List.mem_of_getElem? placed) fresh
      intro d
      simp only [Except.map, completed]

/-! ### Objects -/

theorem sameValue_order {pairs others : List (QuotedText × Tree)} (perm : pairs.Perm others) :
    SameValue (c.decode (room + 1) (.record r) (.object pairs none))
      (c.decode (room + 1) (.record r) (.object others none)) := by
  intro d
  have values : (c.given room r pairs).Perm (c.given room r others) := perm.filterMap _
  have names := (values.map Prod.fst).nodup_iff
  rw [decode_object_eq_ok, decode_object_eq_ok, names]
  refine and_congr (forall_congr' fun pair => imp_congr_left perm.mem_iff) ?_
  refine and_congr_right fun distinct => ?_
  rw [complete_perm values (names.mpr distinct)]

theorem sameValue_entry {pair other : QuotedText × Tree}
    (h : SameValue (c.entry room r pair) (c.entry room r other))
    (before after : List (QuotedText × Tree)) :
    SameValue (c.decode (room + 1) (.record r) (.object (before ++ pair :: after) none))
      (c.decode (room + 1) (.record r) (.object (before ++ other :: after) none)) := by
  intro d
  have accepted : c.Accepts room r pair ↔ c.Accepts room r other := exists_congr h
  have values : c.given room r (before ++ pair :: after) =
      c.given room r (before ++ other :: after) := by
    simp only [given, List.filterMap_append, List.filterMap_cons, h.toOption_eq]
  rw [decode_object_eq_ok, decode_object_eq_ok, values]
  simp only [List.forall_mem_append, List.forall_mem_cons, accepted]

theorem sameValue_unknown {pair : QuotedText × Tree} (passed : c.entry room r pair = .ok none)
    (pairs : List (QuotedText × Tree)) :
    SameValue (c.decode (room + 1) (.record r) (.object pairs none))
      (c.decode (room + 1) (.record r) (.object (pair :: pairs) none)) := by
  intro d
  have accepted : c.Accepts room r pair := ⟨none, passed⟩
  rw [decode_object_eq_ok, decode_object_eq_ok, given_cons passed, List.forall_mem_cons,
    and_iff_right accepted]
  rfl

theorem sameValue_absent (coherent : c.Coherent levels) {key : QuotedText} {m : Member ρ}
    (read : key.read = .ok m.name) (declared : m ∈ c.members r) (nullable : m.nullable = true)
    {pairs : List (QuotedText × Tree)} (absent : ∀ pair ∈ pairs, pair.1.read ≠ .ok m.name) :
    SameValue (c.decode (room + 1) (.record r) (.object pairs none))
      (c.decode (room + 1) (.record r) (.object ((key, .null) :: pairs) none)) := by
  intro d
  have entry : c.entry room r (key, .null) = .ok (some (m.name, m.fallback)) := by
    rw [entry_known read (coherent.member?_eq declared), memberValue_null nullable]
    rfl
  have accepted : c.Accepts room r (key, .null) := ⟨_, entry⟩
  have fresh : m.name ∉ (c.given room r pairs).map Prod.fst := by
    intro member
    obtain ⟨⟨name, value⟩, gave, rfl⟩ := List.mem_map.mp member
    obtain ⟨pair, present, same⟩ := read_of_mem_given gave
    exact absent pair present same
  rw [decode_object_eq_ok, decode_object_eq_ok, given_cons entry, List.forall_mem_cons,
    and_iff_right accepted, Option.toList_some, List.singleton_append, List.map_cons,
    List.nodup_cons, and_iff_right fresh, complete_fallback coherent declared fresh]

/-! ### Any depth -/

theorem decode_list (item : Shape ρ) (items : List Tree) :
    c.decode (room + 1) (.list item) (.list items none) =
      (c.decodeItems room item items).map .list := by
  simp only [decode]
  cases c.decodeItems room item items <;> rfl

/-- A tree that stands for a value can be replaced by any of its variants. -/
theorem Variant.sameValue (coherent : c.Coherent levels) {shape : Shape ρ} {t u : Tree}
    (h : c.Variant shape t u) : SameValue (c.decode room shape t) (c.decode room shape u) := by
  -- Each level of nesting leaves one less room; without any, both trees are too deep.
  induction h generalizing room with
  | refl shape t => exact .refl _
  | symm _ ih => exact ih.symm
  | trans _ _ first second => exact first.trans second
  | item before after _ ih =>
      cases room with
      | zero => exact .refl _
      | succ room =>
          rw [decode_list, decode_list]
          exact (sameValue_items ih before after).map _
  | place before after placed h ih =>
      cases room with
      | zero => exact .refl _
      | succ room =>
          rw [decode_recordList, decode_recordList]
          exact (sameValue_inOrder (sameValue_member h.isNull_eq ih) before after [] placed).map _
  | @member r m key name t u before after read known h ih =>
      cases room with
      | zero => exact .refl _
      | succ room =>
          refine sameValue_entry ?_ before after
          rw [entry_known read known, entry_known read known]
          exact (sameValue_member h.isNull_eq ih).map _
  | order perm =>
      cases room with
      | zero => exact .refl _
      | succ room => exact sameValue_order perm
  | unknown members read undeclared skipped =>
      cases room with
      | zero => exact .refl _
      | succ room => exact sameValue_unknown (entry_unknown read undeclared skipped) members
  | absent members read known nullable missing =>
      cases room with
      | zero => exact .refl _
      | succ room =>
          obtain ⟨declared, rfl⟩ := mem_of_member? known
          exact sameValue_absent coherent read declared nullable missing
  | ending items placed nullable =>
      cases room with
      | zero => exact .refl _
      | succ room => exact sameValue_ending coherent items placed nullable

/-! ### Texts -/

/-- Texts of variants, with something after the value in both or in neither. -/
def VariantTexts (c : Catalogue ρ) (shape : Shape ρ) (s s' : String) : Prop :=
  c.Variant shape (Text.read s).value (Text.read s').value ∧
    (Text.read s).more = (Text.read s').more

theorem VariantTexts.sameValue (coherent : c.Coherent levels) {shape : Shape ρ} {s s' : String}
    (h : c.VariantTexts shape s s') : SameValue (c.read shape s) (c.read shape s') := by
  have values : SameValue (c.decode depthLimit shape (Text.read s).value)
      (c.decode depthLimit shape (Text.read s').value) := h.1.sameValue coherent
  unfold Catalogue.read
  simp only [h.2]
  exact values.bind fun _ => .refl _

theorem VariantTexts.of_written {shape : Shape ρ} {d e : Datum} (free : d.floatFree = true)
    (free' : e.floatFree = true) (h : c.Variant shape (Tree.written d) (Tree.written e)) :
    c.VariantTexts shape (write d) (writeIndented e) := by
  rw [VariantTexts, Text.read_write d free, Text.read_writeIndented e free']
  exact ⟨h, rfl⟩

end Catalogue
end ServiceDoc.Json
