import ServiceDoc.Proofs.Yaml.Opening
import ServiceDoc.Proofs.Yaml.Page

/-! Written data are told apart by their texts, also when something comes after them. Nodes with the
same text have the same form; from there on their texts are peeled off together, part by part. -/
namespace ServiceDoc.Yaml

/-! ### What comes after a node -/

/-- Before this column stands what comes after a node. -/
def Place.limit : Place → Nat
  | .top => 0
  | .mark column | .key column => column + 1

/-- What can come after a node: nothing that stands as far in as its lines, and no item at the
column of its own items. -/
structure Follows (place : Place) (r : List Char) : Prop where
  below : Below place.limit r
  other : ∀ rest, r ≠ spaces place.itemColumn ++ '-' :: ' ' :: rest

theorem key_unique {a b : String} {column : Nat} {r s : List Char}
    (hr : Stops (':' :: r)) (hs : Stops (':' :: s))
    (h : keyText column a ++ r = keyText column b ++ s) : a = b ∧ r = s := by
  cases simple : isSimpleKey a with
  | true =>
      rw [keyText_simple simple] at h
      cases simple' : isSimpleKey b with
      | true =>
          rw [keyText_simple simple'] at h
          obtain ⟨same, rest⟩ := Scalar.inline_unique (Scalar.readable_ofText a true)
            (Scalar.readable_ofText b true) hr hs (within_ofText_key a) h
          exact ⟨ofText_injective same, (List.cons.inj rest).2⟩
      | false =>
          rw [keyText_marked simple'] at h
          exact absurd h (Scalar.inline_ne_marked (Scalar.readable_ofText a true) (.inr rfl) _ _ _)
  | false =>
      rw [keyText_marked simple] at h
      cases simple' : isSimpleKey b with
      | true =>
          rw [keyText_simple simple'] at h
          exact absurd h.symm
            (Scalar.inline_ne_marked (Scalar.readable_ofText b true) (.inr rfl) _ _ _)
      | false =>
          rw [keyText_marked simple'] at h
          have lines := (List.cons.inj (List.cons.inj h).2).2
          have below (rest : List Char) : Below (column + 2) (spaces column ++ ':' :: rest) :=
            .inr ⟨column, ':', rest, by omega, rfl, by decide, rfl⟩
          obtain ⟨same, rest⟩ := Scalar.lines_unique (Scalar.readable_ofText a false)
            (Scalar.readable_ofText b false) (below r) (below s) lines
          exact ⟨ofText_injective same, (List.cons.inj (List.append_cancel_left rest)).2⟩

/-- More items of a block, or what comes after it. -/
theorem follows_item {column : Nat} (ds : List Datum) {r : List Char}
    (h : Below (column + 1) r) :
    Follows (.mark column) (itemsText (spaces column) column ds ++ r) := by
  have below : Below (column + 1) (itemsText (spaces column) column ds ++ r) := by
    cases ds with
    | nil => exact h
    | cons d ds =>
        rw [itemsText_cons]
        exact .inr ⟨column, '-', _, Nat.lt_succ_self column, rfl, by decide, rfl⟩
  exact ⟨below, fun rest => below.ne_spaces (Nat.le_succ _) _⟩

/-- More members of a block, or what comes after it. -/
theorem follows_member {column : Nat} (key : String) {ms : List (String × Datum)}
    (worded : ∀ m ∈ ms, m.2.Worded) {r : List Char} (h : Below column r) :
    Follows (valuePlace column key) (membersText (spaces column) column ms ++ r) := by
  have limit : (valuePlace column key).limit = column + 1 := by
    unfold valuePlace
    split <;> rfl
  have items : column ≤ (valuePlace column key).itemColumn := by
    unfold valuePlace
    split
    · exact Nat.le_refl column
    · exact Nat.le_add_right column 2
  cases ms with
  | nil => exact ⟨h.mono (limit ▸ Nat.le_succ column), fun rest => h.ne_spaces items _⟩
  | cons m ms =>
      obtain ⟨cs, shape, opens⟩ := membersText_opens m.1 (worded m List.mem_cons_self) ms r
      obtain ⟨c, after, rfl, space, ends⟩ := opens.head
      rw [shape]
      refine ⟨.inr ⟨column, c, after, limit ▸ Nat.lt_succ_self column, rfl, space, ends⟩, ?_⟩
      intro rest same
      obtain ⟨-, rfl, rfl⟩ := spaces_append_inj space (by decide) same
      cases opens.unique (.item _) rfl

/-! ### Nodes

What follows a node is passed down to the last of its parts; the parts before it are followed by the
next one, which stands no further in than they do. -/

theorem Follows.scalar {place : Place} {r : List Char} (h : Follows place r) :
    Below (textColumn place.indent) r := by
  refine h.below.mono ?_
  cases place
  · exact Nat.zero_le 2
  all_goals exact Nat.le_succ _

theorem Follows.items {place : Place} {r : List Char} (h : Follows place r) :
    Follows (.key place.itemColumn) r := by
  refine ⟨h.below.mono ?_, h.other⟩
  cases place with
  | top => exact Nat.zero_le 1
  | mark column => exact Nat.add_le_add_right (Nat.le_add_right column 2) 1
  | key column => exact Nat.le_refl _

theorem Follows.members {place : Place} {r : List Char} (h : Follows place r) :
    Below (inner place.indent) r := by
  refine h.below.mono ?_
  cases place
  · exact Nat.le_refl 0
  all_goals exact Nat.le_succ _

theorem scalar_unique {d e : Datum} (hd : d.Worded) (form : formOf d = .scalar) (he : e.Worded)
    {place : Place} {r s : List Char} (hr : Follows place r) (hs : Follows place s)
    (h : nodeText place d ++ r = nodeText place e ++ s) : d = e ∧ r = s := by
  obtain ⟨a, found⟩ := exists_scalar hd form
  obtain ⟨b, found'⟩ := exists_scalar he ((formOf_unique hd he h).symm.trans form)
  rw [nodeText_scalar found, nodeText_scalar found', List.append_assoc, List.append_assoc] at h
  obtain ⟨rfl, rest⟩ := Scalar.lines_unique (readable_scalarOf found) (readable_scalarOf found')
    hr.scalar hs.scalar (List.append_cancel_left h)
  exact ⟨scalarOf_unique found found', rest⟩

/-- What leads a block in makes no difference to telling it from another one. -/
theorem itemsText_relead {lead : List Char} {column : Nat} {d e : Datum} {ds es : List Datum}
    {r s : List Char}
    (h : itemsText lead column (d :: ds) ++ r = itemsText lead column (e :: es) ++ s)
    (other : List Char) :
    itemsText other column (d :: ds) ++ r = itemsText other column (e :: es) ++ s := by
  rw [itemsText_cons, itemsText_cons] at h ⊢
  rw [List.append_cancel_left h]

theorem membersText_relead {lead : List Char} {column : Nat} {m n : String × Datum}
    {ms ns : List (String × Datum)} {r s : List Char}
    (h : membersText lead column (m :: ms) ++ r = membersText lead column (n :: ns) ++ s)
    (other : List Char) :
    membersText other column (m :: ms) ++ r = membersText other column (n :: ns) ++ s := by
  rw [membersText_cons, membersText_cons] at h ⊢
  rw [List.append_cancel_left h]

mutual

theorem nodeText_unique : ∀ (d : Datum), d.Worded → ∀ {e : Datum}, e.Worded →
    ∀ {place : Place} {r s : List Char}, Follows place r → Follows place s →
      nodeText place d ++ r = nodeText place e ++ s → d = e ∧ r = s
  | .bool b, hd, _, he, _, _, _, hr, hs, h => scalar_unique hd rfl he hr hs h
  | .text t, hd, _, he, _, _, _, hr, hs, h => scalar_unique hd rfl he hr hs h
  | .list [], hd, _, he, _, _, _, hr, hs, h => scalar_unique hd rfl he hr hs h
  | .map [], hd, _, he, _, _, _, hr, hs, h => scalar_unique hd rfl he hr hs h
  | .list (d :: ds), hd, e, he, place, r, s, hr, hs, h => by
      obtain ⟨e, es, rfl⟩ := exists_items he (formOf_unique hd he h).symm
      have blocks := itemsText_relead h (spaces place.itemColumn)
      obtain ⟨same, rest⟩ := itemsText_unique (d :: ds) hd.item he.item hr.items hs.items blocks
      exact ⟨congrArg Datum.list same, rest⟩
  | .map (m :: ms), hd, e, he, place, r, s, hr, hs, h => by
      obtain ⟨n, ns, rfl⟩ := exists_members he (formOf_unique hd he h).symm
      have blocks := membersText_relead h (spaces (inner place.indent))
      obtain ⟨same, rest⟩ :=
        membersText_unique (m :: ms) hd.member he.member hr.members hs.members blocks
      exact ⟨congrArg Datum.map same, rest⟩

theorem itemsText_unique : ∀ (ds : List Datum), (∀ d ∈ ds, d.Worded) →
    ∀ {es : List Datum}, (∀ e ∈ es, e.Worded) → ∀ {column : Nat} {r s : List Char},
      Follows (.key column) r → Follows (.key column) s →
        itemsText (spaces column) column ds ++ r = itemsText (spaces column) column es ++ s →
          ds = es ∧ r = s
  | [], _, [], _, _, _, _, _, _, h => ⟨rfl, h⟩
  | [], _, e :: es, he, column, r, s, hr, _, h => by
      obtain ⟨cs, shape, opens⟩ := itemsText_opens (he e List.mem_cons_self) es s
      rw [shape] at h
      cases opens
      exact absurd h (hr.other _)
  | d :: ds, hd, [], _, column, r, s, _, hs, h => by
      obtain ⟨cs, shape, opens⟩ := itemsText_opens (hd d List.mem_cons_self) ds r
      rw [shape] at h
      cases opens
      exact absurd h.symm (hs.other _)
  | d :: ds, hd, e :: es, he, column, r, s, hr, hs, h => by
      obtain ⟨first, others⟩ := List.forall_mem_cons.mp hd
      obtain ⟨first', others'⟩ := List.forall_mem_cons.mp he
      rw [itemsText_cons, itemsText_cons] at h
      have nodes := (List.cons.inj (List.append_cancel_left h)).2
      obtain ⟨rfl, later⟩ := nodeText_unique d first first' (follows_item ds hr.below)
        (follows_item es hs.below) nodes
      obtain ⟨rfl, rest⟩ := itemsText_unique ds others others' hr hs later
      exact ⟨rfl, rest⟩

theorem membersText_unique : ∀ (ms : List (String × Datum)), (∀ m ∈ ms, m.2.Worded) →
    ∀ {ns : List (String × Datum)}, (∀ n ∈ ns, n.2.Worded) → ∀ {column : Nat} {r s : List Char},
      Below column r → Below column s →
        membersText (spaces column) column ms ++ r = membersText (spaces column) column ns ++ s →
          ms = ns ∧ r = s
  | [], _, [], _, _, _, _, _, _, h => ⟨rfl, h⟩
  | [], _, n :: ns, hn, column, r, s, hr, _, h => by
      obtain ⟨cs, shape, opens⟩ := membersText_opens n.1 (hn n List.mem_cons_self) ns s
      obtain ⟨c, after, rfl, -⟩ := opens.head
      exact absurd (h.trans shape) (hr.ne_spaces (Nat.le_refl column) after)
  | m :: ms, hm, [], _, column, r, s, _, hs, h => by
      obtain ⟨cs, shape, opens⟩ := membersText_opens m.1 (hm m List.mem_cons_self) ms r
      obtain ⟨c, after, rfl, -⟩ := opens.head
      exact absurd (h.symm.trans shape) (hs.ne_spaces (Nat.le_refl column) after)
  | (key, d) :: ms, hm, (key', e) :: ns, hn, column, r, s, hr, hs, h => by
      obtain ⟨first, others⟩ := List.forall_mem_cons.mp hm
      obtain ⟨first', others'⟩ := List.forall_mem_cons.mp hn
      rw [membersText_cons, membersText_cons] at h
      obtain ⟨rfl, values⟩ := key_unique (stops_value first (indent_valuePlace column key) _)
        (stops_value first' (indent_valuePlace column key') _) (List.append_cancel_left h)
      obtain ⟨rfl, later⟩ := nodeText_unique d first first' (follows_member key others hr)
        (follows_member key others' hs) values
      obtain ⟨rfl, rest⟩ := membersText_unique ms others others' hr hs later
      exact ⟨rfl, rest⟩

end

/-- Data of texts and truth values, lists and maps are told apart by their texts. -/
theorem eq_of_write {d e : Datum} (hd : d.Worded) (he : e.Worded) (h : write d = write e) :
    d = e := by
  have nothing : Follows .top [] := ⟨.inl rfl, fun _ => (List.cons_ne_nil _ _).symm⟩
  have texts := congrArg String.toList h
  rw [toList_write hd, toList_write he] at texts
  exact (nodeText_unique d hd he nothing nothing (congrArg (· ++ []) texts)).1

end ServiceDoc.Yaml
