import ServiceDoc.Proofs.Json.Fit

/-! What a record is decoded to from an object. Each entry is accepted or not by itself, whatever
stands around it; what the declared ones give must have different names, and the record is completed
from them by name, so that their order does not count. -/
namespace ServiceDoc.Json
namespace Catalogue
variable {ρ : Type} {c : Catalogue ρ} {levels : ρ → Nat} {room : Nat} {r : ρ}

/-! ### One entry -/

/-- What a member holds; null stands for the fallback of one that may be null. -/
def memberValue (c : Catalogue ρ) (room : Nat) (m : Member ρ) (t : Tree) : Except Fault Datum :=
  if m.nullable && t.isNull then .ok m.fallback else c.decode room m.shape t

theorem memberValue_null {m : Member ρ} (nullable : m.nullable = true) :
    c.memberValue room m .null = .ok m.fallback := by
  rw [memberValue, nullable]
  rfl

/-- What an entry adds to a record. One that is not declared is passed over and adds nothing. -/
def entry (c : Catalogue ρ) (room : Nat) (r : ρ) (pair : QuotedText × Tree) :
    Except Fault (Option (String × Datum)) := do
  let name ← pair.1.read
  match c.member? r name with
  | none =>
    pair.2.skip
    return none
  | some m =>
    let value ← c.memberValue room m pair.2
    return some (name, value)

theorem entry_known {key : QuotedText} {name : String} {m : Member ρ} (read : key.read = .ok name)
    (known : c.member? r name = some m) (t : Tree) :
    c.entry room r (key, t) = (c.memberValue room m t).map fun value => some (name, value) := by
  simp only [entry, read, bind, Except.bind, known]
  cases c.memberValue room m t <;> rfl

theorem entry_unknown {key : QuotedText} {name : String} {t : Tree} (read : key.read = .ok name)
    (unknown : c.member? r name = none) (skipped : t.skip = .ok ()) :
    c.entry room r (key, t) = .ok none := by
  simp only [entry, read, bind, Except.bind, unknown, skipped]
  rfl

/-- A value comes under the name that its key reads as. -/
theorem name_of_entry {pair : QuotedText × Tree} {name : String} {d : Datum}
    (h : c.entry room r pair = .ok (some (name, d))) : pair.1.read = .ok name := by
  obtain ⟨known, read, later⟩ := ok_of_bind h
  cases declared : c.member? r known with
  | none =>
      rw [declared] at later
      obtain ⟨_, -, none_eq⟩ := ok_of_bind later
      cases none_eq
  | some m =>
      rw [declared] at later
      obtain ⟨value, -, same⟩ := ok_of_bind later
      cases same
      exact read

/-! ### All entries -/

theorem decodeMembers_cons_known {key : QuotedText} {name : String} {m : Member ρ}
    (read : key.read = .ok name) (known : c.member? r name = some m) (t : Tree) (found : Found)
    (rest : List (QuotedText × Tree)) :
    c.decodeMembers room r found ((key, t) :: rest) =
      if found.has name then .error (.duplicate name)
      else c.memberValue room m t >>= fun value =>
        c.decodeMembers room r ((name, value) :: found) rest := by
  simp only [decodeMembers, read, bind, Except.bind, known, memberValue]
  split
  · rfl
  · split <;> rfl

theorem decodeMembers_cons_unknown {key : QuotedText} {name : String} (read : key.read = .ok name)
    (unknown : c.member? r name = none) (t : Tree) (found : Found)
    (rest : List (QuotedText × Tree)) :
    c.decodeMembers room r found ((key, t) :: rest) =
      t.skip >>= fun _ => c.decodeMembers room r found rest := by
  simp only [decodeMembers, read, bind, Except.bind, unknown]

theorem decodeMembers_cons (found : Found) (pair : QuotedText × Tree)
    (rest : List (QuotedText × Tree)) (all : Found) :
    c.decodeMembers room r found (pair :: rest) = .ok all ↔
      ∃ given, c.entry room r pair = .ok given ∧ (∀ e ∈ given, found.has e.1 = false) ∧
        c.decodeMembers room r (given.toList ++ found) rest = .ok all := by
  obtain ⟨key, t⟩ := pair
  cases read : key.read with
  | error f =>
      simp only [decodeMembers, entry, read, bind, Except.bind]
      simp
  | ok name =>
      cases declared : c.member? r name with
      | none =>
          rw [decodeMembers_cons_unknown read declared]
          cases skipped : t.skip with
          | error f =>
              simp only [entry, read, bind, Except.bind, declared, skipped]
              simp
          | ok done =>
              rw [entry_unknown read declared skipped]
              simp [bind, Except.bind]
      | some m =>
          rw [decodeMembers_cons_known read declared, entry_known read declared]
          cases valued : c.memberValue room m t with
          | error f => cases taken : found.has name <;> simp [bind, Except.bind, Except.map]
          | ok value => cases taken : found.has name <;> simp [bind, Except.bind, Except.map, taken]

/-- An entry that may stand in an object. -/
def Accepts (c : Catalogue ρ) (room : Nat) (r : ρ) (pair : QuotedText × Tree) : Prop :=
  ∃ given, c.entry room r pair = .ok given

/-- The values that the entries of an object give. -/
def given (c : Catalogue ρ) (room : Nat) (r : ρ) (pairs : List (QuotedText × Tree)) : Found :=
  pairs.filterMap fun pair => (c.entry room r pair).toOption.join

theorem given_cons {pair : QuotedText × Tree} {e : Option (String × Datum)}
    (h : c.entry room r pair = .ok e) (rest : List (QuotedText × Tree)) :
    c.given room r (pair :: rest) = e.toList ++ c.given room r rest := by
  cases e with
  | none => exact List.filterMap_cons_none (by rw [h]; rfl)
  | some e => exact List.filterMap_cons_some (by rw [h]; rfl)

/-- What is given was read, under its own name. -/
theorem read_of_mem_given {pairs : List (QuotedText × Tree)} {name : String} {d : Datum}
    (h : (name, d) ∈ c.given room r pairs) : ∃ pair ∈ pairs, pair.1.read = .ok name := by
  obtain ⟨pair, member, gave⟩ := List.mem_filterMap.mp h
  refine ⟨pair, member, ?_⟩
  cases entry : c.entry room r pair with
  | error f =>
      rw [entry] at gave
      cases gave
  | ok e =>
      rw [entry] at gave
      cases gave
      exact name_of_entry entry

theorem has_eq_false_iff {found : Found} {name : String} :
    found.has name = false ↔ name ∉ found.map Prod.fst := by
  rw [Found.has, List.any_eq_false, List.mem_map]
  constructor
  · rintro other ⟨e, member, rfl⟩
    exact other e member (beq_self_eq_true _)
  · intro other e member same
    exact other ⟨e, member, beq_iff_eq.mp same⟩

theorem nodup_toList_append {e : Option (String × Datum)} {found : Found}
    (distinct : (found.map Prod.fst).Nodup) :
    ((e.toList ++ found).map Prod.fst).Nodup ↔ ∀ pair ∈ e, found.has pair.1 = false := by
  cases e with
  | none => exact iff_of_true distinct nofun
  | some pair =>
      rw [Option.toList_some, List.singleton_append, List.map_cons, List.nodup_cons,
        and_iff_left distinct, ← has_eq_false_iff]
      simp

/-- Entries are accepted one by one. What they give must have different names. -/
theorem decodeMembers_eq_ok (pairs : List (QuotedText × Tree)) {found all : Found}
    (distinct : (found.map Prod.fst).Nodup) :
    c.decodeMembers room r found pairs = .ok all ↔
      (∀ pair ∈ pairs, c.Accepts room r pair) ∧ (all.map Prod.fst).Nodup ∧
        all = (c.given room r pairs).reverse ++ found := by
  induction pairs generalizing found with
  | nil =>
      constructor
      · rintro ⟨⟩
        exact ⟨nofun, distinct, rfl⟩
      · rintro ⟨-, -, rfl⟩
        rfl
  | cons pair rest ih =>
      -- What the first entry gives is found before the rest is read.
      have given_first : ∀ {e}, c.entry room r pair = .ok e →
          (c.given room r (pair :: rest)).reverse ++ found =
            (c.given room r rest).reverse ++ (e.toList ++ found) := by
        intro e entry
        rw [given_cons entry, List.reverse_append, List.append_assoc]
        cases e <;> rfl
      rw [decodeMembers_cons, List.forall_mem_cons]
      constructor
      · rintro ⟨e, entry, fresh, later⟩
        obtain ⟨accepted, nodup, same⟩ := (ih ((nodup_toList_append distinct).mpr fresh)).mp later
        exact ⟨⟨⟨e, entry⟩, accepted⟩, nodup, same.trans (given_first entry).symm⟩
      · rintro ⟨⟨⟨e, entry⟩, accepted⟩, nodup, same⟩
        obtain rfl := same.trans (given_first entry)
        have wider : ((e.toList ++ found).map Prod.fst).Nodup := by
          rw [List.map_append] at nodup
          exact nodup.of_append_right
        exact ⟨e, entry, (nodup_toList_append distinct).mp wider,
          (ih wider).mpr ⟨accepted, nodup, rfl⟩⟩

/-! ### Completion by name -/

theorem lookup_eq_some_iff {found : Found} (distinct : (found.map Prod.fst).Nodup) {name : String}
    {d : Datum} : found.lookup name = some d ↔ (name, d) ∈ found :=
  ⟨mem_of_lookup, lookup_of_mem distinct⟩

theorem lookup_perm {found other : Found} (perm : found.Perm other)
    (distinct : (found.map Prod.fst).Nodup) (name : String) :
    found.lookup name = other.lookup name := by
  have distinct' : (other.map Prod.fst).Nodup := (perm.map Prod.fst).nodup distinct
  ext d
  rw [lookup_eq_some_iff distinct, lookup_eq_some_iff distinct', perm.mem_iff]

theorem complete_congr {found other : Found} {ms : List (Member ρ)}
    (h : ∀ m ∈ ms, (found.lookup m.name).getD m.fallback = (other.lookup m.name).getD m.fallback) :
    Found.complete ms found = Found.complete ms other := by
  unfold Found.complete
  refine congrArg Datum.map (List.map_congr_left fun m member => ?_)
  rw [h m member]

/-- The order in which the members were found does not count. -/
theorem complete_perm {found other : Found} (perm : found.Perm other)
    (distinct : (found.map Prod.fst).Nodup) (ms : List (Member ρ)) :
    Found.complete ms found = Found.complete ms other :=
  complete_congr fun m _ => congrArg (·.getD m.fallback) (lookup_perm perm distinct m.name)

/-- A member that was not found is completed by its fallback. -/
theorem complete_fallback (coherent : c.Coherent levels) {m : Member ρ}
    (declared : m ∈ c.members r) {found : Found} (absent : m.name ∉ found.map Prod.fst) :
    Found.complete (c.members r) ((m.name, m.fallback) :: found) =
      Found.complete (c.members r) found := by
  refine complete_congr fun other member => ?_
  by_cases same : other.name = m.name
  · have eq : other = m := by
      have known := coherent.member?_eq member
      rw [same, coherent.member?_eq declared] at known
      exact (Option.some.inj known).symm
    have missing : found.lookup m.name = none := by
      rw [List.lookup_eq_none_iff]
      intro e found_e
      exact bne_iff_ne.mpr fun same => absent (same ▸ List.mem_map_of_mem found_e)
    rw [eq, List.lookup_cons_self, missing]
    rfl
  · rw [List.lookup_cons, beq_false_of_ne same]

theorem decode_object (pairs : List (QuotedText × Tree)) :
    c.decode (room + 1) (.record r) (.object pairs none) =
      (c.decodeMembers room r [] pairs).map (Found.complete (c.members r)) := by
  simp only [decode]
  cases c.decodeMembers room r [] pairs <;> rfl

/-- An object stands for a record if its entries are accepted and give different names. -/
theorem decode_object_eq_ok (pairs : List (QuotedText × Tree)) (d : Datum) :
    c.decode (room + 1) (.record r) (.object pairs none) = .ok d ↔
      (∀ pair ∈ pairs, c.Accepts room r pair) ∧ ((c.given room r pairs).map Prod.fst).Nodup ∧
        Found.complete (c.members r) (c.given room r pairs) = d := by
  have backwards := List.reverse_perm (c.given room r pairs)
  have names := (backwards.map Prod.fst).nodup_iff
  have members : ∀ all, c.decodeMembers room r [] pairs = .ok all ↔
      (∀ pair ∈ pairs, c.Accepts room r pair) ∧ (all.map Prod.fst).Nodup ∧
        all = (c.given room r pairs).reverse := by
    intro all
    have start : (([] : Found).map Prod.fst).Nodup := .nil
    rw [decodeMembers_eq_ok pairs start, List.append_nil]
  rw [decode_object]
  constructor
  · intro h
    obtain ⟨all, decoded, complete⟩ := ok_of_map h
    obtain ⟨accepted, distinct, rfl⟩ := (members all).mp decoded
    exact ⟨accepted, names.mp distinct, (complete_perm backwards distinct _).symm.trans complete⟩
  · rintro ⟨accepted, distinct, rfl⟩
    rw [(members _).mpr ⟨accepted, names.mpr distinct, rfl⟩]
    exact congrArg Except.ok (complete_perm backwards.symm distinct _).symm

end Catalogue
end ServiceDoc.Json
