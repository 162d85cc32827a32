import ServiceDoc.Proofs.OpenApi.Slots

/-! Path items under `merge`. The first operation of a slot stays, so merging is a monoid that
commutes where nothing is refused, and filled and refused operations together are conserved. An item
can also be moved into another one slot after the other: what comes out is the same. -/
namespace ServiceDoc.OpenApi
open Http (Verb)

namespace PathItem

/-! ### The monoid -/

theorem merge_assoc (a b c : PathItem) : (a.merge b).merge c = a.merge (b.merge c) := by
  apply ext_operation
  intro v
  simp only [operation_merge, Option.or_assoc]

@[simp] theorem empty_merge (a : PathItem) : merge {} a = a := by
  apply ext_operation
  intro v
  rw [operation_merge, operation_empty, Option.none_or]

@[simp] theorem merge_empty (a : PathItem) : a.merge {} = a := by
  apply ext_operation
  intro v
  rw [operation_merge, operation_empty, Option.or_none]

theorem merge_self (a : PathItem) : a.merge a = a := by
  apply ext_operation
  intro v
  rw [operation_merge, Option.or_self]

theorem mem_taken {a b : PathItem} {v : Verb} :
    v ∈ a.taken b ↔ (a.operation v).isSome = true ∧ (b.operation v).isSome = true := by
  simp only [taken, List.mem_filter, Verb.mem_all, true_and, Bool.and_eq_true]

theorem taken_self (a : PathItem) : a.taken a = a.verbs := by
  simp only [taken, verbs, Bool.and_self]

/-- Where no slot is filled in both items it does not matter which one comes first. -/
theorem merge_comm {a b : PathItem} (free : a.taken b = []) : a.merge b = b.merge a := by
  apply ext_operation
  intro v
  have alone : ¬ ((a.operation v).isSome = true ∧ (b.operation v).isSome = true) := by
    rw [← mem_taken, free]
    exact List.not_mem_nil
  rw [operation_merge, operation_merge]
  cases ha : a.operation v with
  | none => rw [Option.none_or, Option.or_none]
  | some o =>
      cases hb : b.operation v with
      | none => rfl
      | some p =>
          rw [ha, hb] at alone
          exact absurd ⟨rfl, rfl⟩ alone

/-- However three items are grouped, as many operations are refused. -/
theorem length_taken_assoc (a b c : PathItem) :
    (a.taken b).length + ((a.merge b).taken c).length =
      (b.taken c).length + (a.taken (b.merge c)).length := by
  have left := length_verbs_merge a b
  have leftLast := length_verbs_merge (a.merge b) c
  have right := length_verbs_merge b c
  have rightLast := length_verbs_merge a (b.merge c)
  rw [merge_assoc] at leftLast
  omega

/-! ### Slot after slot -/

def setSlot (item : PathItem) (v : Verb) (o : Option Operation) : PathItem :=
  match v with
  | .get => { item with get := o }
  | .put => { item with put := o }
  | .post => { item with post := o }
  | .delete => { item with delete := o }
  | .options => { item with options := o }
  | .head => { item with head := o }
  | .patch => { item with patch := o }

@[simp] theorem operation_setSlot (item : PathItem) (v : Verb) (o : Option Operation) (w : Verb) :
    (item.setSlot v o).operation w = if w = v then o else item.operation w := by
  cases v <;> cases w <;> rfl

/-- Operations on their way into an item, and the verbs whose slots were filled there already. -/
structure Move where
  target : PathItem
  source : PathItem
  refused : List Verb := []

namespace Move

/-- The slot of the source is emptied, whether its operation is kept or not. -/
def step (m : Move) (v : Verb) : Move :=
  match m.source.operation v, m.target.operation v with
  | none, _ => m
  | some o, none =>
    { m with target := m.target.setSlot v (some o), source := m.source.setSlot v none }
  | some _, some _ =>
    { m with source := m.source.setSlot v none, refused := m.refused ++ [v] }

def run (m : Move) (verbs : List Verb) : Move := verbs.foldl step m

theorem target_step (m : Move) (v w : Verb) :
    (m.step v).target.operation w =
      if w = v then (m.target.operation v).or (m.source.operation v)
      else m.target.operation w := by
  unfold step
  split
  next none =>
    rw [none, Option.or_none]
    split
    next same => rw [same]
    next => rfl
  next o some free => rw [operation_setSlot, some, free, Option.none_or]
  next o p some filled =>
    rw [some, filled, Option.some_or]
    split
    next same => rw [same, filled]
    next => rfl

theorem source_step (m : Move) (v w : Verb) :
    (m.step v).source.operation w = if w = v then none else m.source.operation w := by
  unfold step
  split
  next none =>
    split
    next same => rw [same, none]
    next => rfl
  next => exact operation_setSlot ..
  next => exact operation_setSlot ..

/-- Both items have an operation for a verb. -/
def collides (m : Move) (v : Verb) : Bool :=
  (m.target.operation v).isSome && (m.source.operation v).isSome

theorem refused_step (m : Move) (v : Verb) :
    (m.step v).refused = m.refused ++ if m.collides v then [v] else [] := by
  unfold step collides
  split
  next none => simp [none]
  next some free => simp [free]
  next some filled => simp [some, filled]

/-- Slots of other verbs wait as they are. -/
theorem collides_step {m : Move} {v w : Verb} (other : w ≠ v) :
    (m.step v).collides w = m.collides w := by
  unfold collides
  rw [target_step, source_step, if_neg other, if_neg other]

theorem target_run (m : Move) (verbs : List Verb) (w : Verb) :
    (m.run verbs).target.operation w =
      if w ∈ verbs then (m.target.operation w).or (m.source.operation w)
      else m.target.operation w := by
  induction verbs generalizing m with
  | nil => rfl
  | cons v rest ih =>
      refine (ih (m.step v)).trans ?_
      rw [target_step, source_step]
      by_cases here : w = v
      · subst here
        simp
      · simp [here]

theorem source_run (m : Move) (verbs : List Verb) (w : Verb) :
    (m.run verbs).source.operation w = if w ∈ verbs then none else m.source.operation w := by
  induction verbs generalizing m with
  | nil => rfl
  | cons v rest ih =>
      refine (ih (m.step v)).trans ?_
      rw [source_step]
      by_cases here : w = v
      · subst here
        simp
      · simp [here]

theorem refused_run (m : Move) {verbs : List Verb} (distinct : verbs.Nodup) :
    (m.run verbs).refused = m.refused ++ verbs.filter m.collides := by
  induction verbs generalizing m with
  | nil => exact (List.append_nil _).symm
  | cons v rest ih =>
      obtain ⟨fresh, distinct⟩ := List.nodup_cons.mp distinct
      have later : rest.filter (m.step v).collides = rest.filter m.collides := by
        apply List.filter_congr
        intro w member
        exact collides_step (fun same => fresh (same ▸ member))
      refine (ih (m.step v) distinct).trans ?_
      rw [refused_step, later, List.append_assoc, List.filter_cons]
      split <;> rfl

/-- Moving every slot merges the items and leaves nothing behind. -/
theorem run_all (a b : PathItem) : run ⟨a, b, []⟩ Verb.all = ⟨a.merge b, {}, a.taken b⟩ := by
  have target : (run ⟨a, b, []⟩ Verb.all).target = a.merge b := by
    apply ext_operation
    intro v
    rw [target_run, if_pos (Verb.mem_all v), operation_merge]
  have source : (run ⟨a, b, []⟩ Verb.all).source = {} := by
    apply ext_operation
    intro v
    rw [source_run, if_pos (Verb.mem_all v), operation_empty]
  have refused : (run ⟨a, b, []⟩ Verb.all).refused = a.taken b :=
    refused_run ⟨a, b, []⟩ (by decide)
  rw [← target, ← source, ← refused]

end Move

/-- Merging is a monoid in which the first operation of a slot stays. It reports the slots that both
items fill, in slot order, loses no operation without a report, and is what moving the slots one by
one comes to. -/
theorem merge_first_wins (a b c : PathItem) :
    (∀ v, (a.merge b).operation v = (a.operation v).or (b.operation v)) ∧
    (a.taken b).Sublist Verb.all ∧
    (∀ v, v ∈ a.taken b ↔ (a.operation v).isSome = true ∧ (b.operation v).isSome = true) ∧
    Move.run ⟨a, b, []⟩ Verb.all = ⟨a.merge b, {}, a.taken b⟩ ∧
    (a.merge b).merge c = a.merge (b.merge c) ∧
    merge {} a = a ∧ a.merge {} = a ∧
    a.merge a = a ∧ a.taken a = a.verbs ∧
    (a.taken b = [] → a.merge b = b.merge a) ∧
    (a.merge b).verbs.length + (a.taken b).length = a.verbs.length + b.verbs.length ∧
    (a.taken b).length + ((a.merge b).taken c).length =
      (b.taken c).length + (a.taken (b.merge c)).length := by
  exact ⟨operation_merge a b, List.filter_sublist, fun v => mem_taken, Move.run_all a b,
    merge_assoc a b c, empty_merge a, merge_empty a, merge_self a, taken_self a, merge_comm,
    length_verbs_merge a b, length_taken_assoc a b c⟩

/-- Items of different verbs, and one that holds both. -/
def readers : PathItem := serving (.one .get) { id := "read" }

def writers : PathItem := serving (.one .put) { id := "write" }

theorem readers_writers_commute :
    readers.taken writers = [] ∧ readers.merge writers = writers.merge readers ∧
      (readers.taken writers).length + ((readers.merge writers).taken readers).length = 1 := by
  have laws := merge_first_wins readers writers readers
  obtain ⟨-, -, -, -, -, -, -, -, -, comm, -, grouped⟩ := laws
  exact ⟨by decide, comm (by decide), grouped.trans (by decide)⟩

end PathItem
end ServiceDoc.OpenApi
