import ServiceDoc.Assembly.Placement
import ServiceDoc.Proofs.OpenApi.Slots

/-! Claims on slots. A function claims the slots that its binding asks for. Placing one function
fills those of its slots that are free, so after a run every slot belongs to the earliest function
that claims it. -/
namespace ServiceDoc.Assembly
open Idl OpenApi Http

/-- All functions in the order in which they are declared, each with its service. -/
def declared (i : Interface) : List (Service × Function) :=
  i.services.flatMap fun s => s.functions.map fun f => (s, f)

def Claims (f : Function) (path : String) (v : Verb) : Prop :=
  ∃ b ∈ bindingOf f, b.path = path ∧ v ∈ b.method.verbs

instance (f : Function) (path : String) (v : Verb) : Decidable (Claims f path v) :=
  inferInstanceAs (Decidable (∃ b ∈ bindingOf f, b.path = path ∧ v ∈ b.method.verbs))

def firstClaimant (i : Interface) (path : String) (v : Verb) : Option (Service × Function) :=
  (declared i).find? fun x => Claims x.2 path v

theorem claims_of_binding {f : Function} {b : Binding} (h : bindingOf f = some b) (path : String)
    (v : Verb) : Claims f path v ↔ b.path = path ∧ v ∈ b.method.verbs := by
  simp only [Claims, h, Option.mem_some_iff, exists_eq_left']

theorem not_claims_of_unbound {f : Function} (h : bindingOf f = none) (path : String) (v : Verb) :
    ¬ Claims f path v := by
  simp only [Claims, h, Option.mem_def, reduceCtorEq, false_and, exists_false, not_false_eq_true]

/-- Two claims of one function are on one path. -/
theorem Claims.path_eq {f : Function} {path other : String} {v w : Verb} (h : Claims f path v)
    (k : Claims f other w) : path = other := by
  obtain ⟨b, hb, rfl, -⟩ := h
  exact ((claims_of_binding hb other w).mp k).1

theorem exists_mem_verbs (m : Method) : ∃ v, v ∈ m.verbs := by
  cases m with
  | any => exact ⟨.get, Verb.mem_all .get⟩
  | one verb => exact ⟨verb, List.mem_singleton_self verb⟩

theorem slot_placeFunction (i : Interface) (s : Service) (paths : Paths) (f : Function)
    (path : String) (v : Verb) :
    (placeFunction i s paths f).paths.slot path v =
      (paths.slot path v).or (if Claims f path v then some (operationOf i s f) else none) := by
  unfold placeFunction
  cases h : bindingOf f with
  | none => simp only [not_claims_of_unbound h, if_false, Option.or_none]
  | some b =>
      simp only [Paths.slot_add, PathItem.operation_serving, claims_of_binding h]
      by_cases here : path = b.path
      · subst here
        simp only [if_true, true_and]
      · simp only [here, Ne.symm here, if_false, false_and, Option.or_none]

theorem mem_names_placeFunction (i : Interface) (s : Service) (paths : Paths) (f : Function)
    (path : String) :
    path ∈ (placeFunction i s paths f).paths.names ↔
      path ∈ paths.names ∨ ∃ v, Claims f path v := by
  unfold placeFunction
  cases h : bindingOf f with
  | none => simp only [not_claims_of_unbound h, exists_false, or_false]
  | some b =>
      have claimed : (∃ v, Claims f path v) ↔ path = b.path := by
        constructor
        · rintro ⟨v, claim⟩
          exact ((claims_of_binding h path v).mp claim).1.symm
        · intro here
          obtain ⟨v, mem⟩ := exists_mem_verbs b.method
          exact ⟨v, (claims_of_binding h path v).mpr ⟨here.symm, mem⟩⟩
      rw [claimed]
      exact (Paths.mem_names_add paths b.path _ path).trans or_comm

theorem nodup_names_placeFunction {paths : Paths} (nodup : paths.names.Nodup) (i : Interface)
    (s : Service) (f : Function) : (placeFunction i s paths f).paths.names.Nodup := by
  unfold placeFunction
  cases bindingOf f with
  | none => exact nodup
  | some b => exact Paths.nodup_names_add nodup b.path _

/-- The paths after some functions, whatever their services. -/
def placed (i : Interface) : Paths → List (Service × Function) → Paths
  | paths, [] => paths
  | paths, (s, f) :: rest => placed i (placeFunction i s paths f).paths rest

theorem placed_append (i : Interface) (paths : Paths) (xs ys : List (Service × Function)) :
    placed i paths (xs ++ ys) = placed i (placed i paths xs) ys := by
  induction xs generalizing paths with
  | nil => rfl
  | cons x xs ih => exact ih _

theorem placeFunctions_paths (i : Interface) (s : Service) (paths : Paths) (fs : List Function) :
    (placeFunctions i s paths fs).paths = placed i paths (fs.map fun f => (s, f)) := by
  induction fs generalizing paths with
  | nil => rfl
  | cons f rest ih => exact ih _

theorem placeServices_paths (i : Interface) (paths : Paths) (services : List Service) :
    (placeServices i paths services).paths =
      placed i paths (services.flatMap fun s => s.functions.map fun f => (s, f)) := by
  induction services generalizing paths with
  | nil => rfl
  | cons s rest ih =>
      rw [List.flatMap_cons, placed_append, ← placeFunctions_paths]
      exact ih _

theorem assembled_paths (i : Interface) : (assembled i).paths = placed i [] (declared i) :=
  placeServices_paths i [] i.services

/-- What was there stays; a free slot goes to the first that claims it. -/
theorem slot_placed (i : Interface) (paths : Paths) (xs : List (Service × Function))
    (path : String) (v : Verb) :
    (placed i paths xs).slot path v =
      (paths.slot path v).or
        ((xs.find? fun x => Claims x.2 path v).map fun x => operationOf i x.1 x.2) := by
  induction xs generalizing paths with
  | nil => simp only [placed, List.find?_nil, Option.map_none, Option.or_none]
  | cons x rest ih =>
      obtain ⟨s, f⟩ := x
      rw [placed, ih, slot_placeFunction, Option.or_assoc, List.find?_cons]
      by_cases claim : Claims f path v
      · simp only [claim, if_true, decide_true, Option.map_some, Option.some_or]
      · simp only [claim, if_false, decide_false, Option.none_or]

theorem mem_names_placed (i : Interface) (paths : Paths) (xs : List (Service × Function))
    (path : String) :
    path ∈ (placed i paths xs).names ↔
      path ∈ paths.names ∨ ∃ x ∈ xs, ∃ v, Claims x.2 path v := by
  induction xs generalizing paths with
  | nil => simp only [placed, List.not_mem_nil, false_and, exists_false, or_false]
  | cons x rest ih =>
      obtain ⟨s, f⟩ := x
      rw [placed, ih, mem_names_placeFunction, or_assoc]
      simp only [List.mem_cons, exists_eq_or_imp]

theorem nodup_names_placed (i : Interface) {paths : Paths} (nodup : paths.names.Nodup)
    (xs : List (Service × Function)) : (placed i paths xs).names.Nodup := by
  induction xs generalizing paths with
  | nil => exact nodup
  | cons x rest ih => exact ih (nodup_names_placeFunction nodup i x.1 x.2)

theorem nodup_names_assembled (i : Interface) : (assembled i).paths.names.Nodup := by
  have empty : (Table.names ([] : Paths)).Nodup := List.nodup_nil
  rw [assembled_paths]
  exact nodup_names_placed i empty (declared i)

theorem document_paths (settings : Settings) (i : Interface) :
    (document settings i).paths = (assembled i).paths.sorted := rfl

theorem nodup_names_document (settings : Settings) (i : Interface) :
    (document settings i).paths.names.Nodup :=
  Table.nodup_names_sorted (nodup_names_assembled i)

/-- Sorting does not move an operation to another slot. -/
theorem slot_document (settings : Settings) (i : Interface) (path : String) (v : Verb) :
    (document settings i).paths.slot path v =
      (firstClaimant i path v).map fun x => operationOf i x.1 x.2 := by
  rw [document_paths, Paths.slot_sorted (nodup_names_assembled i), assembled_paths, slot_placed]
  rfl

theorem mem_names_document (settings : Settings) (i : Interface) (path : String) :
    path ∈ (document settings i).paths.names ↔ ∃ x ∈ declared i, ∃ v, Claims x.2 path v := by
  rw [document_paths, Table.mem_names_sorted, assembled_paths, mem_names_placed]
  simp only [Table.names_nil, List.not_mem_nil, false_or]

theorem firstClaimant_isSome {i : Interface} {path : String} {v : Verb} :
    (firstClaimant i path v).isSome = true ↔ ∃ x ∈ declared i, Claims x.2 path v := by
  unfold firstClaimant
  rw [List.find?_isSome]
  simp only [decide_eq_true_eq]

theorem mem_names_document_iff_slot (settings : Settings) (i : Interface) (path : String) :
    path ∈ (document settings i).paths.names ↔
      ∃ v, ((document settings i).paths.slot path v).isSome = true := by
  simp only [mem_names_document, slot_document, Option.isSome_map, firstClaimant_isSome]
  constructor
  · rintro ⟨x, mem, v, claim⟩
    exact ⟨v, x, mem, claim⟩
  · rintro ⟨v, x, mem, claim⟩
    exact ⟨x, mem, v, claim⟩

/-- Documents of one interface or of two differ in their information, paths or tags, if at all. -/
theorem document_ext {settings : Settings} {i j : Interface}
    (info : infoOf settings i = infoOf settings j)
    (paths : (document settings i).paths = (document settings j).paths)
    (tags : (document settings i).tags = (document settings j).tags) :
    document settings i = document settings j := by
  have parts : ∀ i, document settings i =
      { openapi := settings.openapiVersion, info := infoOf settings i,
        paths := (document settings i).paths, schemas := Table.sorted [],
        tags := (document settings i).tags } := fun _ => rfl
  rw [parts i, parts j, info, paths, tags]

theorem verbs_ne_nil_of_mem_document {settings : Settings} {i : Interface}
    {entry : String × PathItem} (h : entry ∈ (document settings i).paths) :
    entry.2.verbs ≠ [] := by
  have named : entry.1 ∈ (document settings i).paths.names := List.mem_map_of_mem h
  obtain ⟨x, declared, v, claim⟩ := (mem_names_document settings i entry.1).mp named
  have found := Table.get?_of_mem (nodup_names_document settings i) h
  have filled : (entry.2.operation v).isSome = true := by
    have slot := slot_document settings i entry.1 v
    rw [Paths.slot, found, Option.bind_some] at slot
    rw [slot, Option.isSome_map]
    exact firstClaimant_isSome.mpr ⟨x, declared, claim⟩
  exact List.ne_nil_of_mem (PathItem.mem_verbs.mpr filled)

/-- First claimant wins: each slot of the document has the operation of the earliest function that
claims it and is empty without one; the paths are those that are claimed, in strictly increasing
order, and each of them has an operation. -/
theorem document_first_claimant (settings : Settings) (i : Interface) :
    (∀ path v, (document settings i).paths.slot path v =
      ((declared i).find? fun x => Claims x.2 path v).map fun x => operationOf i x.1 x.2) ∧
    (∀ path v, (document settings i).paths.slot path v = none ↔
      ∀ x ∈ declared i, ¬ Claims x.2 path v) ∧
    (∀ path, path ∈ (document settings i).paths.names ↔
      ∃ x ∈ declared i, ∃ v, Claims x.2 path v) ∧
    (document settings i).paths.names.Pairwise (· < ·) ∧
    (∀ entry ∈ (document settings i).paths, entry.2.verbs ≠ []) := by
  refine ⟨slot_document settings i, ?_, mem_names_document settings i,
    Table.names_sorted_lt (nodup_names_assembled i), fun _ => verbs_ne_nil_of_mem_document⟩
  intro path v
  rw [slot_document, Option.map_eq_none_iff, ← Option.not_isSome_iff_eq_none, firstClaimant_isSome]
  simp only [not_exists, not_and]

end ServiceDoc.Assembly
