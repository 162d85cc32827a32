import ServiceDoc.Proofs.Assembly.Account
import ServiceDoc.Proofs.Assembly.Position

/-! Tags. Whether a service has a tag is decided while its functions are placed: one of them has to
find a free slot. An operation is never displaced later, so the tags are those of the services that
own a slot of the finished document. -/
namespace ServiceDoc.Assembly
open Idl OpenApi Http

/-- A service owns a slot of the document if the first function that claims the slot is its own. -/
def ownsSlot (settings : Settings) (i : Interface) (k : Fin i.services.length) : Bool :=
  (document settings i).paths.any fun entry =>
    entry.2.verbs.any fun v => (firstPosition i entry.1 v).any fun p => p.1 == k

/-- One of some functions claims a slot that no earlier function claims. -/
def Opens (earlier : List (Service × Function)) (fs : List Function) : Prop :=
  ∃ f ∈ fs, ∃ b ∈ bindingOf f, ∃ v ∈ b.method.verbs, ∀ x ∈ earlier, ¬ Claims x.2 b.path v

instance (earlier : List (Service × Function)) (fs : List Function) :
    Decidable (Opens earlier fs) :=
  inferInstanceAs (Decidable (∃ f ∈ fs, ∃ b ∈ bindingOf f, ∃ v ∈ b.method.verbs,
    ∀ x ∈ earlier, ¬ Claims x.2 b.path v))

theorem opens_iff {earlier : List (Service × Function)} {fs : List Function} :
    Opens earlier fs ↔
      ∃ f ∈ fs, ∃ path v, Claims f path v ∧ ∀ x ∈ earlier, ¬ Claims x.2 path v := by
  constructor
  · rintro ⟨f, mem, b, hb, v, hv, fresh⟩
    exact ⟨f, mem, b.path, v, ⟨b, hb, rfl, hv⟩, fresh⟩
  · rintro ⟨f, mem, path, v, ⟨b, hb, rfl, hv⟩, fresh⟩
    exact ⟨f, mem, b, hb, v, hv, fresh⟩

/-- A slot that a later function opens is opened by this one, or this one does not claim it. -/
theorem opens_cons (earlier : List (Service × Function)) (s : Service) (f : Function)
    (rest : List Function) :
    Opens earlier (f :: rest) ↔ Opens earlier [f] ∨ Opens (earlier ++ [(s, f)]) rest := by
  simp only [opens_iff]
  constructor
  · rintro ⟨g, mem, path, v, claim, fresh⟩
    by_cases own : Claims f path v
    · exact .inl ⟨f, List.mem_singleton_self f, path, v, own, fresh⟩
    · rcases List.mem_cons.mp mem with rfl | later
      · exact absurd claim own
      · refine .inr ⟨g, later, path, v, claim, fun x mem => ?_⟩
        rcases List.mem_append.mp mem with before | here
        · exact fresh x before
        · rwa [List.mem_singleton.mp here]
  · rintro (⟨g, mem, slot⟩ | ⟨g, mem, path, v, claim, fresh⟩)
    · exact ⟨g, List.mem_cons.mpr (.inl (List.mem_singleton.mp mem)), slot⟩
    · exact ⟨g, List.mem_cons_of_mem f mem, path, v, claim,
        fun x before => fresh x (List.mem_append_left _ before)⟩

theorem refusedVerbs_eq (earlier : List (Service × Function)) (b : Binding) :
    refusedVerbs earlier b =
      b.method.verbs.filter fun v => ∃ x ∈ earlier, Claims x.2 b.path v := by
  have verbs : b.method.verbs = Verb.all.filter fun v => v ∈ b.method.verbs := by
    cases b.method with
    | any => rfl
    | one verb => cases verb <;> rfl
  conv_rhs => rw [verbs, List.filter_filter]
  refine List.filter_congr fun v _ => ?_
  rw [Bool.decide_and, Bool.and_comm]

namespace FilledBy

variable {paths : Paths} {earlier : List (Service × Function)}

theorem served_placeFunction (h : FilledBy paths earlier) (i : Interface) (s : Service)
    (f : Function) :
    (Assembly.placeFunction i s paths f).served = true ↔ Opens earlier [f] := by
  unfold Assembly.placeFunction
  cases bound : bindingOf f with
  | none => simp [Opens, bound]
  | some b =>
      simp only [decide_eq_true_eq, h.taken_eq, refusedVerbs_eq,
        List.length_filter_lt_length_iff_exists]
      simp only [Opens, List.mem_singleton, exists_eq_left, bound, Option.mem_some_iff,
        exists_eq_left', not_exists, not_and]

theorem served_placeFunctions (h : FilledBy paths earlier) (i : Interface) (s : Service)
    (fs : List Function) :
    (placeFunctions i s paths fs).served = true ↔ Opens earlier fs := by
  induction fs generalizing paths earlier with
  | nil => simp [placeFunctions, Opens]
  | cons f rest ih =>
      rw [opens_cons earlier s f rest, ← h.served_placeFunction i s f,
        ← ih (h.placeFunction i s f), ← Bool.or_eq_true]
      rfl

theorem placed (h : FilledBy paths earlier) (i : Interface) (xs : List (Service × Function)) :
    FilledBy (Assembly.placed i paths xs) (earlier ++ xs) := by
  induction xs generalizing paths earlier with
  | nil => rwa [List.append_nil]
  | cons x rest ih =>
      obtain ⟨s, f⟩ := x
      rw [List.append_cons]
      exact ih (h.placeFunction i s f)

end FilledBy

/-- The functions of some services, each with its service. -/
def entries (services : List Service) : List (Service × Function) :=
  services.flatMap fun s => s.functions.map fun f => (s, f)

/-- The tags of a run are those of the services that open a slot after the functions before them. -/
theorem FilledBy.tags_placeServices {paths : Paths} {earlier : List (Service × Function)}
    (h : FilledBy paths earlier) (i : Interface) {services : List Service}
    (own : Fin services.length → Bool)
    (opens : ∀ k, own k = true ↔
      Opens (earlier ++ entries (services.take k)) (services.get k).functions) :
    (placeServices i paths services).tags =
      ((List.finRange services.length).filter own).map fun k => tagOf (services.get k) := by
  induction services generalizing paths earlier with
  | nil => rfl
  | cons s rest ih =>
      have numbers : List.finRange (s :: rest).length =
          0 :: (List.finRange rest.length).map Fin.succ := List.finRange_succ
      have served : (placeFunctions i s paths s.functions).served = own 0 := by
        rw [Bool.eq_iff_iff, h.served_placeFunctions, opens 0]
        simp [entries]
      have filled : FilledBy (placeFunctions i s paths s.functions).paths
          (earlier ++ entries [s]) := by
        rw [placeFunctions_paths, entries, List.flatMap_singleton]
        exact h.placed i _
      have others := ih filled (own ∘ Fin.succ) fun k => by
        rw [Function.comp_apply, opens k.succ]
        simp [entries]
      rw [numbers, List.filter_cons, List.filter_map]
      simp only [placeServices, served, others]
      split <;> simp only [List.map_cons, List.map_map] <;> rfl

variable {i : Interface}

theorem mem_entries_take {x : Service × Function} {k : Nat} :
    x ∈ entries (i.services.take k) ↔
      ∃ p : Position i, p.1 < k ∧ x = (p.service, p.function) := by
  simp only [entries, List.mem_flatMap, List.mem_map]
  constructor
  · rintro ⟨s, hs, f, hf, rfl⟩
    obtain ⟨n, hn, rfl⟩ := List.mem_take_iff_getElem.mp hs
    obtain ⟨m, hm, rfl⟩ := List.mem_iff_getElem.mp hf
    have bounds := Nat.lt_min.mp hn
    exact ⟨⟨⟨n, bounds.2⟩, ⟨m, hm⟩⟩, bounds.1, rfl⟩
  · rintro ⟨p, lt, rfl⟩
    refine ⟨p.service, ?_, p.function, List.getElem_mem p.2.isLt, rfl⟩
    exact List.mem_take_iff_getElem.mpr ⟨p.1, Nat.lt_min.mpr ⟨lt, p.1.isLt⟩, rfl⟩

/-- A service that opens a slot is the one of the first function that claims the slot. -/
theorem opens_iff_firstPosition (k : Fin i.services.length) :
    Opens (entries (i.services.take k)) (i.services.get k).functions ↔
      ∃ path v p, firstPosition i path v = some p ∧ p.1 = k := by
  rw [opens_iff]
  constructor
  · rintro ⟨f, mem, path, v, claim, fresh⟩
    obtain ⟨m, hm, rfl⟩ := List.mem_iff_getElem.mp mem
    let own : Position i := ⟨k, ⟨m, hm⟩⟩
    have claim : Claims own.function path v := claim
    obtain ⟨p, first⟩ := exists_firstPosition claim
    refine ⟨path, v, p, first, ?_⟩
    rcases lt_trichotomy p.1 k with lt | same | gt
    · have taken := mem_entries_take.mpr ⟨p, lt, rfl⟩
      exact absurd (claims_of_firstPosition first) (fresh _ taken)
    · exact same
    · have before : own.Before p := .inl gt
      exact absurd claim (not_claims_before first before)
  · rintro ⟨path, v, p, first, rfl⟩
    refine ⟨p.function, List.getElem_mem p.2.isLt, path, v, claims_of_firstPosition first, ?_⟩
    intro x mem
    obtain ⟨q, lt, rfl⟩ := mem_entries_take.mp mem
    exact not_claims_before first (.inl lt)

theorem mem_of_slot {paths : Paths} {path : String} {v : Verb} {o : Operation}
    (h : paths.slot path v = some o) : ∃ item, (path, item) ∈ paths ∧ v ∈ item.verbs := by
  obtain ⟨item, found, operation⟩ := Option.bind_eq_some_iff.mp h
  exact ⟨item, Table.mem_of_get? found, PathItem.mem_verbs.mpr (Option.isSome_of_eq_some operation)⟩

theorem ownsSlot_iff {settings : Settings} {k : Fin i.services.length} :
    ownsSlot settings i k = true ↔
      ∃ path v p, firstPosition i path v = some p ∧ p.1 = k := by
  simp only [ownsSlot, List.any_eq_true, Option.any_eq_true, beq_iff_eq]
  constructor
  · rintro ⟨entry, -, v, -, p, first, same⟩
    exact ⟨entry.1, v, p, first, same⟩
  · rintro ⟨path, v, p, first, same⟩
    have filled := slot_firstPosition settings i path v
    rw [first, Option.map_some] at filled
    obtain ⟨item, mem, verb⟩ := mem_of_slot filled
    exact ⟨(path, item), mem, v, verb, p, first, same⟩

/-- The services that own a slot, in the order of declaration. -/
def slotOwners (settings : Settings) (i : Interface) : List Service :=
  ((List.finRange i.services.length).filter (ownsSlot settings i)).map i.services.get

theorem mem_slotOwners {settings : Settings} {s : Service} :
    s ∈ slotOwners settings i ↔ ∃ path v p, firstPosition i path v = some p ∧ p.service = s := by
  simp only [slotOwners, List.mem_map, List.mem_filter, List.mem_finRange, true_and, ownsSlot_iff]
  constructor
  · rintro ⟨k, ⟨path, v, p, first, rfl⟩, rfl⟩
    exact ⟨path, v, p, first, rfl⟩
  · rintro ⟨path, v, p, first, rfl⟩
    exact ⟨p.1, ⟨path, v, p, first, rfl⟩, rfl⟩

theorem slotOwners_sublist (settings : Settings) (i : Interface) :
    (slotOwners settings i).Sublist i.services := by
  have all : (List.finRange i.services.length).map i.services.get = i.services :=
    List.map_get_finRange i.services
  have kept := (List.filter_sublist (p := ownsSlot settings i)
    (l := List.finRange i.services.length)).map i.services.get
  rwa [all] at kept

theorem assembled_tags (settings : Settings) (i : Interface) :
    (assembled i).tags = (slotOwners settings i).map tagOf := by
  rw [slotOwners, List.map_map]
  exact filledBy_nil.tags_placeServices i (ownsSlot settings i) fun k => by
    rw [ownsSlot_iff, List.nil_append, opens_iff_firstPosition]

theorem document_tags (settings : Settings) (i : Interface) :
    StablySorted Tag.name ((slotOwners settings i).map tagOf) (document settings i).tags := by
  rw [← assembled_tags]
  exact stablySorted_mergeSort Tag.name (assembled i).tags

theorem names_of_tags_perm (settings : Settings) (i : Interface) :
    ((document settings i).tags.map Tag.name).Perm
      ((slotOwners settings i).map Service.name) := by
  have perm := (document_tags settings i).perm.map Tag.name
  rwa [List.map_map] at perm

theorem exists_slot_tagged_iff {settings : Settings} {name : String} :
    (∃ path v o, (document settings i).paths.slot path v = some o ∧ o.tags = [name]) ↔
      ∃ path v p, firstPosition i path v = some p ∧ p.service.name = name := by
  simp only [slot_firstPosition, Option.map_eq_some_iff]
  constructor
  · rintro ⟨path, v, o, ⟨p, first, rfl⟩, tags⟩
    exact ⟨path, v, p, first, List.singleton_inj.mp tags⟩
  · rintro ⟨path, v, p, first, rfl⟩
    exact ⟨path, v, _, ⟨p, first, rfl⟩, rfl⟩

/-- Tags and operations refer to each other. The tags are those of the services that own a slot of
the document, sorted by name; every operation has one tag, and the names of tags are those that
operations have; and tags have different names if services have. -/
theorem tags_of_slot_owners (settings : Settings) (i : Interface) :
    StablySorted Tag.name ((slotOwners settings i).map tagOf) (document settings i).tags ∧
    (∀ path v o, (document settings i).paths.slot path v = some o → ∃ name, o.tags = [name]) ∧
    (∀ name, name ∈ (document settings i).tags.map Tag.name ↔
      ∃ path v o, (document settings i).paths.slot path v = some o ∧ o.tags = [name]) ∧
    ((i.services.map Service.name).Nodup → ((document settings i).tags.map Tag.name).Nodup) := by
  refine ⟨document_tags settings i, ?_, ?_, ?_⟩
  · intro path v o filled
    rw [slot_firstPosition, Option.map_eq_some_iff] at filled
    obtain ⟨p, -, rfl⟩ := filled
    exact ⟨p.service.name, rfl⟩
  · intro name
    rw [(names_of_tags_perm settings i).mem_iff, exists_slot_tagged_iff, List.mem_map]
    constructor
    · rintro ⟨s, owner, rfl⟩
      obtain ⟨path, v, p, first, rfl⟩ := mem_slotOwners.mp owner
      exact ⟨path, v, p, first, rfl⟩
    · rintro ⟨path, v, p, first, rfl⟩
      exact ⟨p.service, mem_slotOwners.mpr ⟨path, v, p, first, rfl⟩, rfl⟩
  · intro distinct
    rw [(names_of_tags_perm settings i).nodup_iff]
    exact distinct.sublist ((slotOwners_sublist settings i).map Service.name)

/-- The second service gets nothing, the third one a slot that the first does not ask for. -/
def crowded : Interface where
  services :=
    [{ name := "Users", functions := [{ name := "all", notes := [⟨"api.get", ["/users"]⟩] }] },
     { name := "Audit", functions := [{ name := "all", notes := [⟨"api.get", ["/users"]⟩] }] },
     { name := "Admin", functions := [{ name := "all", notes := [⟨"api.any", ["/users"]⟩] }] }]

theorem crowded_tags :
    (crowded.services.map Service.name).Nodup ∧
      ((document {} crowded).tags.map Tag.name).Nodup ∧
      "Admin" ∈ (document {} crowded).tags.map Tag.name := by
  have distinct : (crowded.services.map Service.name).Nodup := by decide
  obtain ⟨-, -, names, nodup⟩ := tags_of_slot_owners {} crowded
  refine ⟨distinct, nodup distinct, (names "Admin").mpr ⟨"/users", .post, ?_⟩⟩
  rw [slot_firstPosition]
  exact ⟨_, rfl, rfl⟩

end ServiceDoc.Assembly
