import ServiceDoc.Proofs.Assembly.Exposure
import Mathlib.Logic.Equiv.Basic

/-! Reordered declarations. Services and functions may be declared in another order as long as
functions with a common slot and services with a common name keep theirs: the document is the same
and the warnings come in another order. -/
namespace ServiceDoc.Assembly
open Idl OpenApi Http

/-- Two lists of all values of a type, each in its order. What a bijection keeps in order is the
same selection from both. -/
theorem filter_map_equiv {α β : Type} {R : α → α → Prop} {S : β → β → Prop} {xs : List α}
    {ys : List β} (e : α ≃ β) (hx : xs.Pairwise R) (hy : ys.Pairwise S) (all : ∀ a, a ∈ xs)
    (all' : ∀ b, b ∈ ys) (asymm : ∀ {a b}, S a b → ¬ S b a) {p : α → Bool} {q : β → Bool}
    (agree : ∀ a, q (e a) = p a)
    (kept : ∀ a b, p a = true → p b = true → R a b → S (e a) (e b)) :
    (xs.filter p).map e = ys.filter q := by
  have left : ((xs.filter p).map e).Pairwise S := by
    refine List.pairwise_map.mpr ((hx.filter p).imp_of_mem ?_)
    intro a b ha hb
    exact kept a b (List.mem_filter.mp ha).2 (List.mem_filter.mp hb).2
  have right : (ys.filter q).Pairwise S := hy.filter q
  have nodup : ∀ {l : List β}, l.Pairwise S → l.Nodup := fun ordered => ordered.imp (by
    rintro a b less rfl
    exact asymm less less)
  refine List.Perm.eq_of_pairwise (fun a b _ _ less more => absurd more (asymm less)) left right ?_
  refine (List.perm_ext_iff_of_nodup (nodup left) (nodup right)).mpr fun b => ?_
  simp only [List.mem_map, List.mem_filter, all, all', true_and]
  constructor
  · rintro ⟨a, selected, rfl⟩
    rwa [agree]
  · intro selected
    refine ⟨e.symm b, ?_, e.apply_symm_apply b⟩
    rwa [← agree, e.apply_symm_apply]

/-- A slot of two functions is on the path of the first one. -/
theorem exists_common_slot_iff {f g : Function} :
    (∃ path v, Claims f path v ∧ Claims g path v) ↔
      ∃ b ∈ bindingOf f, ∃ v ∈ b.method.verbs, Claims g b.path v := by
  constructor
  · rintro ⟨path, v, ⟨b, bound, rfl, mem⟩, claim⟩
    exact ⟨b, bound, v, mem, claim⟩
  · rintro ⟨b, bound, v, mem, claim⟩
    exact ⟨b.path, v, ⟨b, bound, rfl, mem⟩, claim⟩

instance (f g : Function) : Decidable (∃ path v, Claims f path v ∧ Claims g path v) :=
  decidable_of_iff _ exists_common_slot_iff.symm

/-- Interfaces that differ in the order of services and of the functions of a service only: where
each of them goes. -/
structure Reordering (i j : Interface) where
  service : Fin i.services.length ≃ Fin j.services.length
  function (k : Fin i.services.length) :
    Fin (i.services.get k).functions.length ≃ Fin (j.services.get (service k)).functions.length
  rest_eq : j = { i with services := j.services }
  service_eq (k : Fin i.services.length) : j.services.get (service k) =
    { i.services.get k with functions := (j.services.get (service k)).functions }
  function_eq (k : Fin i.services.length) (m : Fin (i.services.get k).functions.length) :
    (j.services.get (service k)).functions.get (function k m) =
      (i.services.get k).functions.get m

namespace Reordering

variable {i j : Interface}

def move (r : Reordering i j) : Position i ≃ Position j := Equiv.sigmaCongr r.service r.function

/-- Functions with a common slot keep their order. -/
def KeepsClaims (r : Reordering i j) : Prop :=
  ∀ p q : Position i, (∃ path v, Claims p.function path v ∧ Claims q.function path v) →
    p.Before q → (r.move p).Before (r.move q)

instance (r : Reordering i j) : Decidable r.KeepsClaims :=
  decidable_of_iff ((positions i).all fun p => (positions i).all fun q =>
      decide ((∃ path v, Claims p.function path v ∧ Claims q.function path v) →
        p.Before q → (r.move p).Before (r.move q))) <| by
    simp only [List.all_eq_true, mem_positions, forall_const, decide_eq_true_eq]
    rfl

/-- Services with a common name keep their order. -/
def KeepsNames (r : Reordering i j) : Prop :=
  ∀ k l : Fin i.services.length, (i.services.get k).name = (i.services.get l).name →
    k < l → r.service k < r.service l

instance (r : Reordering i j) : Decidable r.KeepsNames :=
  inferInstanceAs (Decidable (∀ k l : Fin i.services.length,
    (i.services.get k).name = (i.services.get l).name → k < l → r.service k < r.service l))

theorem function_move (r : Reordering i j) (p : Position i) :
    (r.move p).function = p.function := r.function_eq p.1 p.2

theorem tagOf_service (r : Reordering i j) (k : Fin i.services.length) :
    tagOf (j.services.get (r.service k)) = tagOf (i.services.get k) := by
  rw [r.service_eq k]
  rfl

theorem name_service (r : Reordering i j) (k : Fin i.services.length) :
    (j.services.get (r.service k)).name = (i.services.get k).name :=
  congrArg Tag.name (r.tagOf_service k)

theorem name_move (r : Reordering i j) (p : Position i) :
    (r.move p).service.name = p.service.name := r.name_service p.1

theorem find_eq (r : Reordering i j) (name : String) : j.find name = i.find name := by
  rw [r.rest_eq]
  rfl

theorem firstPosition_move {r : Reordering i j} (keeps : r.KeepsClaims) (path : String)
    (v : Verb) : firstPosition j path v = (firstPosition i path v).map r.move := by
  unfold firstPosition
  rw [← List.head?_filter, ← List.head?_filter, ← List.head?_map]
  refine congrArg List.head? (filter_map_equiv r.move (pairwise_positions i)
    (pairwise_positions j) mem_positions mem_positions Position.Before.asymm ?_ ?_).symm
  · intro p
    rw [r.function_move]
  · intro p q hp hq
    exact keeps p q ⟨path, v, of_decide_eq_true hp, of_decide_eq_true hq⟩

theorem meaning_eq (r : Reordering i j) : meaning j = meaning i := by
  funext t
  unfold meaning
  simp only [r.find_eq]

theorem operationOf_move (r : Reordering i j) (p : Position i) :
    operationOf j (r.move p).service (r.move p).function =
      operationOf i p.service p.function := by
  have parameters_eq : parameters j = parameters i := by
    funext arguments
    unfold parameters
    simp only [r.meaning_eq]
  simp only [operationOf, operationId, successResponse, returnSchema, r.meaning_eq, parameters_eq,
    r.name_move, r.function_move]

theorem slot_document_eq {r : Reordering i j} (keeps : r.KeepsClaims) (settings : Settings)
    (path : String) (v : Verb) :
    (document settings j).paths.slot path v = (document settings i).paths.slot path v := by
  rw [slot_firstPosition, slot_firstPosition, firstPosition_move keeps, Option.map_map]
  exact congrArg (fun f => (firstPosition i path v).map f) (funext r.operationOf_move)

theorem document_paths_eq {r : Reordering i j} (keeps : r.KeepsClaims) (settings : Settings) :
    (document settings j).paths = (document settings i).paths := by
  refine Paths.eq_of_slot (Table.names_sorted_lt (nodup_names_assembled j))
    (Table.names_sorted_lt (nodup_names_assembled i)) ?_ (slot_document_eq keeps settings)
  intro path
  simp only [mem_names_document_iff_slot, slot_document_eq keeps settings]

theorem ownsSlot_service {r : Reordering i j} (keeps : r.KeepsClaims) (settings : Settings)
    (k : Fin i.services.length) : ownsSlot settings j (r.service k) = ownsSlot settings i k := by
  rw [Bool.eq_iff_iff, ownsSlot_iff, ownsSlot_iff]
  simp only [firstPosition_move keeps, Option.map_eq_some_iff]
  constructor
  · rintro ⟨path, v, -, ⟨p, first, rfl⟩, same⟩
    exact ⟨path, v, p, first, r.service.injective same⟩
  · rintro ⟨path, v, p, first, rfl⟩
    exact ⟨path, v, r.move p, ⟨p, first, rfl⟩, rfl⟩

/-- The tags of one name, in the order of the services that they are for. -/
theorem filter_slotOwners (settings : Settings) (i : Interface) (name : String) :
    ((slotOwners settings i).map tagOf).filter (Tag.name · = name) =
      ((List.finRange i.services.length).filter fun k =>
        (i.services.get k).name = name && ownsSlot settings i k).map
          fun k => tagOf (i.services.get k) := by
  rw [slotOwners, List.map_map, List.filter_map, List.filter_filter]
  rfl

theorem document_tags_eq {r : Reordering i j} (claims : r.KeepsClaims) (names : r.KeepsNames)
    (settings : Settings) : (document settings j).tags = (document settings i).tags := by
  refine (document_tags settings j).eq (document_tags settings i) fun name => ?_
  have kept := filter_map_equiv r.service (List.pairwise_lt_finRange _)
    (List.pairwise_lt_finRange _) List.mem_finRange List.mem_finRange (fun less => less.asymm)
    (p := fun k => (i.services.get k).name = name && ownsSlot settings i k)
    (q := fun k => (j.services.get k).name = name && ownsSlot settings j k) ?_ ?_
  · rw [filter_slotOwners, filter_slotOwners, ← kept, List.map_map]
    exact congrArg (fun f => List.map f _) (funext r.tagOf_service)
  · intro k
    rw [ownsSlot_service claims, r.name_service]
  · intro k l hk hl
    simp only [Bool.and_eq_true, decide_eq_true_eq] at hk hl
    exact names k l (hk.1.trans hl.1.symm)

theorem info_eq (r : Reordering i j) (settings : Settings) :
    infoOf settings j = infoOf settings i := by
  rw [r.rest_eq]
  rfl

end Reordering

/-- The functions before a position. -/
def earlierThan {i : Interface} (p : Position i) : List (Service × Function) :=
  ((positions i).filter (·.Before p)).map fun q => (q.service, q.function)

/-- What is said about the function at a position. -/
def reportAt (i : Interface) (p : Position i) : List Warning :=
  functionReport i (earlierThan p) p.service p.function

theorem exists_earlierThan {i : Interface} {p : Position i} {path : String} {v : Verb} :
    (∃ x ∈ earlierThan p, Claims x.2 path v) ↔
      ∃ q : Position i, q.Before p ∧ Claims q.function path v := by
  simp only [earlierThan, List.mem_map, List.mem_filter, mem_positions, true_and,
    decide_eq_true_eq]
  constructor
  · rintro ⟨-, ⟨q, before, rfl⟩, claim⟩
    exact ⟨q, before, claim⟩
  · rintro ⟨q, before, claim⟩
    exact ⟨_, ⟨q, before, rfl⟩, claim⟩

theorem filter_before {i : Interface} {done rest : List (Position i)} {p : Position i}
    (split : done ++ p :: rest = positions i) : (positions i).filter (·.Before p) = done := by
  have ordered := pairwise_positions i
  rw [← split, List.pairwise_append, List.pairwise_cons] at ordered
  obtain ⟨-, ⟨later, -⟩, before⟩ := ordered
  have none_later : (p :: rest).filter (·.Before p) = [] := by
    refine List.filter_eq_nil_iff.mpr fun q mem => ?_
    rw [decide_eq_true_eq]
    rcases List.mem_cons.mp mem with rfl | mem
    · exact Position.Before.irrefl
    · exact (later q mem).asymm
  have all_done : done.filter (·.Before p) = done :=
    List.filter_eq_self.mpr fun q mem => decide_eq_true (before q mem p List.mem_cons_self)
  rw [← split, List.filter_append, none_later, all_done, List.append_nil]

theorem reports_positions (i : Interface) {done rest : List (Position i)}
    (split : done ++ rest = positions i) :
    reports i (done.map fun p => (p.service, p.function))
        (rest.map fun p => (p.service, p.function)) = rest.flatMap (reportAt i) := by
  induction rest generalizing done with
  | nil => rfl
  | cons p rest ih =>
      have later := ih ((List.append_cons done p rest).symm.trans split)
      rw [List.map_append] at later
      rw [List.map_cons, reports, List.flatMap_cons, reportAt, earlierThan, filter_before split]
      exact congrArg _ later

/-- The reports of a run, each from its position alone. -/
theorem reports_declared (i : Interface) :
    reports i [] (declared i) = (positions i).flatMap (reportAt i) := by
  rw [← map_positions]
  exact reports_positions i (List.nil_append _)

namespace Reordering

variable {i j : Interface}

/-- Whether an earlier function claims a slot of a function does not change. -/
theorem exists_before_move {r : Reordering i j} (keeps : r.KeepsClaims) {p : Position i}
    {path : String} {v : Verb} (claim : Claims p.function path v) :
    (∃ q : Position j, q.Before (r.move p) ∧ Claims q.function path v) ↔
      ∃ q : Position i, q.Before p ∧ Claims q.function path v := by
  constructor
  · rintro ⟨q, before, other⟩
    obtain ⟨q, rfl⟩ := r.move.surjective q
    rw [r.function_move] at other
    refine ⟨q, ?_, other⟩
    rcases Position.before_or_eq_or_before q p with first | rfl | later
    · exact first
    · exact absurd before Position.Before.irrefl
    · exact absurd before (keeps p q ⟨path, v, claim, other⟩ later).asymm
  · rintro ⟨q, before, other⟩
    exact ⟨r.move q, keeps q p ⟨path, v, other, claim⟩ before, by rwa [r.function_move]⟩

theorem refusedVerbs_move {r : Reordering i j} (keeps : r.KeepsClaims) {p : Position i}
    {b : Binding} (bound : bindingOf p.function = some b) :
    refusedVerbs (earlierThan (r.move p)) b = refusedVerbs (earlierThan p) b := by
  unfold refusedVerbs
  refine List.filter_congr fun v _ => decide_eq_decide.mpr (and_congr_right fun mem => ?_)
  rw [exists_earlierThan, exists_earlierThan]
  exact exists_before_move keeps ((claims_of_binding bound b.path v).mpr ⟨rfl, mem⟩)

theorem reportAt_move {r : Reordering i j} (keeps : r.KeepsClaims) (p : Position i) :
    reportAt j (r.move p) = reportAt i p := by
  unfold reportAt functionReport
  rw [r.function_move]
  cases bound : bindingOf p.function with
  | none => rfl
  | some b =>
      simp only [← argumentWarnings_eq, ← returnWarnings_eq, argumentWarnings, returnWarnings,
        conflictReport, refusedVerbs_move keeps bound, operationId, r.name_move, r.meaning_eq]

theorem warnings_perm {r : Reordering i j} (keeps : r.KeepsClaims) (settings : Settings) :
    (warnings settings j).Perm (warnings settings i) := by
  have namespaces : namespaceReport settings j = namespaceReport settings i := by
    rw [r.rest_eq]
    rfl
  have moved : (positions j).Perm ((positions i).map r.move) := by
    refine (List.perm_ext_iff_of_nodup (nodup_positions j)
      ((nodup_positions i).map r.move.injective)).mpr fun q => ?_
    simp only [mem_positions, List.mem_map, true_and, true_iff]
    exact r.move.surjective q
  rw [warnings_eq_reports, warnings_eq_reports, namespaces, reports_declared, reports_declared]
  refine List.Perm.append_left _ ((moved.flatMap_right (reportAt j)).trans (.of_eq ?_))
  rw [List.flatMap_map]
  exact congrArg (fun f => (positions i).flatMap f) (funext (reportAt_move keeps))

end Reordering

/-- The order of declaration does not matter where nothing competes. Interfaces that differ in the
order of services and of the functions of a service have the same document and, up to their order,
the same warnings, if functions with a common slot keep their order and so do services with a common
name. -/
theorem document_of_reordering (settings : Settings) {i j : Interface} (r : Reordering i j)
    (claims : r.KeepsClaims) (names : r.KeepsNames) :
    document settings i = document settings j ∧
      (warnings settings i).Perm (warnings settings j) :=
  ⟨(document_ext (r.info_eq settings) (Reordering.document_paths_eq claims settings)
      (Reordering.document_tags_eq claims names settings)).symm,
    (Reordering.warnings_perm claims settings).symm⟩

def pingFunction : Function := { name := "ping", notes := [⟨"api.get", ["/ping"]⟩] }

def listFunction : Function := { name := "list", notes := [⟨"api.get", ["/users"]⟩] }

def allFunction : Function := { name := "all", notes := [⟨"api.any", ["/users"]⟩] }

def logFunction : Function := { name := "log", notes := [⟨"api.post", ["/ping"]⟩] }

def usersFirst : Interface where
  services :=
    [{ name := "Users", functions := [pingFunction, listFunction, allFunction] },
     { name := "Audit", functions := [logFunction] }]

def auditFirst : Interface where
  services :=
    [{ name := "Audit", functions := [logFunction] },
     { name := "Users", functions := [listFunction, pingFunction, allFunction] }]

/-- The services change places and so do `ping` and `list`. The conflict is between `list` and
`all`. -/
def usersLast : Reordering usersFirst auditFirst where
  service := (Equiv.swap 0 1 : Equiv.Perm (Fin 2))
  function
    | ⟨0, _⟩ => (Equiv.swap 0 1 : Equiv.Perm (Fin 3))
    | ⟨1, _⟩ => (Equiv.refl (Fin 1) : Equiv.Perm (Fin 1))
  rest_eq := rfl
  service_eq := Fin.forall_fin_two.mpr ⟨rfl, rfl⟩
  function_eq
    | ⟨0, _⟩, ⟨0, _⟩ => rfl
    | ⟨0, _⟩, ⟨1, _⟩ => rfl
    | ⟨0, _⟩, ⟨2, _⟩ => rfl
    | ⟨1, _⟩, ⟨0, _⟩ => rfl

theorem usersLast_document :
    usersLast.KeepsClaims ∧ usersLast.KeepsNames ∧
      document {} usersFirst = document {} auditFirst ∧
      (warnings {} usersFirst).Perm (warnings {} auditFirst) := by
  have claims : usersLast.KeepsClaims := by decide
  have names : usersLast.KeepsNames := by decide
  exact ⟨claims, names, document_of_reordering {} usersLast claims names⟩

end ServiceDoc.Assembly
