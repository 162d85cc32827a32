import ServiceDoc.Proofs.Assembly.Claims
import Mathlib.Data.List.FinRange
import Mathlib.Logic.Equiv.Defs

/-! Positions of functions. Functions with the same content at different places are told apart by
their positions, which are ordered as the functions are declared. The slots of a document belong to
the first positions that claim them. -/
namespace ServiceDoc.Assembly
open Idl OpenApi Http

/-- A service of an interface and a function of that service, by number. -/
abbrev Position (i : Interface) : Type :=
  (k : Fin i.services.length) × Fin (i.services.get k).functions.length

namespace Position

variable {i : Interface}

def service (p : Position i) : Service := i.services.get p.1

def function (p : Position i) : Function := (i.services.get p.1).functions.get p.2

/-- The order of declaration. -/
def Before (p q : Position i) : Prop := p.1 < q.1 ∨ p.1 = q.1 ∧ p.2.val < q.2.val

instance (p q : Position i) : Decidable (Before p q) :=
  inferInstanceAs (Decidable (p.1 < q.1 ∨ p.1 = q.1 ∧ p.2.val < q.2.val))

theorem Before.asymm {p q : Position i} (h : Before p q) : ¬ Before q p := by
  unfold Before at *
  omega

theorem Before.irrefl {p : Position i} (h : Before p p) : False := h.asymm h

theorem before_or_eq_or_before (p q : Position i) : Before p q ∨ p = q ∨ Before q p := by
  obtain ⟨k, m⟩ := p
  obtain ⟨l, n⟩ := q
  rcases lt_trichotomy k l with lt | rfl | gt
  · exact .inl (.inl lt)
  · rcases lt_trichotomy m n with lt | rfl | gt
    · exact .inl (.inr ⟨rfl, lt⟩)
    · exact .inr (.inl rfl)
    · exact .inr (.inr (.inr ⟨rfl, gt⟩))
  · exact .inr (.inr (.inl gt))

end Position

/-- All positions in the order of declaration. -/
def positions (i : Interface) : List (Position i) :=
  (List.finRange i.services.length).flatMap fun k =>
    (List.finRange (i.services.get k).functions.length).map fun m => ⟨k, m⟩

variable {i : Interface}

theorem mem_positions (p : Position i) : p ∈ positions i :=
  List.mem_flatMap.mpr
    ⟨p.1, List.mem_finRange p.1, List.mem_map.mpr ⟨p.2, List.mem_finRange p.2, rfl⟩⟩

theorem pairwise_positions (i : Interface) : (positions i).Pairwise Position.Before := by
  refine List.pairwise_flatMap.mpr ⟨?_, ?_⟩
  · intro k _
    exact List.pairwise_map.mpr
      ((List.pairwise_lt_finRange _).imp fun lt => .inr ⟨rfl, lt⟩)
  · refine (List.pairwise_lt_finRange _).imp ?_
    intro k l lt p hp q hq
    obtain ⟨m, -, rfl⟩ := List.mem_map.mp hp
    obtain ⟨n, -, rfl⟩ := List.mem_map.mp hq
    exact .inl lt

theorem nodup_positions (i : Interface) : (positions i).Nodup := by
  refine (pairwise_positions i).imp ?_
  rintro p q before rfl
  exact before.irrefl

theorem map_positions (i : Interface) :
    (positions i).map (fun p => (p.service, p.function)) = declared i := by
  have services : (List.finRange i.services.length).map i.services.get = i.services :=
    List.map_get_finRange i.services
  have functions : ∀ s : Service,
      (List.finRange s.functions.length).map (fun m => (s, s.functions.get m)) =
        s.functions.map fun f => (s, f) := by
    intro s
    have all := List.map_get_finRange s.functions
    conv_rhs => rw [← all, List.map_map]
    rfl
  unfold declared positions
  conv_rhs => rw [← services, List.flatMap_map]
  simp only [List.map_flatMap, List.map_map]
  refine congrArg (fun f => (List.finRange i.services.length).flatMap f) (funext fun k => ?_)
  exact functions (i.services.get k)

/-- The first position that claims a slot. -/
def firstPosition (i : Interface) (path : String) (v : Verb) : Option (Position i) :=
  (positions i).find? fun p => Claims p.function path v

theorem firstClaimant_eq (i : Interface) (path : String) (v : Verb) :
    firstClaimant i path v = (firstPosition i path v).map fun p => (p.service, p.function) := by
  rw [firstClaimant, ← map_positions, List.find?_map]
  rfl

theorem exists_firstPosition {path : String} {v : Verb} {p : Position i}
    (claim : Claims p.function path v) : ∃ q, firstPosition i path v = some q :=
  Option.isSome_iff_exists.mp
    (List.find?_isSome.mpr ⟨p, mem_positions p, decide_eq_true claim⟩)

theorem claims_of_firstPosition {path : String} {v : Verb} {p : Position i}
    (found : firstPosition i path v = some p) : Claims p.function path v :=
  of_decide_eq_true (List.find?_some (p := fun p : Position i => decide (Claims p.function path v)) found)

theorem not_claims_before {path : String} {v : Verb} {p q : Position i}
    (found : firstPosition i path v = some p) (before : q.Before p) :
    ¬ Claims q.function path v := by
  intro claim
  have ordered := pairwise_positions i
  obtain ⟨-, as, bs, split, earlier⟩ := List.find?_eq_some_iff_append.mp found
  rw [split, List.pairwise_append, List.pairwise_cons] at ordered
  rcases List.mem_append.mp (split ▸ mem_positions q) with first | rest
  · have := earlier q first
    simp only [claim, decide_true, Bool.not_true, Bool.false_eq_true] at this
  · rcases List.mem_cons.mp rest with rfl | later
    · exact before.irrefl
    · exact before.asymm (ordered.2.1.1 q later)

theorem slot_firstPosition (settings : Settings) (i : Interface) (path : String) (v : Verb) :
    (document settings i).paths.slot path v =
      (firstPosition i path v).map fun p => operationOf i p.service p.function := by
  rw [slot_document, firstClaimant_eq, Option.map_map]
  rfl

end ServiceDoc.Assembly
