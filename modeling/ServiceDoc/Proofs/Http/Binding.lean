import ServiceDoc.Http.Binding
import ServiceDoc.Proofs.OpenApi.StableSort
import Mathlib.Data.List.Nodup

/-! The route of a function. Each method that has a note with its key is listed once, in increasing
order of method name, with the values of its first note; the first of the list is the binding. So
the binding does not depend on notes without a route key, on the order of notes with different keys,
or on notes of methods that come after its own. -/
namespace ServiceDoc.Http
open Idl (Note)

/-! ### Keys -/

def Method.key : Method → String
  | .one .get => "api.get"
  | .one .post => "api.post"
  | .one .put => "api.put"
  | .one .delete => "api.delete"
  | .one .options => "api.options"
  | .one .head => "api.head"
  | .one .patch => "api.patch"
  | .any => "api.any"

/-- Every method has one key. -/
theorem mem_routeKeys {key : String} {m : Method} : (key, m) ∈ routeKeys ↔ key = m.key := by
  constructor
  · have keys : ∀ entry ∈ routeKeys, entry.1 = entry.2.key := by decide
    exact keys (key, m)
  · rintro rfl
    cases m with
    | one verb => cases verb <;> decide
    | any => decide

/-- A key belongs to one method, in whatever letters it is written. -/
theorem method_unique {key : String} {m n : Method} (hm : sameKey key m.key = true)
    (hn : sameKey key n.key = true) : m = n := by
  have apart : ∀ a ∈ routeKeys, ∀ b ∈ routeKeys, sameKey a.1 b.1 = true → a.2 = b.2 := by decide
  have same : sameKey m.key n.key = true := by
    rw [sameKey, beq_iff_eq] at hm hn ⊢
    exact hm.symm.trans hn
  exact apart _ (mem_routeKeys.mpr rfl) _ (mem_routeKeys.mpr rfl) same

/-! ### Routes -/

def IsFirst (key : String) (notes : List Note) (note : Note) : Prop :=
  sameKey note.key key = true ∧
    ∃ before after, notes = before ++ note :: after ∧
      ∀ earlier ∈ before, sameKey earlier.key key = false

theorem find?_eq_some_iff {key : String} {notes : List Note} {note : Note} :
    (notes.find? fun note => sameKey note.key key) = some note ↔ IsFirst key notes note := by
  simp only [List.find?_eq_some_iff_append, IsFirst, Bool.not_eq_true']

theorem mem_routes {notes : List Note} {m : Method} {values : List String} :
    (m, values) ∈ routes notes ↔ ∃ note, IsFirst m.key notes note ∧ note.values = values := by
  simp only [routes, List.mem_filterMap, Option.map_eq_some_iff, find?_eq_some_iff, Prod.exists,
    Prod.mk.injEq]
  constructor
  · rintro ⟨key, method, entry, note, first, rfl, rfl⟩
    exact ⟨note, mem_routeKeys.mp entry ▸ first, rfl⟩
  · rintro ⟨note, first, rfl⟩
    exact ⟨m.key, m, mem_routeKeys.mpr rfl, note, first, rfl, rfl⟩

theorem pairwise_routes (notes : List Note) :
    (routes notes).Pairwise fun a b => a.1.name < b.1.name := by
  have keys : routeKeys.Pairwise fun a b => a.2.name < b.2.name := by decide
  refine List.Pairwise.filterMap _ ?_ keys
  intro a b lt r hr s hs
  obtain ⟨_, -, rfl⟩ := Option.map_eq_some_iff.mp hr
  obtain ⟨_, -, rfl⟩ := Option.map_eq_some_iff.mp hs
  exact lt

/-- The routes of some keys, in the order of the keys. -/
def scan (keys : List (String × Method)) (notes : List Note) : List (Method × List String) :=
  keys.filterMap fun (key, method) =>
    (notes.find? fun note => sameKey note.key key).map fun note => (method, note.values)

/-- Sorted by method name, the routes are the same in whatever order the keys are looked for. -/
theorem mergeSort_scan {keys : List (String × Method)} (h : keys.Perm routeKeys)
    (notes : List Note) :
    ((scan keys notes).mergeSort fun a b => decide (a.1.name ≤ b.1.name)) = routes notes := by
  have sorted := OpenApi.stablySorted_mergeSort (fun r => r.1.name) (scan keys notes)
  have increasing := pairwise_routes notes
  have perm := sorted.perm.trans (h.filterMap _)
  have ordered : (routes notes).Pairwise fun a b => a.1.name ≤ b.1.name :=
    increasing.imp fun lt => String.not_lt.mp fun gt => String.lt_irrefl _ (String.lt_trans lt gt)
  refine perm.eq_of_pairwise ?_ sorted.ordered ordered
  intro a b ha hb le ge
  have distinct : ((routes notes).map fun r => r.1.name).Nodup :=
    List.pairwise_map.mpr (increasing.imp fun lt => String.ne_of_lt lt)
  exact List.inj_on_of_nodup_map distinct (perm.mem_iff.mp ha) hb (String.le_antisymm le ge)

/-! ### The binding -/

theorem bindingOf_eq_some_iff {f : Idl.Function} {b : Binding} :
    bindingOf f = some b ↔
      ∃ more rest, routes f.notes = (b.method, b.path :: more) :: rest := by
  unfold bindingOf
  cases routes f.notes with
  | nil => simp [Binding.ofRoutes]
  | cons first rest =>
      obtain ⟨method, values⟩ := first
      cases values with
      | nil => simp [Binding.ofRoutes]
      | cons path more =>
          cases b
          simp [Binding.ofRoutes]

/-- What a search finds depends only on the notes that it can find. -/
theorem find?_of_filter_eq {p q : Note → Bool} {notes others : List Note}
    (same : others.filter p = notes.filter p) (sub : ∀ note, q note = true → p note = true) :
    others.find? q = notes.find? q := by
  have within : ∀ all : List Note, (all.filter p).find? q = all.find? q := by
    intro all
    rw [List.find?_filter]
    refine congrArg (all.find? ·) (funext fun note => ?_)
    cases found : q note with
    | false => simp
    | true => simp [sub note found]
  rw [← within others, same, within notes]

theorem routes_congr {notes others : List Note}
    (same : ∀ m : Method, (others.find? fun note => sameKey note.key m.key) =
      notes.find? fun note => sameKey note.key m.key) : routes others = routes notes := by
  refine List.filterMap_congr ?_
  rintro ⟨key, m⟩ entry
  rw [mem_routeKeys.mp entry]
  exact congrArg (Option.map _) (same m)

/-- Notes in an order that keeps those of one key as they are. -/
def Rearranged (notes others : List Note) : Prop :=
  ∀ key, (others.filter fun note => sameKey note.key key) =
    notes.filter fun note => sameKey note.key key

theorem Rearranged.routes_eq {notes others : List Note} (h : Rearranged notes others) :
    routes others = routes notes :=
  routes_congr fun m => find?_of_filter_eq (h m.key) fun _ found => found

def isRoute (note : Note) : Bool := routeKeys.any fun (key, _) => sameKey note.key key

theorem isRoute_of_sameKey {note : Note} {m : Method} (h : sameKey note.key m.key = true) :
    isRoute note = true := List.any_eq_true.mpr ⟨(m.key, m), mem_routeKeys.mpr rfl, h⟩

/-- The notes differ in those without a route key alone. -/
def SameRoutes (notes others : List Note) : Prop := others.filter isRoute = notes.filter isRoute

theorem SameRoutes.routes_eq {notes others : List Note} (h : SameRoutes notes others) :
    routes others = routes notes :=
  routes_congr fun _ => find?_of_filter_eq h fun _ found => isRoute_of_sameKey found

/-- A note of a method that comes after another one. -/
def isAfter (m : Method) (note : Note) : Bool :=
  routeKeys.any fun (key, other) => sameKey note.key key && decide (m.name < other.name)

theorem isAfter_of_sameKey {m other : Method} {note : Note}
    (h : sameKey note.key other.key = true) : isAfter m note = decide (m.name < other.name) := by
  rw [Bool.eq_iff_iff, isAfter, List.any_eq_true, decide_eq_true_eq]
  constructor
  · rintro ⟨⟨key, third⟩, entry, found⟩
    obtain ⟨same, lt⟩ := Bool.and_eq_true_iff.mp found
    rw [mem_routeKeys.mp entry] at same
    rw [method_unique h same]
    exact of_decide_eq_true lt
  · intro lt
    exact ⟨(other.key, other), mem_routeKeys.mpr rfl,
      Bool.and_eq_true_iff.mpr ⟨h, decide_eq_true lt⟩⟩

/-- The notes differ in those of methods after `m` alone: these may be left out, added or have other
values. -/
def SameUpTo (m : Method) (notes others : List Note) : Prop :=
  (others.filter fun note => !isAfter m note) = notes.filter fun note => !isAfter m note

theorem SameUpTo.find?_eq {m other : Method} {notes others : List Note}
    (h : SameUpTo m notes others) (le : ¬ m.name < other.name) :
    (others.find? fun note => sameKey note.key other.key) =
      notes.find? fun note => sameKey note.key other.key := by
  refine find?_of_filter_eq h fun note found => ?_
  rw [isAfter_of_sameKey found, decide_eq_false le]
  rfl

/-- The first route stays the first one. -/
theorem SameUpTo.routes_eq_cons {m : Method} {values : List String} {notes others : List Note}
    {rest : List (Method × List String)} (h : SameUpTo m notes others)
    (first : routes notes = (m, values) :: rest) :
    ∃ later, routes others = (m, values) :: later := by
  have least : ∀ r ∈ routes notes, ¬ r.1.name < m.name := by
    intro r mem lt
    have increasing := pairwise_routes notes
    rw [first] at mem increasing
    rcases List.mem_cons.mp mem with rfl | later
    · exact String.lt_irrefl _ lt
    · exact String.lt_irrefl _ (String.lt_trans lt ((List.pairwise_cons.mp increasing).1 r later))
  have mem_iff : ∀ other found, ¬ m.name < other.name →
      ((other, found) ∈ routes others ↔ (other, found) ∈ routes notes) := by
    intro other found le
    simp only [mem_routes, ← find?_eq_some_iff, h.find?_eq le]
  have mem : (m, values) ∈ routes others := by
    rw [mem_iff m values (String.lt_irrefl _), first]
    exact List.mem_cons_self
  cases listed : routes others with
  | nil =>
      rw [listed] at mem
      cases mem
  | cons r later =>
      refine ⟨later, ?_⟩
      have increasing := pairwise_routes others
      rw [listed] at mem increasing
      rcases List.mem_cons.mp mem with same | behind
      · rw [same]
      · -- A route before that of `m` would be one of the old notes as well.
        have lt := (List.pairwise_cons.mp increasing).1 _ behind
        have old : r ∈ routes notes := by
          rw [← mem_iff r.1 r.2 fun gt => String.lt_irrefl _ (String.lt_trans lt gt), listed]
          exact List.mem_cons_self
        exact absurd lt (least r old)

theorem bindingOf_eq_of_first {f g : Idl.Function} {first : Method × List String}
    {rest later : List (Method × List String)} (hf : routes f.notes = first :: rest)
    (hg : routes g.notes = first :: later) : bindingOf g = bindingOf f := by
  apply Option.ext
  intro b
  rw [bindingOf_eq_some_iff, bindingOf_eq_some_iff, hf, hg]
  simp only [List.cons.injEq, exists_and_left, exists_eq']

/-- A function's routes are the first notes of the route keys by increasing method name, in whatever
order the keys are looked for. The first value of the first route is the binding; it stays the same
when notes with different keys change places, when other notes come or go, and when notes of later
methods come, go or change. -/
theorem bindingOf_first_route (f : Idl.Function) :
    (∀ m values, (m, values) ∈ routes f.notes ↔
      ∃ note, IsFirst m.key f.notes note ∧ note.values = values) ∧
    (routes f.notes).Pairwise (fun a b => a.1.name < b.1.name) ∧
    (∀ keys : List (String × Method), keys.Perm routeKeys →
      ((scan keys f.notes).mergeSort fun a b => decide (a.1.name ≤ b.1.name)) = routes f.notes) ∧
    (∀ b, bindingOf f = some b ↔
      ∃ more rest, routes f.notes = (b.method, b.path :: more) :: rest) ∧
    ∀ g : Idl.Function,
      (Rearranged f.notes g.notes → bindingOf g = bindingOf f) ∧
      (SameRoutes f.notes g.notes → bindingOf g = bindingOf f) ∧
      (∀ m values rest, routes f.notes = (m, values) :: rest → SameUpTo m f.notes g.notes →
        bindingOf g = bindingOf f) := by
  refine ⟨fun _ _ => mem_routes, pairwise_routes _, fun _ h => mergeSort_scan h _,
    fun _ => bindingOf_eq_some_iff, fun g => ⟨?_, ?_, ?_⟩⟩
  · intro h
    exact congrArg Binding.ofRoutes h.routes_eq
  · intro h
    exact congrArg Binding.ofRoutes h.routes_eq
  · intro m values rest first h
    obtain ⟨later, listed⟩ := h.routes_eq_cons first
    exact bindingOf_eq_of_first first listed

/-- Neighbours with different keys may change places. -/
theorem rearranged_swap {a b : Note} (other : sameKey a.key b.key = false)
    (before after : List Note) :
    Rearranged (before ++ a :: b :: after) (before ++ b :: a :: after) := by
  intro key
  rw [List.filter_append, List.filter_append]
  refine congrArg (before.filter _ ++ ·) ?_
  cases ha : sameKey a.key key with
  | false => simp only [List.filter_cons, ha, Bool.false_eq_true, if_false]
  | true =>
      have hb : sameKey b.key key = false := by
        rw [sameKey, beq_iff_eq] at ha
        rw [sameKey, ← ha, Bool.beq_comm]
        exact other
      simp only [List.filter_cons, ha, hb, Bool.false_eq_true, if_true, if_false]

/-- Two methods, one of them with two notes, and a note without a route key. -/
def mixed : Idl.Function where
  notes := [⟨"API.Put", ["/put"]⟩, ⟨"Api.GET", ["/first", "/more"]⟩, ⟨"doc", []⟩,
    ⟨"api.get", ["/second"]⟩]

def swapped : Idl.Function where
  notes := [⟨"Api.GET", ["/first", "/more"]⟩, ⟨"API.Put", ["/put"]⟩, ⟨"doc", []⟩,
    ⟨"api.get", ["/second"]⟩]

def trimmed : Idl.Function where
  notes := [⟨"API.Put", ["/put"]⟩, ⟨"Api.GET", ["/first", "/more"]⟩, ⟨"api.get", ["/second"]⟩]

/-- The later method has lost its values. -/
def rerouted : Idl.Function where
  notes := [⟨"API.Put", []⟩, ⟨"Api.GET", ["/first", "/more"]⟩, ⟨"doc", []⟩,
    ⟨"api.get", ["/second"]⟩]

theorem mixed_binding :
    bindingOf mixed = some ⟨.one .get, "/first"⟩ ∧
      (Rearranged mixed.notes swapped.notes ∧ bindingOf swapped = bindingOf mixed) ∧
      (SameRoutes mixed.notes trimmed.notes ∧ bindingOf trimmed = bindingOf mixed) ∧
      (SameUpTo (.one .get) mixed.notes rerouted.notes ∧ bindingOf rerouted = bindingOf mixed) := by
  have listed : routes mixed.notes =
      [(.one .get, ["/first", "/more"]), (.one .put, ["/put"])] := by decide
  have moved : Rearranged mixed.notes swapped.notes := rearranged_swap (by decide) [] _
  have fewer : SameRoutes mixed.notes trimmed.notes := by
    unfold SameRoutes
    decide
  have changed : SameUpTo (.one .get) mixed.notes rerouted.notes := by
    unfold SameUpTo
    decide
  obtain ⟨-, -, -, bound, others⟩ := bindingOf_first_route mixed
  refine ⟨(bound _).mpr ⟨_, _, listed⟩, ⟨moved, ?_⟩, ⟨fewer, ?_⟩, ⟨changed, ?_⟩⟩
  · exact (others swapped).1 moved
  · exact (others trimmed).2.1 fewer
  · exact (others rerouted).2.2 _ _ _ listed changed

end ServiceDoc.Http
