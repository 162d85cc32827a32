import ServiceDoc.Proofs.Assembly.Claims

/-! Operation identifiers. An identifier is made from two names with a mark between them, and names
may hold the mark, so it determines the names up to a shift of the mark. Identifiers tell the
functions of a document apart exactly if no two functions that own a slot are such a shift. -/
namespace ServiceDoc.Assembly
open Idl OpenApi Http

theorem append_mark_eq_iff {a b c d : List Char} {mark : Char} :
    a ++ mark :: b = c ++ mark :: d ↔
      (a = c ∧ b = d) ∨ (∃ r, c = a ++ mark :: r ∧ b = r ++ mark :: d) ∨
        ∃ r, a = c ++ mark :: r ∧ d = r ++ mark :: b := by
  constructor
  · intro h
    rcases List.append_eq_append_iff.mp h with ⟨r, hc, hb⟩ | ⟨r, ha, hd⟩
    · cases r with
      | nil =>
          rw [List.append_nil] at hc
          exact .inl ⟨hc.symm, (List.cons.inj hb).2⟩
      | cons x r =>
          obtain ⟨rfl, rest⟩ := List.cons.inj hb
          exact .inr (.inl ⟨r, hc, rest⟩)
    · cases r with
      | nil =>
          rw [List.append_nil] at ha
          exact .inl ⟨ha, ((List.cons.inj hd).2).symm⟩
      | cons x r =>
          obtain ⟨rfl, rest⟩ := List.cons.inj hd
          exact .inr (.inr ⟨r, ha, rest⟩)
  · rintro (⟨rfl, rfl⟩ | ⟨r, rfl, rfl⟩ | ⟨r, rfl, rfl⟩)
    · rfl
    · simp only [List.append_assoc, List.cons_append]
    · simp only [List.append_assoc, List.cons_append]

/-- The name of the second service goes on with the mark and with what the name of the first
function starts with. -/
def Shifted (x y : Service × Function) : Prop :=
  ∃ rest : String, y.1.name = x.1.name ++ "_" ++ rest ∧ x.2.name = rest ++ "_" ++ y.2.name

theorem toList_marked (a b : String) : (a ++ "_" ++ b).toList = a.toList ++ '_' :: b.toList := by
  have mark : "_".toList = ['_'] := rfl
  rw [String.toList_append, String.toList_append, mark, List.append_assoc]
  rfl

theorem shifted_iff (x y : Service × Function) :
    Shifted x y ↔ ∃ r, y.1.name.toList = x.1.name.toList ++ '_' :: r ∧
      x.2.name.toList = r ++ '_' :: y.2.name.toList := by
  constructor
  · rintro ⟨rest, hs, hf⟩
    exact ⟨rest.toList, by rw [hs, toList_marked], by rw [hf, toList_marked]⟩
  · rintro ⟨r, hs, hf⟩
    refine ⟨String.ofList r, ?_, ?_⟩
    · rw [← String.toList_inj, toList_marked, String.toList_ofList, hs]
    · rw [← String.toList_inj, toList_marked, String.toList_ofList, hf]

/-- Two functions have one identifier if their names are the same or shifted. -/
theorem operationId_eq_iff (x y : Service × Function) :
    operationId x.1 x.2 = operationId y.1 y.2 ↔
      (x.1.name = y.1.name ∧ x.2.name = y.2.name) ∨ Shifted x y ∨ Shifted y x := by
  unfold operationId
  rw [← String.toList_inj, toList_marked, toList_marked, append_mark_eq_iff, shifted_iff,
    shifted_iff, String.toList_inj, String.toList_inj]

theorem Shifted.length_lt {x y : Service × Function} (h : Shifted x y) :
    x.1.name.toList.length < y.1.name.toList.length := by
  obtain ⟨r, hs, -⟩ := (shifted_iff x y).mp h
  rw [hs, List.length_append, List.length_cons]
  omega

/-- The operation in a slot is that of a function which claims it first. -/
def Owns (settings : Settings) (i : Interface) (x : Service × Function) (path : String)
    (v : Verb) : Prop :=
  firstClaimant i path v = some x ∧
    (document settings i).paths.slot path v = some (operationOf i x.1 x.2)

def namesOf (x : Service × Function) : String × String := (x.1.name, x.2.name)

/-- Slots with one identifier belong to one function, and it has two of them only if it is bound to
every verb of a path. -/
def Identified (settings : Settings) (i : Interface) : Prop :=
  ∀ path v other w o p, (document settings i).paths.slot path v = some o →
    (document settings i).paths.slot other w = some p → o.id = p.id →
      ∃ x, Owns settings i x path v ∧ Owns settings i x other w ∧
        path = other ∧ (v ≠ w → bindingOf x.2 = some ⟨.any, path⟩)

theorem owns_iff (settings : Settings) (i : Interface) (x : Service × Function) (path : String)
    (v : Verb) : Owns settings i x path v ↔ firstClaimant i path v = some x := by
  unfold Owns
  rw [slot_document]
  constructor
  · exact And.left
  · intro first
    exact ⟨first, by rw [first, Option.map_some]⟩

theorem owner_of_slot {settings : Settings} {i : Interface} {path : String} {v : Verb}
    {o : Operation} (h : (document settings i).paths.slot path v = some o) :
    ∃ x, Owns settings i x path v ∧ o = operationOf i x.1 x.2 := by
  have first := h
  rw [slot_document] at first
  obtain ⟨x, found, rfl⟩ := Option.map_eq_some_iff.mp first
  exact ⟨x, ⟨found, h⟩, rfl⟩

theorem Owns.unique {settings : Settings} {i : Interface} {x y : Service × Function}
    {path : String} {v : Verb} (hx : Owns settings i x path v) (hy : Owns settings i y path v) :
    x = y := Option.some.inj (hx.1.symm.trans hy.1)

theorem Owns.declared {settings : Settings} {i : Interface} {x : Service × Function}
    {path : String} {v : Verb} (h : Owns settings i x path v) : x ∈ declared i :=
  List.mem_of_find?_eq_some h.1

theorem Owns.claims {settings : Settings} {i : Interface} {x : Service × Function}
    {path : String} {v : Verb} (h : Owns settings i x path v) : Claims x.2 path v := by
  have found := h.1
  unfold firstClaimant at found
  have claim := List.find?_some found
  exact of_decide_eq_true claim

/-- A function with two verbs is bound to all. -/
theorem Claims.any_of_ne {f : Function} {path other : String} {v w : Verb} (h : Claims f path v)
    (k : Claims f other w) (ne : v ≠ w) : bindingOf f = some ⟨.any, path⟩ := by
  obtain ⟨⟨method, here⟩, hb, rfl, mem⟩ := h
  obtain ⟨-, mem'⟩ := (claims_of_binding hb other w).mp k
  cases method with
  | any => exact hb
  | one verb =>
      have hv : v = verb := List.mem_singleton.mp mem
      have hw : w = verb := List.mem_singleton.mp mem'
      exact absurd (hv.trans hw.symm) ne

/-- Identifiers tell the functions of a document apart exactly if no two functions that own a slot
have names that are a shift of each other. -/
theorem identified_iff_no_shift (settings : Settings) (i : Interface)
    (distinct : ((declared i).map namesOf).Nodup) :
    Identified settings i ↔
      ∀ x y path v other w, Owns settings i x path v → Owns settings i y other w →
        ¬ Shifted x y := by
  constructor
  · intro identified x y path v other w hx hy shift
    have same : (operationOf i x.1 x.2).id = (operationOf i y.1 y.2).id :=
      (operationId_eq_iff x y).mpr (.inr (.inl shift))
    obtain ⟨z, hz, hz', -, -⟩ := identified path v other w _ _ hx.2 hy.2 same
    have shorter := shift.length_lt
    rw [hx.unique hz, hy.unique hz'] at shorter
    exact Nat.lt_irrefl _ shorter
  · intro unshifted path v other w o p ho hp same
    obtain ⟨x, hx, rfl⟩ := owner_of_slot ho
    obtain ⟨y, hy, rfl⟩ := owner_of_slot hp
    have names : x.1.name = y.1.name ∧ x.2.name = y.2.name := by
      rcases (operationId_eq_iff x y).mp same with names | shift | shift
      · exact names
      · exact absurd shift (unshifted x y path v other w hx hy)
      · exact absurd shift (unshifted y x other w path v hy hx)
    have one : x = y :=
      List.inj_on_of_nodup_map distinct hx.declared hy.declared (Prod.ext names.1 names.2)
    subst one
    exact ⟨x, hx, hy, hx.claims.path_eq hy.claims, hx.claims.any_of_ne hy.claims⟩

/-- A function bound to every verb of a path, and one that gets none of them. -/
def sharedPath : Service where
  name := "Greeter"
  functions :=
    [{ name := "say_hello", notes := [⟨"api.any", ["/hello"]⟩] },
     { name := "hello", notes := [⟨"api.get", ["/hello"]⟩] }]

theorem sharedPath_identified :
    ((declared { services := [sharedPath] }).map namesOf).Nodup ∧
      Identified {} { services := [sharedPath] } := by
  have distinct : ((declared { services := [sharedPath] }).map namesOf).Nodup := by decide
  refine ⟨distinct, (identified_iff_no_shift {} _ distinct).mpr ?_⟩
  intro x y path v other w hx hy shift
  have service : ∀ z ∈ declared { services := [sharedPath] }, z.1 = sharedPath := by
    intro z mem
    obtain ⟨f, -, rfl⟩ := List.mem_map.mp (by simpa only [declared, List.flatMap_singleton] using mem)
    rfl
  have shorter := shift.length_lt
  rw [service x hx.declared, service y hy.declared] at shorter
  exact Nat.lt_irrefl _ shorter

/-- Two functions that are told apart only by the place of the mark. -/
def shiftedLeft : Service × Function :=
  let f : Function := { name := "B_C", notes := [⟨"api.get", ["/x"]⟩] }
  ({ name := "A", functions := [f] }, f)

def shiftedRight : Service × Function :=
  let f : Function := { name := "C", notes := [⟨"api.get", ["/y"]⟩] }
  ({ name := "A_B", functions := [f] }, f)

/-- Different names do not make different identifiers. -/
theorem shifted_not_identified :
    ((declared { services := [shiftedLeft.1, shiftedRight.1] }).map namesOf).Nodup ∧
      ¬ Identified {} { services := [shiftedLeft.1, shiftedRight.1] } := by
  refine ⟨by decide, ?_⟩
  intro identified
  have left : Owns {} { services := [shiftedLeft.1, shiftedRight.1] } shiftedLeft "/x" .get :=
    (owns_iff _ _ _ _ _).mpr rfl
  have right : Owns {} { services := [shiftedLeft.1, shiftedRight.1] } shiftedRight "/y" .get :=
    (owns_iff _ _ _ _ _).mpr rfl
  obtain ⟨x, hx, hx', -, -⟩ := identified "/x" .get "/y" .get _ _ left.2 right.2 rfl
  have same : namesOf shiftedLeft = namesOf shiftedRight :=
    congrArg namesOf ((left.unique hx).trans (right.unique hx').symm)
  exact absurd same (by decide)

end ServiceDoc.Assembly
