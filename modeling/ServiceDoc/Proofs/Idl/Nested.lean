import ServiceDoc.Proofs.Idl.Catalogue

/-! Types and constants, which hold parts of their own kind. Each is taken apart by one induction
over the values and one over the data that fit, by their depth. -/
namespace ServiceDoc.Idl
open Wire (catalogue members_of_fits first_of_fits nil_of_fits)

/-! ### Types -/

namespace TypeRef

mutual

theorem induct {P : TypeRef → Prop}
    (step : ∀ name key value, (∀ t ∈ key, P t) → (∀ t ∈ value, P t) → P ⟨name, key, value⟩) :
    ∀ t, P t
  | ⟨name, key, value⟩ => step name key value (inductOption step key) (inductOption step value)

theorem inductOption {P : TypeRef → Prop}
    (step : ∀ name key value, (∀ t ∈ key, P t) → (∀ t ∈ value, P t) → P ⟨name, key, value⟩) :
    ∀ (o : Option TypeRef), ∀ t ∈ o, P t
  | none, _, member => nomatch member
  | some t, _, rfl => induct step t

end

theorem optionToDatum_eq (o : Option TypeRef) : optionToDatum o = .ofOption toDatum o := by
  cases o with
  | none => rfl
  | some t => rfl

theorem toDatum_eq (t : TypeRef) :
    t.toDatum = .map [("Name", .text t.name), ("KeyType", .ofOption toDatum t.key),
      ("ValueType", .ofOption toDatum t.value)] := by
  cases t
  simp only [toDatum, optionToDatum_eq]

theorem ofDatum?_ofOption {o : Option TypeRef} (h : ∀ t ∈ o, ofDatum t.toDatum = t) :
    ofDatum? (.ofOption toDatum o) = o := by
  cases o with
  | none => rfl
  | some t =>
      have inner := h t rfl
      rw [toDatum_eq] at inner
      simp only [Datum.ofOption, toDatum_eq t, ofDatum?]
      exact congrArg some inner

theorem ofDatum_toDatum (t : TypeRef) : ofDatum t.toDatum = t := by
  induction t using induct with
  | step name key value hkey hvalue =>
      rw [toDatum_eq]
      simp only [ofDatum, ofMembers, String.reduceEq, if_true, if_false, ofDatum?_ofOption hkey,
        ofDatum?_ofOption hvalue, Datum.toText]

theorem fits_toDatum (t : TypeRef) : catalogue.Fits (.record .type) t.toDatum := by
  induction t using induct with
  | step name key value hkey hvalue =>
      rw [toDatum_eq]
      exact ⟨rfl, .inr trivial, rfl, Wire.stands_ofOption rfl rfl hkey, rfl,
        Wire.stands_ofOption rfl rfl hvalue, trivial⟩

theorem floatFree_toDatum (t : TypeRef) : t.toDatum.floatFree = true := by
  induction t using induct with
  | step name key value hkey hvalue =>
      rw [toDatum_eq]
      simp [Wire.floatFree_ofOption hkey, Wire.floatFree_ofOption hvalue]

theorem exists_toDatum (d : Datum) (h : catalogue.Fits (.record .type) d) :
    ∃ t : TypeRef, t.toDatum = d := by
  induction same : d.depth using Nat.strongRecOn generalizing d with
  | ind n ih =>
      obtain ⟨_, rfl, h⟩ := members_of_fits h
      obtain ⟨name, _, rfl, after⟩ := Wire.first_text h
      obtain ⟨key, _, rfl, keyStands, h⟩ := first_of_fits after
      obtain ⟨value, _, rfl, valueStands, h⟩ := first_of_fits h
      cases nil_of_fits h
      simp only [Datum.depth, Datum.depthMembers] at same
      obtain ⟨key, rfl⟩ := Wire.exists_ofOption_of_stands
        (fun fits => ih _ (by omega) key fits rfl) keyStands
      obtain ⟨value, rfl⟩ := Wire.exists_ofOption_of_stands
        (fun fits => ih _ (by omega) value fits rfl) valueStands
      exact ⟨⟨name, key, value⟩, toDatum_eq _⟩

end TypeRef

/-! ### Constants -/

mutual

/-- No double is written anywhere in a constant. -/
inductive Constant.DoubleFree : Constant → Prop where
  | mk {literal : Option Literal} (h : ∀ l ∈ literal, Literal.DoubleFree l) :
      Constant.DoubleFree ⟨literal⟩

inductive Literal.DoubleFree : Literal → Prop where
  | mk {int : Option Int64} {text identifier : Option String} {list : Option (List Constant)}
      {map : Option (List Entry)} (hlist : ∀ items ∈ list, ∀ c ∈ items, Constant.DoubleFree c)
      (hmap : ∀ items ∈ map, ∀ e ∈ items, Entry.DoubleFree e) :
      Literal.DoubleFree ⟨int, none, text, identifier, list, map⟩

inductive Entry.DoubleFree : Entry → Prop where
  | mk {key value : Option Constant} (hkey : ∀ c ∈ key, Constant.DoubleFree c)
      (hvalue : ∀ c ∈ value, Constant.DoubleFree c) : Entry.DoubleFree ⟨key, value⟩

end

theorem Constant.doubleFree_some {l : Literal} :
    Constant.DoubleFree ⟨some l⟩ ↔ l.DoubleFree :=
  ⟨fun ⟨h⟩ => h l rfl, fun h => .mk fun | _, rfl => h⟩

theorem Literal.doubleFree_mk {int : Option Int64} {double : Option Float}
    {text identifier : Option String} {list : Option (List Constant)} {map : Option (List Entry)} :
    Literal.DoubleFree ⟨int, double, text, identifier, list, map⟩ ↔
      double = none ∧ (∀ items ∈ list, ∀ c ∈ items, c.DoubleFree) ∧
        ∀ items ∈ map, ∀ e ∈ items, e.DoubleFree := by
  constructor
  · rintro ⟨hlist, hmap⟩
    exact ⟨rfl, hlist, hmap⟩
  · rintro ⟨rfl, hlist, hmap⟩
    exact .mk hlist hmap

/-- What an induction over constants has to show. -/
structure Constant.Steps (P : Constant → Prop) (Q : Literal → Prop) (R : Entry → Prop) : Prop where
  constant : ∀ literal, (∀ l ∈ literal, Q l) → P ⟨literal⟩
  literal : ∀ int double text identifier list map, (∀ items ∈ list, ∀ c ∈ items, P c) →
    (∀ items ∈ map, ∀ e ∈ items, R e) → Q ⟨int, double, text, identifier, list, map⟩
  entry : ∀ key value, (∀ c ∈ key, P c) → (∀ c ∈ value, P c) → R ⟨key, value⟩

namespace Constant.Steps
variable {P : Constant → Prop} {Q : Literal → Prop} {R : Entry → Prop}

mutual

theorem constants (s : Steps P Q R) : ∀ c, P c
  | ⟨none⟩ => s.constant none fun _ h => nomatch h
  | ⟨some l⟩ => s.constant (some l) fun | _, rfl => s.literals l

theorem literals (s : Steps P Q R) : ∀ l, Q l
  | ⟨int, double, text, identifier, list, map⟩ =>
      s.literal int double text identifier list map (s.lists list) (s.maps map)

theorem lists (s : Steps P Q R) : ∀ (o : Option (List Constant)), ∀ items ∈ o, ∀ c ∈ items, P c
  | none, _, h => nomatch h
  | some items, _, rfl => s.items items

theorem items (s : Steps P Q R) : ∀ (cs : List Constant), ∀ c ∈ cs, P c
  | [], _, h => nomatch h
  | c :: _, _, .head _ => s.constants c
  | _ :: cs, c, .tail _ h => s.items cs c h

theorem maps (s : Steps P Q R) : ∀ (o : Option (List Entry)), ∀ items ∈ o, ∀ e ∈ items, R e
  | none, _, h => nomatch h
  | some items, _, rfl => s.mapItems items

theorem mapItems (s : Steps P Q R) : ∀ (es : List Entry), ∀ e ∈ es, R e
  | [], _, h => nomatch h
  | e :: _, _, .head _ => s.entries e
  | _ :: es, e, .tail _ h => s.mapItems es e h

theorem entries (s : Steps P Q R) : ∀ e, R e
  | ⟨key, value⟩ => s.entry key value (s.options key) (s.options value)

theorem options (s : Steps P Q R) : ∀ (o : Option Constant), ∀ c ∈ o, P c
  | none, _, h => nomatch h
  | some c, _, rfl => s.constants c

end

end Constant.Steps

theorem Literal.optionToDatum_eq (o : Option Literal) :
    Literal.optionToDatum o = .ofOption Literal.toDatum o := by
  cases o with
  | none => rfl
  | some l => rfl

theorem Constant.optionToDatum_eq (o : Option Constant) :
    Constant.optionToDatum o = .ofOption Constant.toDatum o := by
  cases o with
  | none => rfl
  | some c => rfl

theorem Constant.itemsToData_eq (cs : List Constant) :
    Constant.itemsToData cs = cs.map Constant.toDatum := by
  induction cs with
  | nil => rfl
  | cons c cs ih => rw [Constant.itemsToData, ih, List.map_cons]

theorem Entry.itemsToData_eq (es : List Entry) : Entry.itemsToData es = es.map Entry.toDatum := by
  induction es with
  | nil => rfl
  | cons e es ih => rw [Entry.itemsToData, ih, List.map_cons]

theorem Constant.listToDatum_eq (o : Option (List Constant)) :
    Constant.listToDatum o = .ofOption (fun cs => .list (cs.map Constant.toDatum)) o := by
  cases o with
  | none => rfl
  | some cs => exact congrArg Datum.list (Constant.itemsToData_eq cs)

theorem Entry.listToDatum_eq (o : Option (List Entry)) :
    Entry.listToDatum o = .ofOption (fun es => .list (es.map Entry.toDatum)) o := by
  cases o with
  | none => rfl
  | some es => exact congrArg Datum.list (Entry.itemsToData_eq es)

theorem Constant.toDatum_eq (c : Constant) :
    c.toDatum = .map [("TypedValue", .ofOption Literal.toDatum c.literal)] := by
  cases c
  simp only [Constant.toDatum, Literal.optionToDatum_eq]

theorem Literal.toDatum_eq (l : Literal) :
    l.toDatum = .map [("Int", .ofOption (.int ·.toInt) l.int), ("Double", .ofOption .float l.double),
      ("Literal", .ofOption .text l.text), ("Identifier", .ofOption .text l.identifier),
      ("List", .ofOption (fun cs => .list (cs.map Constant.toDatum)) l.list),
      ("Map", .ofOption (fun es => .list (es.map Entry.toDatum)) l.map)] := by
  cases l
  simp only [Literal.toDatum, Constant.listToDatum_eq, Entry.listToDatum_eq]

theorem Entry.toDatum_eq (e : Entry) :
    e.toDatum = .map [("Key", .ofOption Constant.toDatum e.key),
      ("Value", .ofOption Constant.toDatum e.value)] := by
  cases e
  simp only [Entry.toDatum, Constant.optionToDatum_eq]

/-- What is written fits. -/
theorem Constant.fits_steps : Constant.Steps
    (fun c => catalogue.Fits (.record .constant) c.toDatum)
    (fun l => catalogue.Fits (.record .literal) l.toDatum)
    (fun e => catalogue.Fits (.record .entry) e.toDatum) where
  constant literal h := by
    rw [Constant.toDatum_eq]
    exact ⟨rfl, Wire.stands_ofOption rfl rfl h, trivial⟩
  literal int double text identifier list map hlist hmap := by
    rw [Literal.toDatum_eq]
    refine ⟨rfl, Wire.stands_ofOption rfl rfl ?_, rfl, Wire.stands_ofOption rfl rfl ?_, rfl,
      Wire.stands_ofOption rfl rfl ?_, rfl, Wire.stands_ofOption rfl rfl ?_, rfl,
      Wire.stands_ofOption rfl rfl ?_, rfl, Wire.stands_ofOption rfl rfl ?_, trivial⟩
    · exact fun n _ => ⟨n.le_toInt, n.toInt_lt⟩
    · exact fun _ _ => trivial
    · exact fun _ _ => trivial
    · exact fun _ _ => trivial
    · exact fun items h => Wire.fitsItems_map (hlist items h)
    · exact fun items h => Wire.fitsItems_map (hmap items h)
  entry key value hkey hvalue := by
    rw [Entry.toDatum_eq]
    exact ⟨rfl, Wire.stands_ofOption rfl rfl hkey, rfl, Wire.stands_ofOption rfl rfl hvalue, trivial⟩

/-- What holds no double is written without one. -/
theorem Constant.floatFree_steps : Constant.Steps
    (fun c => c.DoubleFree → c.toDatum.floatFree = true)
    (fun l => l.DoubleFree → l.toDatum.floatFree = true)
    (fun e => e.DoubleFree → e.toDatum.floatFree = true) where
  constant literal h := by
    rintro ⟨free⟩
    have inner := Wire.floatFree_ofOption fun l member => h l member (free l member)
    rw [Constant.toDatum_eq]
    simp [inner]
  literal int double text identifier list map hlist hmap := by
    rintro ⟨listFree, mapFree⟩
    have ints : (Datum.ofOption (.int ·.toInt) int).floatFree = true :=
      Wire.floatFree_ofOption fun _ _ => rfl
    have double : (Datum.ofOption .float none).floatFree = true := rfl
    have texts (o : Option String) : (Datum.ofOption .text o).floatFree = true :=
      Wire.floatFree_ofOption fun _ _ => rfl
    have lists : (Datum.ofOption (fun cs => .list (cs.map Constant.toDatum)) list).floatFree = true :=
      Wire.floatFree_ofOption fun items h => Datum.floatFreeItems_map fun c member =>
        hlist items h c member (listFree items h c member)
    have maps : (Datum.ofOption (fun es => .list (es.map Entry.toDatum)) map).floatFree = true :=
      Wire.floatFree_ofOption fun items h => Datum.floatFreeItems_map fun e member =>
        hmap items h e member (mapFree items h e member)
    rw [Literal.toDatum_eq]
    simp [ints, double, texts, lists, maps]
  entry key value hkey hvalue := by
    rintro ⟨keyFree, valueFree⟩
    have keys := Wire.floatFree_ofOption fun c member => hkey c member (keyFree c member)
    have values := Wire.floatFree_ofOption fun c member => hvalue c member (valueFree c member)
    rw [Entry.toDatum_eq]
    simp [keys, values]

theorem Constant.ofItems_eq (ds : List Datum) : Constant.ofItems ds = ds.map Constant.ofDatum := by
  induction ds with
  | nil => rfl
  | cons d ds ih => rw [Constant.ofItems, ih, List.map_cons]

theorem Entry.ofItems_eq (ds : List Datum) : Entry.ofItems ds = ds.map Entry.ofDatum := by
  induction ds with
  | nil => rfl
  | cons d ds ih => rw [Entry.ofItems, ih, List.map_cons]

theorem Literal.ofDatum?_ofOption {o : Option Literal}
    (h : ∀ l ∈ o, Literal.ofDatum? l.toDatum = some l) :
    Literal.ofDatum? (.ofOption Literal.toDatum o) = o := by
  cases o with
  | none => rfl
  | some l => exact h l rfl

theorem Constant.ofDatum?_ofOption {o : Option Constant}
    (h : ∀ c ∈ o, Constant.ofDatum c.toDatum = c) :
    Constant.ofDatum? (.ofOption Constant.toDatum o) = o := by
  cases o with
  | none => rfl
  | some c =>
      have inner := h c rfl
      rw [Constant.toDatum_eq] at inner
      simp only [Datum.ofOption, Constant.toDatum_eq c, Constant.ofDatum?]
      exact congrArg some inner

theorem Constant.listOfDatum?_ofOption {o : Option (List Constant)}
    (h : ∀ items ∈ o, ∀ c ∈ items, Constant.ofDatum c.toDatum = c) :
    Constant.listOfDatum? (.ofOption (fun cs => .list (cs.map Constant.toDatum)) o) = o := by
  cases o with
  | none => rfl
  | some cs =>
      simp only [Datum.ofOption, Constant.listOfDatum?, Constant.ofItems_eq]
      rw [Wire.map_map_eq (h cs rfl)]

theorem Entry.listOfDatum?_ofOption {o : Option (List Entry)}
    (h : ∀ items ∈ o, ∀ e ∈ items, Entry.ofDatum e.toDatum = e) :
    Entry.listOfDatum? (.ofOption (fun es => .list (es.map Entry.toDatum)) o) = o := by
  cases o with
  | none => rfl
  | some es =>
      simp only [Datum.ofOption, Entry.listOfDatum?, Entry.ofItems_eq]
      rw [Wire.map_map_eq (h es rfl)]

/-- What is written is read as itself. -/
theorem Constant.undone_steps : Constant.Steps
    (fun c => Constant.ofDatum c.toDatum = c)
    (fun l => Literal.ofDatum? l.toDatum = some l)
    (fun e => Entry.ofDatum e.toDatum = e) where
  constant literal h := by
    rw [Constant.toDatum_eq]
    simp only [Constant.ofDatum, Constant.ofMembers, if_true, Literal.ofDatum?_ofOption h]
  literal int double text identifier list map hlist hmap := by
    have ints : ((Datum.ofOption (.int ·.toInt) int).int?.map Int64.ofInt) = int := by
      cases int with
      | none => rfl
      | some n => exact congrArg some (Int64.ofInt_toInt n)
    have doubles : (Datum.ofOption .float double).float? = double := by
      cases double with
      | none => rfl
      | some x => rfl
    have texts (o : Option String) : (Datum.ofOption .text o).text? = o := by
      cases o with
      | none => rfl
      | some s => rfl
    rw [Literal.toDatum_eq]
    simp only [Literal.ofDatum?, Literal.ofMembers, String.reduceEq, if_true, if_false, ints,
      doubles, texts, Constant.listOfDatum?_ofOption hlist, Entry.listOfDatum?_ofOption hmap]
  entry key value hkey hvalue := by
    rw [Entry.toDatum_eq]
    simp only [Entry.ofDatum, Entry.ofMembers, String.reduceEq, if_true, if_false,
      Constant.ofDatum?_ofOption hkey, Constant.ofDatum?_ofOption hvalue]

/-- Whatever fits is written for some constant, literal or entry. -/
theorem Constant.exists_toDatum_all (d : Datum) :
    (catalogue.Fits (.record .constant) d → ∃ c : Constant, c.toDatum = d) ∧
      (catalogue.Fits (.record .literal) d → ∃ l : Literal, l.toDatum = d) ∧
        (catalogue.Fits (.record .entry) d → ∃ e : Entry, e.toDatum = d) := by
  induction same : d.depth using Nat.strongRecOn generalizing d with
  | ind n ih =>
      have smaller (inner : Datum) (lt : inner.depth < n) := ih inner.depth lt inner rfl
      refine ⟨?constant, ?literal, ?entry⟩
      case constant =>
        intro h
        obtain ⟨_, rfl, h⟩ := members_of_fits h
        obtain ⟨literal, _, rfl, stands, h⟩ := first_of_fits h
        cases nil_of_fits h
        simp only [Datum.depth, Datum.depthMembers] at same
        obtain ⟨literal, rfl⟩ :=
          Wire.exists_ofOption_of_stands (smaller literal (by omega)).2.1 stands
        exact ⟨⟨literal⟩, Constant.toDatum_eq _⟩
      case literal =>
        intro h
        obtain ⟨_, rfl, h⟩ := members_of_fits h
        obtain ⟨_, _, rfl, intStands, h⟩ := first_of_fits h
        obtain ⟨_, _, rfl, doubleStands, h⟩ := first_of_fits h
        obtain ⟨_, _, rfl, textStands, h⟩ := first_of_fits h
        obtain ⟨_, _, rfl, identifierStands, h⟩ := first_of_fits h
        obtain ⟨list, _, rfl, listStands, h⟩ := first_of_fits h
        obtain ⟨map, _, rfl, mapStands, h⟩ := first_of_fits h
        cases nil_of_fits h
        simp only [Datum.depth, Datum.depthMembers] at same
        obtain ⟨int, rfl⟩ := Wire.exists_ofOption_of_stands Wire.exists_int64_of_fits intStands
        obtain ⟨double, rfl⟩ := Wire.exists_ofOption_of_stands Wire.exists_float_of_fits doubleStands
        obtain ⟨text, rfl⟩ := Wire.exists_ofOption_of_stands Wire.exists_text_of_fits textStands
        obtain ⟨identifier, rfl⟩ :=
          Wire.exists_ofOption_of_stands Wire.exists_text_of_fits identifierStands
        obtain ⟨list, rfl⟩ := Wire.exists_ofOption_of_stands
          (Wire.exists_list_of_fits fun inner lt => (smaller inner (by omega)).1) listStands
        obtain ⟨map, rfl⟩ := Wire.exists_ofOption_of_stands
          (Wire.exists_list_of_fits fun inner lt => (smaller inner (by omega)).2.2) mapStands
        exact ⟨⟨int, double, text, identifier, list, map⟩, Literal.toDatum_eq _⟩
      case entry =>
        intro h
        obtain ⟨_, rfl, h⟩ := members_of_fits h
        obtain ⟨key, _, rfl, keyStands, h⟩ := first_of_fits h
        obtain ⟨value, _, rfl, valueStands, h⟩ := first_of_fits h
        cases nil_of_fits h
        simp only [Datum.depth, Datum.depthMembers] at same
        obtain ⟨key, rfl⟩ := Wire.exists_ofOption_of_stands (smaller key (by omega)).1 keyStands
        obtain ⟨value, rfl⟩ :=
          Wire.exists_ofOption_of_stands (smaller value (by omega)).1 valueStands
        exact ⟨⟨key, value⟩, Entry.toDatum_eq _⟩

end ServiceDoc.Idl
