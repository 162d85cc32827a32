import ServiceDoc.Proofs.Idl.Nested

/-! The wire form of every part. Writing gives exactly the data that fit the part, reading undoes
it, and only doubles are written as floats. -/
namespace ServiceDoc.Idl
open Wire (Part catalogue members_of_fits first_of_fits first_text first_flag nil_of_fits
  fits_of_stands exists_list_of_fits fitsItems_map)

/-! ### No doubles -/

def Field.DoubleFree (f : Field) : Prop := ∀ c ∈ f.default, c.DoubleFree

def Struct.DoubleFree (s : Struct) : Prop := ∀ f ∈ s.fields, f.DoubleFree

structure Function.DoubleFree (f : Function) : Prop where
  arguments : ∀ a ∈ f.arguments, a.DoubleFree
  throws : ∀ t ∈ f.throws, t.DoubleFree

def Service.DoubleFree (s : Service) : Prop := ∀ f ∈ s.functions, f.DoubleFree

structure Interface.DoubleFree (i : Interface) : Prop where
  structs : ∀ s ∈ i.structs, s.DoubleFree
  unions : ∀ s ∈ i.unions, s.DoubleFree
  exceptions : ∀ s ∈ i.exceptions, s.DoubleFree
  services : ∀ s ∈ i.services, s.DoubleFree

def Request.DoubleFree (r : Request) : Prop := r.interface.DoubleFree

/-! ### The laws -/

structure Wire.Lawful (p : Part) {α : Type} (toDatum : α → Datum) (ofDatum : Datum → α)
    (doubleFree : α → Prop) : Prop where
  fits : ∀ x, catalogue.Fits (.record p) (toDatum x)
  onto : ∀ d, catalogue.Fits (.record p) d → ∃ x, toDatum x = d
  undone : ∀ x, ofDatum (toDatum x) = x
  floatFree : ∀ x, doubleFree x → (toDatum x).floatFree = true

namespace Wire.Lawful
variable {p : Part} {α : Type} {toDatum : α → Datum} {ofDatum : Datum → α} {doubleFree : α → Prop}

theorem fits_items (law : Lawful p toDatum ofDatum doubleFree) (xs : List α) :
    catalogue.FitsItems (.record p) (xs.map toDatum) := fitsItems_map fun x _ => law.fits x

theorem first_items (law : Lawful p toDatum ofDatum doubleFree) {name : String}
    {ms : List (Json.Member Part)} {pairs : List (String × Datum)}
    (h : catalogue.FitsMembers (listOf name (.record p) :: ms) pairs) :
    ∃ (xs : List α) (rest : _), pairs = (name, .list (xs.map toDatum)) :: rest ∧
      catalogue.FitsMembers ms rest := by
  obtain ⟨_, rest, rfl, stands, later⟩ := first_of_fits h
  obtain ⟨xs, rfl⟩ := exists_list_of_fits (fun inner _ => law.onto inner)
    (fits_of_stands stands nofun)
  exact ⟨xs, rest, rfl, later⟩

theorem undone_items (law : Lawful p toDatum ofDatum doubleFree) (xs : List α) :
    (xs.map toDatum).map ofDatum = xs := Wire.map_map_eq fun x _ => law.undone x

theorem floatFree_items (law : Lawful p toDatum ofDatum doubleFree) (xs : List α)
    (h : ∀ x ∈ xs, doubleFree x) : (Datum.list (xs.map toDatum)).floatFree = true :=
  Datum.floatFreeItems_map fun x member => law.floatFree x (h x member)

/-- What fits is written again from what it is read as. -/
theorem toDatum_ofDatum (law : Lawful p toDatum ofDatum doubleFree) {d : Datum}
    (h : catalogue.Fits (.record p) d) : toDatum (ofDatum d) = d := by
  obtain ⟨x, rfl⟩ := law.onto d h
  rw [law.undone]

end Wire.Lawful

theorem Namespace.lawful :
    Wire.Lawful .namespaceDecl Namespace.toDatum Namespace.ofDatum fun _ => True where
  fits n := ⟨rfl, .inr trivial, rfl, .inr trivial, trivial⟩
  onto d h := by
    obtain ⟨_, rfl, h₀⟩ := members_of_fits h
    obtain ⟨language, _, rfl, h₁⟩ := first_text h₀
    obtain ⟨name, _, rfl, h₂⟩ := first_text h₁
    cases nil_of_fits h₂
    exact ⟨⟨language, name⟩, rfl⟩
  undone n := rfl
  floatFree n _ := rfl

theorem TypeRef.lawful : Wire.Lawful .type TypeRef.toDatum TypeRef.ofDatum fun _ => True where
  fits := TypeRef.fits_toDatum
  onto := TypeRef.exists_toDatum
  undone := TypeRef.ofDatum_toDatum
  floatFree t _ := t.floatFree_toDatum

theorem Constant.lawful :
    Wire.Lawful .constant Constant.toDatum Constant.ofDatum Constant.DoubleFree where
  fits := Constant.fits_steps.constants
  onto d := (Constant.exists_toDatum_all d).1
  undone := Constant.undone_steps.constants
  floatFree := Constant.floatFree_steps.constants

theorem Literal.lawful : Wire.Lawful .literal Literal.toDatum
    (fun d => (Literal.ofDatum? d).getD {}) Literal.DoubleFree where
  fits := Constant.fits_steps.literals
  onto d := (Constant.exists_toDatum_all d).2.1
  undone l := by rw [Constant.undone_steps.literals l, Option.getD_some]
  floatFree := Constant.floatFree_steps.literals

theorem Entry.lawful : Wire.Lawful .entry Entry.toDatum Entry.ofDatum Entry.DoubleFree where
  fits := Constant.fits_steps.entries
  onto d := (Constant.exists_toDatum_all d).2.2
  undone := Constant.undone_steps.entries
  floatFree := Constant.floatFree_steps.entries

theorem Requiredness.exists_of_fits {d : Datum} (h : catalogue.Fits Wire.requiredness d) :
    ∃ r : Requiredness, r.toDatum = d := by
  cases d with
  | int n =>
      obtain ⟨low, high, -⟩ := h
      obtain rfl | rfl | rfl : n = 0 ∨ n = 1 ∨ n = 2 := by omega
      · exact ⟨.unstated, rfl⟩
      · exact ⟨.required, rfl⟩
      · exact ⟨.optional, rfl⟩
  | _ => cases h

theorem Field.lawful : Wire.Lawful .field Field.toDatum Field.ofDatum Field.DoubleFree where
  fits f := by
    have code : catalogue.Fits Wire.requiredness f.requiredness.toDatum := by
      cases f.requiredness <;> exact ⟨by decide, by decide, by decide⟩
    have default := Wire.stands_ofOption (m := Wire.partIfAny "Default" .constant) rfl rfl
      fun c (_ : c ∈ f.default) => Constant.lawful.fits c
    exact ⟨rfl, .inr ⟨f.id.le_toInt, f.id.toInt_lt⟩, rfl, .inr trivial, rfl, .inr code, rfl,
      .inr f.type.fits_toDatum, rfl, default, rfl, .inr trivial, trivial⟩
  onto d h := by
    obtain ⟨_, rfl, h₀⟩ := members_of_fits h
    obtain ⟨_, _, rfl, idStands, h₁⟩ := first_of_fits h₀
    obtain ⟨name, _, rfl, h₂⟩ := first_text h₁
    obtain ⟨_, _, rfl, codeStands, h₃⟩ := first_of_fits h₂
    obtain ⟨_, _, rfl, typeStands, h₄⟩ := first_of_fits h₃
    obtain ⟨_, _, rfl, defaultStands, h₅⟩ := first_of_fits h₄
    obtain ⟨comment, _, rfl, h₆⟩ := first_text h₅
    cases nil_of_fits h₆
    obtain ⟨id, rfl⟩ := Wire.exists_int32_of_fits (fits_of_stands idStands nofun)
    obtain ⟨requiredness, rfl⟩ := Requiredness.exists_of_fits (fits_of_stands codeStands nofun)
    obtain ⟨type, rfl⟩ := TypeRef.lawful.onto _ (fits_of_stands typeStands nofun)
    obtain ⟨default, rfl⟩ :=
      Wire.exists_ofOption_of_stands (Constant.lawful.onto _) defaultStands
    exact ⟨⟨id, name, requiredness, type, default, comment⟩, rfl⟩
  undone f := by
    have id : Int32.ofInt (f.toDatum.get "ID").toInt = f.id := Int32.ofInt_toInt f.id
    have code : Requiredness.ofDatum f.requiredness.toDatum = f.requiredness := by
      cases f.requiredness <;> rfl
    have type : TypeRef.ofDatum (f.toDatum.get "Type") = f.type := TypeRef.ofDatum_toDatum f.type
    have default : Constant.ofDatum? (f.toDatum.get "Default") = f.default :=
      Constant.ofDatum?_ofOption fun c _ => Constant.lawful.undone c
    rw [Field.ofDatum, id, type, default]
    exact congrArg (Field.mk f.id f.name · f.type f.default f.comment) code
  floatFree f h := by
    have default := Wire.floatFree_ofOption fun c member => Constant.lawful.floatFree c (h c member)
    have code : f.requiredness.toDatum.floatFree = true := rfl
    simp [Field.toDatum, code, default, f.type.floatFree_toDatum]

theorem Struct.lawful : Wire.Lawful .struct Struct.toDatum Struct.ofDatum Struct.DoubleFree where
  fits s := ⟨rfl, .inr trivial, rfl, .inr (Field.lawful.fits_items s.fields), rfl, .inr trivial,
    trivial⟩
  onto d h := by
    obtain ⟨_, rfl, h₀⟩ := members_of_fits h
    obtain ⟨name, _, rfl, h₁⟩ := first_text h₀
    obtain ⟨fields, _, rfl, h₂⟩ := Field.lawful.first_items h₁
    obtain ⟨comment, _, rfl, h₃⟩ := first_text h₂
    cases nil_of_fits h₃
    exact ⟨⟨name, fields, comment⟩, rfl⟩
  undone s := by
    have fields : (s.toDatum.get "Fields").toItems.map Field.ofDatum = s.fields :=
      Field.lawful.undone_items s.fields
    rw [Struct.ofDatum, fields]
    rfl
  floatFree s h := by
    have fields := Field.lawful.floatFree_items s.fields h
    simp [Struct.toDatum, fields]

theorem Note.lawful : Wire.Lawful .note Note.toDatum Note.ofDatum fun _ => True where
  fits n := ⟨rfl, .inr trivial, rfl, .inr (fitsItems_map fun _ _ => trivial), trivial⟩
  onto d h := by
    obtain ⟨_, rfl, h₀⟩ := members_of_fits h
    obtain ⟨key, _, rfl, h₁⟩ := first_text h₀
    obtain ⟨_, _, rfl, valuesStands, h₂⟩ := first_of_fits h₁
    cases nil_of_fits h₂
    obtain ⟨values, rfl⟩ := exists_list_of_fits (fun _ _ => Wire.exists_text_of_fits)
      (fits_of_stands valuesStands nofun)
    exact ⟨⟨key, values⟩, rfl⟩
  undone n := by
    have values : (n.toDatum.get "Values").toItems.map Datum.toText = n.values :=
      Wire.map_map_eq (f := Datum.text) fun _ _ => rfl
    rw [Note.ofDatum, values]
    rfl
  floatFree n _ := by
    have values : (Datum.list (n.values.map .text)).floatFree = true :=
      Datum.floatFreeItems_map fun _ _ => rfl
    simp [Note.toDatum, values]

theorem Function.lawful :
    Wire.Lawful .function Function.toDatum Function.ofDatum Function.DoubleFree where
  fits f := ⟨rfl, .inr trivial, rfl, .inr trivial, rfl, .inr trivial, rfl,
    .inr f.returns.fits_toDatum, rfl, .inr (Field.lawful.fits_items f.arguments), rfl,
    .inr (Field.lawful.fits_items f.throws), rfl, .inr (Note.lawful.fits_items f.notes), rfl,
    .inr trivial, trivial⟩
  onto d h := by
    obtain ⟨_, rfl, h₀⟩ := members_of_fits h
    obtain ⟨name, _, rfl, h₁⟩ := first_text h₀
    obtain ⟨oneway, _, rfl, h₂⟩ := first_flag h₁
    obtain ⟨void, _, rfl, h₃⟩ := first_flag h₂
    obtain ⟨_, _, rfl, returnsStands, h₄⟩ := first_of_fits h₃
    obtain ⟨arguments, _, rfl, h₅⟩ := Field.lawful.first_items h₄
    obtain ⟨throws, _, rfl, h₆⟩ := Field.lawful.first_items h₅
    obtain ⟨notes, _, rfl, h₇⟩ := Note.lawful.first_items h₆
    obtain ⟨comment, _, rfl, h₈⟩ := first_text h₇
    cases nil_of_fits h₈
    obtain ⟨returns, rfl⟩ := TypeRef.lawful.onto _ (fits_of_stands returnsStands nofun)
    exact ⟨⟨name, oneway, void, returns, arguments, throws, notes, comment⟩, rfl⟩
  undone f := by
    have returns : TypeRef.ofDatum (f.toDatum.get "FunctionType") = f.returns :=
      TypeRef.ofDatum_toDatum f.returns
    have arguments : (f.toDatum.get "Arguments").toItems.map Field.ofDatum = f.arguments :=
      Field.lawful.undone_items f.arguments
    have throws : (f.toDatum.get "Throws").toItems.map Field.ofDatum = f.throws :=
      Field.lawful.undone_items f.throws
    have notes : (f.toDatum.get "Annotations").toItems.map Note.ofDatum = f.notes :=
      Note.lawful.undone_items f.notes
    rw [Function.ofDatum, returns, arguments, throws, notes]
    rfl
  floatFree f h := by
    have arguments := Field.lawful.floatFree_items f.arguments h.arguments
    have throws := Field.lawful.floatFree_items f.throws h.throws
    have notes := Note.lawful.floatFree_items f.notes fun _ _ => trivial
    have returns := f.returns.floatFree_toDatum
    simp [Function.toDatum, arguments, throws, notes, returns]

theorem Service.lawful :
    Wire.Lawful .service Service.toDatum Service.ofDatum Service.DoubleFree where
  fits s := ⟨rfl, .inr trivial, rfl, .inr trivial, rfl,
    .inr (Function.lawful.fits_items s.functions), rfl, .inr trivial, trivial⟩
  onto d h := by
    obtain ⟨_, rfl, h₀⟩ := members_of_fits h
    obtain ⟨name, _, rfl, h₁⟩ := first_text h₀
    obtain ⟨base, _, rfl, h₂⟩ := first_text h₁
    obtain ⟨functions, _, rfl, h₃⟩ := Function.lawful.first_items h₂
    obtain ⟨comment, _, rfl, h₄⟩ := first_text h₃
    cases nil_of_fits h₄
    exact ⟨⟨name, base, functions, comment⟩, rfl⟩
  undone s := by
    have functions : (s.toDatum.get "Functions").toItems.map Function.ofDatum = s.functions :=
      Function.lawful.undone_items s.functions
    rw [Service.ofDatum, functions]
    rfl
  floatFree s h := by
    have functions := Function.lawful.floatFree_items s.functions h
    simp [Service.toDatum, functions]

theorem Interface.lawful :
    Wire.Lawful .interface Interface.toDatum Interface.ofDatum Interface.DoubleFree where
  fits i := ⟨rfl, .inr trivial, rfl, .inr (Namespace.lawful.fits_items i.namespaces), rfl,
    .inr (Struct.lawful.fits_items i.structs), rfl, .inr (Struct.lawful.fits_items i.unions), rfl,
    .inr (Struct.lawful.fits_items i.exceptions), rfl,
    .inr (Service.lawful.fits_items i.services), trivial⟩
  onto d h := by
    obtain ⟨_, rfl, h₀⟩ := members_of_fits h
    obtain ⟨filename, _, rfl, h₁⟩ := first_text h₀
    obtain ⟨namespaces, _, rfl, h₂⟩ := Namespace.lawful.first_items h₁
    obtain ⟨structs, _, rfl, h₃⟩ := Struct.lawful.first_items h₂
    obtain ⟨unions, _, rfl, h₄⟩ := Struct.lawful.first_items h₃
    obtain ⟨exceptions, _, rfl, h₅⟩ := Struct.lawful.first_items h₄
    obtain ⟨services, _, rfl, h₆⟩ := Service.lawful.first_items h₅
    cases nil_of_fits h₆
    exact ⟨⟨filename, namespaces, structs, unions, exceptions, services⟩, rfl⟩
  undone i := by
    have namespaces : (i.toDatum.get "Namespaces").toItems.map Namespace.ofDatum = i.namespaces :=
      Namespace.lawful.undone_items i.namespaces
    have structs : (i.toDatum.get "Structs").toItems.map Struct.ofDatum = i.structs :=
      Struct.lawful.undone_items i.structs
    have unions : (i.toDatum.get "Unions").toItems.map Struct.ofDatum = i.unions :=
      Struct.lawful.undone_items i.unions
    have exceptions : (i.toDatum.get "Exceptions").toItems.map Struct.ofDatum = i.exceptions :=
      Struct.lawful.undone_items i.exceptions
    have services : (i.toDatum.get "Services").toItems.map Service.ofDatum = i.services :=
      Service.lawful.undone_items i.services
    rw [Interface.ofDatum, namespaces, structs, unions, exceptions, services]
    rfl
  floatFree i h := by
    have namespaces := Namespace.lawful.floatFree_items i.namespaces fun _ _ => trivial
    have structs := Struct.lawful.floatFree_items i.structs h.structs
    have unions := Struct.lawful.floatFree_items i.unions h.unions
    have exceptions := Struct.lawful.floatFree_items i.exceptions h.exceptions
    have services := Service.lawful.floatFree_items i.services h.services
    simp [Interface.toDatum, namespaces, structs, unions, exceptions, services]

theorem Request.lawful :
    Wire.Lawful .request Request.toDatum Request.ofDatum Request.DoubleFree where
  fits r := ⟨rfl, .inr trivial, rfl, .inr trivial, rfl, .inr trivial, rfl,
    .inr (Interface.lawful.fits r.interface), trivial⟩
  onto d h := by
    obtain ⟨_, rfl, h₀⟩ := members_of_fits h
    obtain ⟨version, _, rfl, h₁⟩ := first_text h₀
    obtain ⟨language, _, rfl, h₂⟩ := first_text h₁
    obtain ⟨output, _, rfl, h₃⟩ := first_text h₂
    obtain ⟨_, _, rfl, interfaceStands, h₄⟩ := first_of_fits h₃
    cases nil_of_fits h₄
    obtain ⟨interface, rfl⟩ := Interface.lawful.onto _ (fits_of_stands interfaceStands nofun)
    exact ⟨⟨version, language, output, interface⟩, rfl⟩
  undone r := by
    have interface : Interface.ofDatum (r.toDatum.get "AST") = r.interface :=
      Interface.lawful.undone r.interface
    rw [Request.ofDatum, interface]
    rfl
  floatFree r h := by
    have interface := Interface.lawful.floatFree r.interface h
    simp [Request.toDatum, interface]

end ServiceDoc.Idl
