import ServiceDoc.Proofs.Idl.RoundTrip
import ServiceDoc.Proofs.Json.Variant

/-! Texts that differ only in what their writer is free in are read alike, as a request, as an
interface or as any part of one. -/
namespace ServiceDoc.Idl
open Json (Catalogue QuotedText Shape Tree SameValue)
open Wire (catalogue coherent)

theorem Wire.read_variant {p : Part} {s t : String}
    (h : catalogue.VariantTexts (.record p) s t) (x : Value p) :
    read p s = .ok x ↔ read p t = .ok x :=
  (h.sameValue coherent).map (decode p) x

/-- Members in another order, members that a record does not declare and nulls for absent members
change nothing of what is read, at any depth. -/
theorem read_of_variant :
    (∀ (shape : Shape Wire.Part) (s t : String), catalogue.VariantTexts shape s t →
      SameValue (catalogue.read shape s) (catalogue.read shape t)) ∧
    (∀ (p : Wire.Part) (s t : String), catalogue.VariantTexts (.record p) s t →
      ∀ x : Wire.Value p, Wire.read p s = .ok x ↔ Wire.read p t = .ok x) ∧
    (∀ s t : String, catalogue.VariantTexts (.record .request) s t →
      ∀ r : Request, Request.read s = .ok r ↔ Request.read t = .ok r) ∧
    (∀ s t : String, catalogue.VariantTexts (.record .interface) s t →
      ∀ i : Interface, Interface.read s = .ok i ↔ Interface.read t = .ok i) := by
  refine ⟨?_, ?_, ?_, ?_⟩
  · intro shape s t h
    exact h.sameValue coherent
  · intro p s t h x
    exact Wire.read_variant h x
  · intro s t h r
    exact Wire.read_variant (p := .request) h r
  · intro s t h i
    exact Wire.read_variant (p := .interface) h i

/-! ### A request written in two ways -/

def sparseRequest : Request where
  version := "1"
  interface := { structs := [{ name := "S" }] }

def sparseStruct : Datum := .map [("Name", .text "S")]

def variedStruct : Datum := .map [("Fields", .null), ("Name", .text "S")]

def sparseInterface : Datum := .map [("Structs", .list [sparseStruct])]

def variedInterface : Datum :=
  .map [("Services", .null), ("X", .list [.map [("S", .null)]]), ("Structs", .list [variedStruct])]

/-- What the request says, and no more. -/
def sparseData : Datum := .map [("Version", .text "1"), ("AST", sparseInterface)]

/-- The members have changed places, one is not declared, and two absent lists are null. -/
def variedData : Datum := .map [("AST", variedInterface), ("Version", .text "1")]

theorem variedStruct_variant :
    catalogue.Variant (.record .struct) (Tree.written sparseStruct)
      (Tree.written variedStruct) := by
  refine .absent _ (QuotedText.read_written "Fields") rfl rfl ?_
  simp [Tree.writtenMembers, QuotedText.read_written]

theorem variedInterface_variant :
    catalogue.Variant (.record .interface) (Tree.written sparseInterface)
      (Tree.written variedInterface) := by
  have structs : catalogue.Variant (.record .interface) (Tree.written sparseInterface)
      (Tree.written (.map [("Structs", .list [variedStruct])])) :=
    .member [] [] (QuotedText.read_written "Structs") rfl (.item [] [] variedStruct_variant)
  refine structs.trans (.trans (.unknown _ (QuotedText.read_written "X") rfl rfl)
    (.absent _ (QuotedText.read_written "Services") rfl rfl ?_))
  simp [Tree.writtenMembers, QuotedText.read_written]

theorem variedData_variant :
    catalogue.Variant (.record .request) (Tree.written sparseData) (Tree.written variedData) := by
  have interface : catalogue.Variant (.record .request) (Tree.written sparseData)
      (Tree.written (.map [("Version", .text "1"), ("AST", variedInterface)])) :=
    .member [(.written "Version", .text (.written "1"))] [] (QuotedText.read_written "AST") rfl
      variedInterface_variant
  exact interface.trans (.order (.swap _ _ _))

theorem Wire.read_of_decode {p : Part} {d : Datum} {x : Value p} (free : d.floatFree = true)
    (decoded : catalogue.decode Catalogue.depthLimit (.record p) (Tree.written d) =
      .ok (encode p x)) : read p (Json.write d) = .ok x := by
  rw [read, Catalogue.read, Json.Text.read_write d free, decoded]
  exact congrArg Except.ok ((lawful p).undone x)

theorem variedData_read_alike :
    (catalogue.VariantTexts (.list (.record .struct)) (Json.write (.list [sparseStruct]))
        (Json.writeIndented (.list [variedStruct])) ∧
      catalogue.read (.list (.record .struct)) (Json.writeIndented (.list [variedStruct])) =
        .ok (.list [Struct.toDatum { name := "S" }])) ∧
    (catalogue.VariantTexts (.record .struct) (Json.write sparseStruct)
        (Json.writeIndented variedStruct) ∧
      Wire.read .struct (Json.writeIndented variedStruct) = .ok ({ name := "S" } : Struct)) ∧
    (catalogue.VariantTexts (.record .request) (Json.write sparseData)
        (Json.writeIndented variedData) ∧
      Request.read (Json.writeIndented variedData) = .ok sparseRequest) ∧
    catalogue.VariantTexts (.record .interface) (Json.write sparseInterface)
        (Json.writeIndented variedInterface) ∧
      Interface.read (Json.writeIndented variedInterface) = .ok sparseRequest.interface := by
  have structs : catalogue.VariantTexts (.list (.record .struct))
      (Json.write (.list [sparseStruct])) (Json.writeIndented (.list [variedStruct])) :=
    .of_written rfl rfl (.item [] [] variedStruct_variant)
  have struct := Catalogue.VariantTexts.of_written rfl rfl variedStruct_variant
  have request := Catalogue.VariantTexts.of_written rfl rfl variedData_variant
  have interface := Catalogue.VariantTexts.of_written rfl rfl variedInterface_variant
  have read_structs : catalogue.read (.list (.record .struct)) (Json.write (.list [sparseStruct])) =
      .ok (.list [Struct.toDatum { name := "S" }]) := by
    rw [Catalogue.read, Json.Text.read_write _ rfl]
    rfl
  refine ⟨⟨structs, ?_⟩, ⟨struct, ?_⟩, ⟨request, ?_⟩, interface, ?_⟩
  · exact (read_of_variant.1 _ _ _ structs _).mp read_structs
  · exact (read_of_variant.2.1 .struct _ _ struct _).mp (Wire.read_of_decode rfl rfl)
  · exact (read_of_variant.2.2.1 _ _ request _).mp (Wire.read_of_decode (p := .request) rfl rfl)
  · exact (read_of_variant.2.2.2 _ _ interface _).mp (Wire.read_of_decode (p := .interface) rfl rfl)

end ServiceDoc.Idl
