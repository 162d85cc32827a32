import ServiceDoc.Proofs.Idl.WireForm

/-! Reading back what was written, part by part. Whatever a text holds, what is read from it can be
written and read again: fallbacks never take more levels than the reader has room for. -/
namespace ServiceDoc.Idl
namespace Wire
open Json (Catalogue)

/-- The values that are written as a part. -/
def Value : Part → Type
  | .request => Request
  | .interface => Interface
  | .namespaceDecl => Namespace
  | .struct => Struct
  | .field => Field
  | .type => TypeRef
  | .note => Note
  | .service => Service
  | .function => Function
  | .constant => Constant
  | .literal => Literal
  | .entry => Entry

def encode : (p : Part) → Value p → Datum
  | .request => Request.toDatum
  | .interface => Interface.toDatum
  | .namespaceDecl => Namespace.toDatum
  | .struct => Struct.toDatum
  | .field => Field.toDatum
  | .type => TypeRef.toDatum
  | .note => Note.toDatum
  | .service => Service.toDatum
  | .function => Function.toDatum
  | .constant => Constant.toDatum
  | .literal => Literal.toDatum
  | .entry => Entry.toDatum

def decode : (p : Part) → Datum → Value p
  | .request => Request.ofDatum
  | .interface => Interface.ofDatum
  | .namespaceDecl => Namespace.ofDatum
  | .struct => Struct.ofDatum
  | .field => Field.ofDatum
  | .type => TypeRef.ofDatum
  | .note => Note.ofDatum
  | .service => Service.ofDatum
  | .function => Function.ofDatum
  | .constant => Constant.ofDatum
  | .literal => fun d => (Literal.ofDatum? d).getD {}
  | .entry => Entry.ofDatum

/-- No double is written anywhere in a value. Namespaces, types and notes have no place for one. -/
def DoubleFree : (p : Part) → Value p → Prop
  | .request => Request.DoubleFree
  | .interface => Interface.DoubleFree
  | .namespaceDecl => fun _ => True
  | .struct => Struct.DoubleFree
  | .field => Field.DoubleFree
  | .type => fun _ => True
  | .note => fun _ => True
  | .service => Service.DoubleFree
  | .function => Function.DoubleFree
  | .constant => Constant.DoubleFree
  | .literal => Literal.DoubleFree
  | .entry => Entry.DoubleFree

theorem lawful : ∀ p, Lawful p (encode p) (decode p) (DoubleFree p)
  | .request => Request.lawful
  | .interface => Interface.lawful
  | .namespaceDecl => Namespace.lawful
  | .struct => Struct.lawful
  | .field => Field.lawful
  | .type => TypeRef.lawful
  | .note => Note.lawful
  | .service => Service.lawful
  | .function => Function.lawful
  | .constant => Constant.lawful
  | .literal => Literal.lawful
  | .entry => Entry.lawful

/-- Reads a whole text as a value of a part. -/
def read (p : Part) (s : String) : Except Json.Fault (Value p) :=
  (catalogue.read (.record p) s).map (decode p)

variable {p : Part} {x : Value p}

theorem read_write (free : DoubleFree p x) (shallow : (encode p x).depth ≤ Catalogue.depthLimit) :
    read p (Json.write (encode p x)) = .ok x := by
  have law := lawful p
  have decoded := Catalogue.read_write coherent (law.fits x) (law.floatFree x free) shallow
  rw [read, decoded]
  exact congrArg Except.ok (law.undone x)

theorem read_writeIndented (free : DoubleFree p x)
    (shallow : (encode p x).depth ≤ Catalogue.depthLimit) :
    read p (Json.writeIndented (encode p x)) = .ok x := by
  have law := lawful p
  have decoded := Catalogue.read_writeIndented coherent (law.fits x) (law.floatFree x free) shallow
  rw [read, decoded]
  exact congrArg Except.ok (law.undone x)

/-- What was read from any text is written no deeper than it can be read. -/
theorem depth_of_read {s : String} (h : read p s = .ok x) :
    (encode p x).depth ≤ Catalogue.depthLimit := by
  obtain ⟨d, decoded, rfl⟩ := Json.ok_of_map h
  obtain ⟨fits, shallow⟩ := Catalogue.fits_of_read coherent (roomy p) decoded
  rw [(lawful p).toDatum_ofDatum fits]
  exact shallow

end Wire

theorem Request.read_write {r : Request} (free : r.DoubleFree)
    (shallow : r.toDatum.depth ≤ Json.Catalogue.depthLimit) : Request.read r.write = .ok r :=
  Wire.read_writeIndented (p := .request) free shallow

theorem Request.depth_of_read {s : String} {r : Request} (h : Request.read s = .ok r) :
    r.toDatum.depth ≤ Json.Catalogue.depthLimit :=
  Wire.depth_of_read (p := .request) h

/-! ### A strict request and a loose text -/

/-- A request with nested types and constants, and with characters that are escaped. -/
def orders : Request where
  version := "0.1"
  interface :=
    { filename := "orders.thrift"
      structs := [{
        name := "Order"
        fields := [{
          id := 1
          name := "parts"
          requiredness := .optional
          type := { name := "list", value := some { name := "string" } }
          default := some ⟨some {
            list := some [.ofInt (-9223372036854775808), .ofIdentifier "All"] }⟩ }]
        comment := "\x01\n\"é\"" }]
      services := [{ name := "Orders", functions := [.declare "list" "Order"] }] }

theorem orders_doubleFree : orders.DoubleFree where
  structs := by
    simp [orders, Struct.DoubleFree, Field.DoubleFree, Constant.doubleFree_some,
      Literal.doubleFree_mk, Constant.ofInt, Constant.ofIdentifier]
  unions _ h := nomatch h
  exceptions _ h := nomatch h
  services := by
    simp only [orders, List.forall_mem_singleton, Service.DoubleFree]
    exact ⟨nofun, nofun⟩

/-- Members are absent, null, unknown and out of order, and an interface and a struct are lists. -/
def looseText : String :=
  "\x7b\"AST\":[\"f\",null,[[\"S\"]]],\"More\":[1],\"Language\":\"x\"\x7d"

def looseRequest : Request where
  language := "x"
  interface := { filename := "f", structs := [{ name := "S" }] }

theorem read_looseText : Request.read looseText = .ok looseRequest := by
  have scanned : Json.Token.scan looseText.toList = [.openObject, .text (.written "AST"), .colon,
      .openList, .text (.written "f"), .comma, .null, .comma, .openList, .openList,
      .text (.written "S"), .closeList, .closeList, .closeList, .comma, .text (.written "More"),
      .colon, .openList, .number (.written 1), .closeList, .comma, .text (.written "Language"),
      .colon, .text (.written "x"), .closeObject] := by decide +kernel
  have text : Json.Text.read looseText = ⟨.object [
      (.written "AST", .list [.text (.written "f"), .null,
        .list [.list [.text (.written "S")] none] none] none),
      (.written "More", .list [.number (.written 1)] none),
      (.written "Language", .text (.written "x"))] none, false⟩ := by
    rw [Json.Text.read, scanned]
    rfl
  have decoded : Wire.catalogue.read (.record .request) looseText = .ok looseRequest.toDatum := by
    rw [Json.Catalogue.read, text]
    rfl
  rw [Request.read, decoded]
  exact congrArg Except.ok (Request.lawful.undone looseRequest)

theorem looseRequest_doubleFree : looseRequest.DoubleFree where
  structs := by
    simp only [looseRequest, List.forall_mem_singleton]
    exact nofun
  unions _ h := nomatch h
  exceptions _ h := nomatch h
  services _ h := nomatch h

/-! ### Every request and every value -/

/-- Indented requests and compact values of every part are read back, and whatever a request was
read from, it is read back once it is written. -/
theorem read_undoes_write :
    (∀ r : Request, r.DoubleFree → r.toDatum.depth ≤ Json.Catalogue.depthLimit →
      Request.read r.write = .ok r) ∧
    (∀ (p : Wire.Part) (x : Wire.Value p), Wire.DoubleFree p x →
      (Wire.encode p x).depth ≤ Json.Catalogue.depthLimit →
        Wire.read p (Json.write (Wire.encode p x)) = .ok x) ∧
    (∀ (s : String) (r : Request), Request.read s = .ok r →
      r.toDatum.depth ≤ Json.Catalogue.depthLimit ∧
        (r.DoubleFree → Request.read r.write = .ok r)) := by
  refine ⟨?_, ?_, ?_⟩
  · intro r free shallow
    exact Request.read_write free shallow
  · intro p x free shallow
    exact Wire.read_write free shallow
  · intro s r read
    have shallow := Request.depth_of_read read
    exact ⟨shallow, fun free => Request.read_write free shallow⟩

theorem orders_and_looseText_read_back :
    (orders.DoubleFree ∧ orders.toDatum.depth = 11 ∧ Request.read orders.write = .ok orders) ∧
    Wire.read .interface (Json.write orders.interface.toDatum) = .ok orders.interface ∧
    (Request.read looseText = .ok looseRequest ∧
      looseRequest.toDatum.depth ≤ Json.Catalogue.depthLimit ∧
        Request.read looseRequest.write = .ok looseRequest) := by
  have loose := read_undoes_write.2.2 looseText looseRequest read_looseText
  refine ⟨⟨orders_doubleFree, by decide, ?_⟩, ?_, read_looseText, loose.1, ?_⟩
  · exact read_undoes_write.1 orders orders_doubleFree (by decide)
  · exact read_undoes_write.2.1 .interface orders.interface orders_doubleFree (by decide)
  · exact loose.2 looseRequest_doubleFree

end ServiceDoc.Idl
