import ServiceDoc.OpenApi.PathItem
import ServiceDoc.Proofs.OpenApi.WrittenValue

/-! Equality of path items and of schemas is equality of the values that their texts stand for, and
it ignores the order of responses, content types and properties, and nothing else. -/
namespace ServiceDoc.OpenApi
open Http (Verb)

variable {α : Type}

/-! ### Schemas -/

namespace Schema

/-- No schema in it, at whatever depth, has a property twice. -/
inductive Distinct : Schema → Prop where
  | mk {s : Schema} (names : (Table.names s.properties).Nodup)
      (all : ∀ p ∈ s.properties, p.2.Distinct) : Distinct s

/-- The same schema with its properties in another order, at whatever depth. -/
inductive Rearranged : Schema → Schema → Prop where
  | mk {title type description : Option String} {ps qs : List (String × Schema)}
      {default : Option Bool} (names : (Table.names ps).Perm (Table.names qs))
      (values : ∀ name s t, (name, s) ∈ ps → (name, t) ∈ qs → Rearranged s t) :
      Rearranged ⟨title, type, description, ps, default⟩ ⟨title, type, description, qs, default⟩

theorem within_eq (ps qs : List (String × Schema)) :
    (ps.length == qs.length && within ps qs) = sameTable same ps qs := by
  rw [sameTable]
  congr 1
  induction ps with
  | nil => rfl
  | cons p ps ih =>
      obtain ⟨name, s⟩ := p
      rw [within, ih, List.all_cons]
      dsimp only
      cases qs.lookup name <;> rfl

theorem same_eq_true {a b : Schema} :
    a.same b = true ↔ a.title = b.title ∧ a.type = b.type ∧ a.description = b.description ∧
      sameTable same a.properties b.properties = true ∧ a.default = b.default := by
  obtain ⟨title, type, description, properties, default⟩ := a
  rw [same, ← within_eq]
  simp only [Bool.and_eq_true, beq_iff_eq, and_assoc]

theorem rearranged_iff {a b : Schema} :
    a.Rearranged b ↔ a.title = b.title ∧ a.type = b.type ∧ a.description = b.description ∧
      Table.Rearranged Rearranged a.properties b.properties ∧ a.default = b.default := by
  constructor
  · rintro ⟨names, values⟩
    exact ⟨rfl, rfl, rfl, ⟨names, values⟩, rfl⟩
  · obtain ⟨title, type, description, properties, default⟩ := a
    obtain ⟨title', type', description', properties', default'⟩ := b
    rintro ⟨rfl, rfl, rfl, ⟨names, values⟩, rfl⟩
    exact .mk names values

theorem propertiesToData_eq_map (ps : List (String × Schema)) :
    propertiesToData ps = ps.map fun (name, s) => (name, s.toDatum) := by
  induction ps with
  | nil => rfl
  | cons p ps ih =>
      rw [propertiesToData, ih]
      rfl

theorem toDatum_eq (s : Schema) :
    s.toDatum = .map (written
      [("title", s.title.map .text), ("type", s.type.map .text),
        ("description", s.description.map .text),
        ("properties",
          if s.properties.isEmpty then none else some (writtenTable toDatum s.properties)),
        ("default", s.default.map .bool)]) := by
  obtain ⟨title, type, description, properties, default⟩ := s
  rw [toDatum, propertiesToData_eq_map]
  rfl

theorem value_eq_iff {a b : Schema} (ha : (Table.names a.properties).Nodup)
    (hb : (Table.names b.properties).Nodup) :
    a.toDatum.value = b.toDatum.value ↔
      a.title = b.title ∧ a.type = b.type ∧ a.description = b.description ∧
        Table.Rearranged (fun s t => s.toDatum.value = t.toDatum.value) a.properties b.properties ∧
        a.default = b.default := by
  have tables := value_writtenTable_eq_iff (f := toDatum) ha hb
  have properties := value_unless_eq_iff
    (fun h => isEmpty_eq_of_length_eq (tables.mp h).length_eq)
    (fun left right => by rw [eq_of_isEmpty left right])
  rw [toDatum_eq a, toDatum_eq b, value_written_eq_iff]
  case names => rfl
  case nodup => simp
  simp only [List.map_cons, List.map_nil, List.cons.injEq, and_true, properties, tables,
    value_option_eq_iff value_text_injective, value_option_eq_iff value_bool_injective]

/-- Equality of schemas is equality of the values that they are written as. -/
theorem same_iff_value {a b : Schema} (ha : a.Distinct) (hb : b.Distinct) :
    a.same b = true ↔ a.toDatum.value = b.toDatum.value := by
  induction ha generalizing b with
  | mk names _ ih =>
      cases hb with
      | mk names' all =>
          have properties := sameTable_iff_of (R := fun s t => s.toDatum.value = t.toDatum.value)
            names names' fun p left q right => ih p left (all q right)
          rw [same_eq_true, value_eq_iff names names', properties]

/-- Equality of schemas ignores the order of properties and nothing else. -/
theorem same_iff_rearranged {a b : Schema} (ha : a.Distinct) (hb : b.Distinct) :
    a.same b = true ↔ a.Rearranged b := by
  induction ha generalizing b with
  | mk names _ ih =>
      cases hb with
      | mk names' all =>
          have properties := sameTable_iff_of (R := Rearranged) names names'
            fun p left q right => ih p left (all q right)
          rw [same_eq_true, rearranged_iff, properties]

theorem Distinct.toDatum {s : Schema} (h : s.Distinct) : s.toDatum.Distinct := by
  induction h with
  | mk names _ ih =>
      rw [toDatum_eq]
      refine distinct_written (by simp) ?_
      simp only [List.forall_mem_cons]
      exact ⟨distinct_option fun _ _ => .text _, distinct_option fun _ _ => .text _,
        distinct_option fun _ _ => .text _,
        distinct_unless _ (distinct_writtenTable names ih),
        distinct_option fun _ _ => .bool _, List.forall_mem_nil _⟩

end Schema

/-! ### Parameters -/

namespace Parameter

/-- The same parameter with a rearranged schema. -/
inductive Rearranged : Parameter → Parameter → Prop where
  | mk {name location : String} {description : Option String} {required : Bool} {s t : Schema}
      (schema : s.Rearranged t) :
      Rearranged ⟨name, location, description, required, s⟩
        ⟨name, location, description, required, t⟩

theorem same_eq_true {a b : Parameter} :
    a.same b = true ↔ a.name = b.name ∧ a.location = b.location ∧
      a.description = b.description ∧ a.required = b.required ∧ a.schema.same b.schema = true := by
  simp only [same, Bool.and_eq_true, beq_iff_eq, and_assoc]

theorem same_iff_value {a b : Parameter} (ha : a.schema.Distinct) (hb : b.schema.Distinct) :
    a.same b = true ↔ a.toDatum.value = b.toDatum.value := by
  rw [same_eq_true, Schema.same_iff_value ha hb, toDatum, toDatum, value_written_eq_iff]
  case names => rfl
  case nodup => simp
  simp only [List.map_cons, List.map_nil, List.cons.injEq, and_true, Option.map_some,
    Option.some.injEq, value_option_eq_iff value_text_injective, value_text_injective.eq_iff,
    value_bool_injective.eq_iff]

theorem same_iff_rearranged {a b : Parameter} (ha : a.schema.Distinct) (hb : b.schema.Distinct) :
    a.same b = true ↔ a.Rearranged b := by
  rw [same_eq_true, Schema.same_iff_rearranged ha hb]
  constructor
  · obtain ⟨name, location, description, required, schema⟩ := a
    obtain ⟨name', location', description', required', schema'⟩ := b
    rintro ⟨rfl, rfl, rfl, rfl, schema⟩
    exact .mk schema
  · rintro ⟨schema⟩
    exact ⟨rfl, rfl, rfl, rfl, schema⟩

theorem distinct_toDatum {p : Parameter} (h : p.schema.Distinct) : p.toDatum.Distinct := by
  refine distinct_written (by simp) ?_
  simp only [List.forall_mem_cons]
  exact ⟨distinct_some (.text _), distinct_some (.text _), distinct_option fun _ _ => .text _,
    distinct_some (.bool _), distinct_some h.toDatum, List.forall_mem_nil _⟩

end Parameter

/-! ### Responses -/

namespace MediaType

theorem toDatum_eq (m : MediaType) :
    m.toDatum = .map (written [("schema", some m.schema.toDatum)]) := rfl

theorem value_eq_iff {m n : MediaType} :
    m.toDatum.value = n.toDatum.value ↔ m.schema.toDatum.value = n.schema.toDatum.value := by
  rw [toDatum_eq, toDatum_eq, value_written_eq_iff]
  case names => rfl
  case nodup => simp
  simp only [List.map_cons, List.map_nil, List.cons.injEq, and_true, Option.map_some,
    Option.some.injEq]

theorem distinct_toDatum {m : MediaType} (h : m.schema.Distinct) :
    m.toDatum.Distinct := by
  rw [toDatum_eq]
  refine distinct_written (by simp) ?_
  simp only [List.forall_mem_cons]
  exact ⟨distinct_some h.toDatum, List.forall_mem_nil _⟩

end MediaType

namespace Response

/-- The content types are different, and so are the properties of their schemas. -/
structure Distinct (r : Response) : Prop where
  names : r.content.names.Nodup
  schemas : ∀ m ∈ r.content, m.2.schema.Distinct

/-- The same response with its content types in another order and rearranged schemas. -/
inductive Rearranged : Response → Response → Prop where
  | mk {description : String} {c d : Table MediaType}
      (content : Table.Rearranged (fun m n => m.schema.Rearranged n.schema) c d) :
      Rearranged ⟨description, c⟩ ⟨description, d⟩

theorem same_eq_true {a b : Response} :
    a.same b = true ↔ a.description = b.description ∧
      sameTable (fun m n => m.schema.same n.schema) a.content b.content = true := by
  rw [same, Bool.and_eq_true, beq_iff_eq]

theorem toDatum_eq (r : Response) :
    r.toDatum = .map (written [("description", some (.text r.description)),
      ("content", some (writtenTable MediaType.toDatum r.content))]) := rfl

theorem same_iff_value {a b : Response} (ha : a.Distinct) (hb : b.Distinct) :
    a.same b = true ↔ a.toDatum.value = b.toDatum.value := by
  have content : sameTable (fun m n => m.schema.same n.schema) a.content b.content = true ↔
      Table.Rearranged (fun m n => m.toDatum.value = n.toDatum.value) a.content b.content :=
    sameTable_iff_of ha.names hb.names fun m left n right =>
      (Schema.same_iff_value (ha.schemas m left) (hb.schemas n right)).trans
        MediaType.value_eq_iff.symm
  rw [same_eq_true, content, ← value_writtenTable_eq_iff ha.names hb.names, toDatum_eq, toDatum_eq,
    value_written_eq_iff]
  case names => rfl
  case nodup => simp
  simp only [List.map_cons, List.map_nil, List.cons.injEq, and_true, Option.map_some,
    Option.some.injEq, value_text_injective.eq_iff]

theorem same_iff_rearranged {a b : Response} (ha : a.Distinct) (hb : b.Distinct) :
    a.same b = true ↔ a.Rearranged b := by
  have content : sameTable (fun m n => m.schema.same n.schema) a.content b.content = true ↔
      Table.Rearranged (fun m n => m.schema.Rearranged n.schema) a.content b.content :=
    sameTable_iff_of ha.names hb.names fun m left n right =>
      Schema.same_iff_rearranged (ha.schemas m left) (hb.schemas n right)
  rw [same_eq_true, content]
  constructor
  · obtain ⟨description, c⟩ := a
    obtain ⟨description', d⟩ := b
    rintro ⟨rfl, content⟩
    exact .mk content
  · rintro ⟨entries⟩
    exact ⟨rfl, entries⟩

theorem Distinct.toDatum {r : Response} (h : r.Distinct) : r.toDatum.Distinct := by
  rw [toDatum_eq]
  refine distinct_written (by simp) ?_
  simp only [List.forall_mem_cons]
  have content := distinct_writtenTable h.names fun m member =>
    MediaType.distinct_toDatum (h.schemas m member)
  exact ⟨distinct_some (.text _), distinct_some content, List.forall_mem_nil _⟩

end Response

/-! ### Operations -/

namespace Operation

/-- No table of an operation, at whatever depth, has a name twice. -/
structure Distinct (o : Operation) : Prop where
  parameters : ∀ p ∈ o.parameters, p.schema.Distinct
  names : o.responses.names.Nodup
  responses : ∀ r ∈ o.responses, r.2.Distinct

/-- The same operation with its responses in another order, each of them and each parameter
rearranged in its own place. -/
inductive Rearranged : Operation → Operation → Prop where
  | mk {tags : List String} {summary : Option String} {description id : String}
      {ps qs : List Parameter} {r s : Table Response}
      (parameters : List.Forall₂ Parameter.Rearranged ps qs)
      (responses : Table.Rearranged Response.Rearranged r s) :
      Rearranged ⟨tags, summary, description, id, ps, r⟩ ⟨tags, summary, description, id, qs, s⟩

theorem same_eq_true {a b : Operation} :
    a.same b = true ↔ a.tags = b.tags ∧ a.summary = b.summary ∧ a.description = b.description ∧
      a.id = b.id ∧ sameList Parameter.same a.parameters b.parameters = true ∧
      sameTable Response.same a.responses b.responses = true := by
  simp only [same, Bool.and_eq_true, beq_iff_eq, and_assoc]

theorem same_iff_value {a b : Operation} (ha : a.Distinct) (hb : b.Distinct) :
    a.same b = true ↔ a.toDatum.value = b.toDatum.value := by
  have parameters := sameList_iff_of (R := fun p q => p.toDatum.value = q.toDatum.value)
    fun p left q right => Parameter.same_iff_value (ha.parameters p left) (hb.parameters q right)
  have responses := sameTable_iff_of (R := fun r s => r.toDatum.value = s.toDatum.value)
    ha.names hb.names
    fun r left s right => Response.same_iff_value (ha.responses r left) (hb.responses s right)
  rw [← value_list_eq_iff] at parameters
  rw [← value_writtenTable_eq_iff ha.names hb.names] at responses
  have unlessEmpty := value_unless_eq_iff (d := .list (a.parameters.map Parameter.toDatum))
    (e := .list (b.parameters.map Parameter.toDatum))
    (fun h => isEmpty_eq_of_length_eq (value_list_eq_iff.mp h).length_eq)
    (fun left right => by rw [eq_of_isEmpty left right])
  rw [same_eq_true, parameters, responses, toDatum, toDatum, value_written_eq_iff]
  case names => rfl
  case nodup => simp
  simp only [List.map_cons, List.map_nil, List.cons.injEq, and_true, Option.map_some,
    Option.some.injEq, value_option_eq_iff value_text_injective, value_text_injective.eq_iff,
    value_texts_eq_iff, unlessEmpty]

theorem same_iff_rearranged {a b : Operation} (ha : a.Distinct) (hb : b.Distinct) :
    a.same b = true ↔ a.Rearranged b := by
  have parameters := sameList_iff_of (R := Parameter.Rearranged) fun p left q right =>
    Parameter.same_iff_rearranged (ha.parameters p left) (hb.parameters q right)
  have responses := sameTable_iff_of (R := Response.Rearranged) ha.names hb.names
    fun r left s right => Response.same_iff_rearranged (ha.responses r left) (hb.responses s right)
  rw [same_eq_true, parameters, responses]
  constructor
  · obtain ⟨tags, summary, description, id, ps, r⟩ := a
    obtain ⟨tags', summary', description', id', qs, s⟩ := b
    rintro ⟨rfl, rfl, rfl, rfl, parameters, responses⟩
    exact .mk parameters responses
  · rintro ⟨places, entries⟩
    exact ⟨rfl, rfl, rfl, rfl, places, entries⟩

theorem Distinct.toDatum {o : Operation} (h : o.Distinct) : o.toDatum.Distinct := by
  refine distinct_written (by simp) ?_
  simp only [List.forall_mem_cons]
  have parameters := distinct_list_map fun p member => Parameter.distinct_toDatum
    (h.parameters p member)
  have responses := distinct_writtenTable h.names fun r member => (h.responses r member).toDatum
  exact ⟨distinct_some (distinct_list_map fun _ _ => .text _), distinct_option fun _ _ => .text _,
    distinct_some (.text _), distinct_some (.text _), distinct_unless _ parameters,
    distinct_some responses, List.forall_mem_nil _⟩

end Operation

/-! ### Path items -/

theorem rel_congr {R S : α → α → Prop} {o p : Option α}
    (agree : ∀ a ∈ o, ∀ b ∈ p, (R a b ↔ S a b)) : Option.Rel R o p ↔ Option.Rel S o p := by
  cases o with
  | none => cases p <;> simp
  | some a =>
      cases p with
      | none => simp
      | some b => simpa using agree a rfl b rfl

namespace PathItem

/-- No table of an operation of the item, at whatever depth, has a name twice. -/
def Distinct (item : PathItem) : Prop := ∀ v, ∀ o ∈ item.operation v, o.Distinct

/-- The same slots filled, with rearranged operations. -/
def Rearranged (a b : PathItem) : Prop :=
  ∀ v, Option.Rel Operation.Rearranged (a.operation v) (b.operation v)

theorem same_eq_true {a b : PathItem} : a.same b = true ↔
    ∀ v, Option.Rel (fun x y => x.same y = true) (a.operation v) (b.operation v) := by
  rw [same, List.all_eq_true]
  refine forall_congr' fun v => ?_
  rw [imp_iff_right (Verb.mem_all v)]
  cases a.operation v <;> cases b.operation v <;> simp

theorem value_eq_iff {a b : PathItem} : a.toDatum.value = b.toDatum.value ↔
    ∀ v, Option.Rel (fun x y => x.toDatum.value = y.toDatum.value) (a.operation v)
      (b.operation v) := by
  rw [toDatum, toDatum, value_written_eq_iff]
  case names => rfl
  case nodup => simp
  simp only [List.map_cons, List.map_nil, List.cons.injEq, and_true, value_slot_eq_iff]
  constructor
  · rintro ⟨get, put, post, delete, options, head, patch⟩ v
    cases v <;> assumption
  · intro h
    exact ⟨h .get, h .put, h .post, h .delete, h .options, h .head, h .patch⟩

theorem same_iff_value {a b : PathItem} (ha : a.Distinct) (hb : b.Distinct) :
    a.same b = true ↔ a.toDatum.value = b.toDatum.value := by
  rw [same_eq_true, value_eq_iff]
  exact forall_congr' fun v => rel_congr fun x left y right =>
    Operation.same_iff_value (ha v x left) (hb v y right)

theorem same_iff_rearranged {a b : PathItem} (ha : a.Distinct) (hb : b.Distinct) :
    a.same b = true ↔ a.Rearranged b := by
  rw [same_eq_true]
  exact forall_congr' fun v => rel_congr fun x left y right =>
    Operation.same_iff_rearranged (ha v x left) (hb v y right)

theorem Distinct.toDatum {item : PathItem} (h : item.Distinct) : item.toDatum.Distinct := by
  have each : ∀ v, ∀ d ∈ (item.operation v).map Operation.toDatum, d.Distinct := fun v =>
    distinct_option fun o member => (h v o member).toDatum
  refine distinct_written (by simp) ?_
  simp only [List.forall_mem_cons]
  exact ⟨each .get, each .put, each .post, each .delete, each .options, each .head, each .patch,
    List.forall_mem_nil _⟩

end PathItem

/-! ### Meaning -/

/-- What can be told from a value alone is an equivalence. -/
theorem equivalence_of_value {α β : Type} {P : α → Prop} {f : α → β} {same : α → α → Bool}
    (h : ∀ {a b}, P a → P b → (same a b = true ↔ f a = f b)) :
    Equivalence fun a b : { a // P a } => same a.val b.val = true where
  refl a := (h a.property a.property).mpr rfl
  symm {a b} ab := (h b.property a.property).mpr ((h a.property b.property).mp ab).symm
  trans {a b c} ab bc := (h a.property c.property).mpr
    (((h a.property b.property).mp ab).trans ((h b.property c.property).mp bc))

/-- Path items, and schemas of any depth, whose tables repeat no name are equal exactly when their
texts stand for the same value, which is when they are written as data that are equal up to the
order of members, and when one is the other with responses, content types and properties in another
order and nothing else changed. Hence equality is an equivalence. -/
theorem same_iff_same_meaning :
    (∀ a b : PathItem, a.Distinct → b.Distinct →
      (a.same b = true ↔
        Json.meaning (Json.write a.toDatum) = Json.meaning (Json.write b.toDatum)) ∧
      (a.same b = true ↔ a.toDatum.Rearranged b.toDatum) ∧
      (a.same b = true ↔ a.Rearranged b)) ∧
    (∀ s t : Schema, s.Distinct → t.Distinct →
      (s.same t = true ↔
        Json.meaning (Json.write s.toDatum) = Json.meaning (Json.write t.toDatum)) ∧
      (s.same t = true ↔ s.toDatum.Rearranged t.toDatum) ∧
      (s.same t = true ↔ s.Rearranged t)) ∧
    Equivalence (fun a b : { item : PathItem // item.Distinct } => a.val.same b.val = true) ∧
    Equivalence (fun s t : { s : Schema // s.Distinct } => s.val.same t.val = true) := by
  refine ⟨?items, ?schemas, equivalence_of_value PathItem.same_iff_value,
    equivalence_of_value Schema.same_iff_value⟩
  case items =>
    intro a b ha hb
    have values := PathItem.same_iff_value ha hb
    rw [Json.meaning_write a.floatFree_toDatum, Json.meaning_write b.floatFree_toDatum]
    exact ⟨values, values.trans (Datum.value_eq_iff ha.toDatum hb.toDatum),
      PathItem.same_iff_rearranged ha hb⟩
  case schemas =>
    intro s t hs ht
    have values := Schema.same_iff_value hs ht
    rw [Json.meaning_write s.floatFree_toDatum, Json.meaning_write t.floatFree_toDatum]
    exact ⟨values, values.trans (Datum.value_eq_iff hs.toDatum ht.toDatum),
      Schema.same_iff_rearranged hs ht⟩

/-- An animal and its home, with `turn` for the order of the properties. -/
def animal (turn : Table Schema → Table Schema) : Schema :=
  { title := some "Animal"
    properties := turn [("name", .typed "name" "string"),
      ("home", { properties := turn [("street", {}), ("inside", { default := some true })] })] }

/-- What a search for animals answers, with `turn` for the order of all tables. -/
def animalsFound (turn : ∀ {α : Type}, Table α → Table α) : Response :=
  ⟨"", turn [("application/json", ⟨animal turn⟩), ("text/plain", {})]⟩

def animals (turn : ∀ {α : Type}, Table α → Table α) : PathItem where
  get := some {
    id := "Animals_find"
    tags := ["Animals", "Search"]
    parameters := [{ Parameter.query "like" true with schema := animal turn }]
    responses := turn [("200", animalsFound turn), ("404", { description := "none like it" })] }

theorem nodup_names_of_perm {t u : Table α} (perm : t.Perm u) (nodup : u.names.Nodup) :
    t.names.Nodup :=
  (perm.map Prod.fst).nodup_iff.mpr nodup

theorem forall_mem_of_perm {P : α → Prop} {t u : List α} (perm : t.Perm u) (all : ∀ a ∈ u, P a) :
    ∀ a ∈ t, P a :=
  fun a member => all a (perm.mem_iff.mp member)

theorem Schema.distinct_of_nil {s : Schema} (h : s.properties = []) : s.Distinct :=
  .mk (h ▸ .nil) (h ▸ List.forall_mem_nil _)

section

variable {turn : ∀ {α : Type}, Table α → Table α}
  (perm : ∀ {α : Type} (t : Table α), (turn t).Perm t)
include perm

theorem animal_distinct : (animal turn).Distinct := by
  have home : Schema.Distinct
      { properties := turn [("street", {}), ("inside", { default := some true })] } := by
    refine .mk (nodup_names_of_perm (perm _) (by simp)) (forall_mem_of_perm (perm _) ?_)
    simp only [List.forall_mem_cons]
    exact ⟨Schema.distinct_of_nil rfl, Schema.distinct_of_nil rfl, List.forall_mem_nil _⟩
  refine .mk (nodup_names_of_perm (perm _) (by simp)) (forall_mem_of_perm (perm _) ?_)
  simp only [List.forall_mem_cons]
  exact ⟨Schema.distinct_of_nil rfl, home, List.forall_mem_nil _⟩

theorem animalsFound_distinct : (animalsFound turn).Distinct := by
  refine ⟨nodup_names_of_perm (perm _) (by simp), forall_mem_of_perm (perm _) ?_⟩
  simp only [List.forall_mem_cons]
  exact ⟨animal_distinct perm, Schema.distinct_of_nil rfl, List.forall_mem_nil _⟩

theorem animals_distinct : (animals turn).Distinct := by
  intro v o member
  cases v with
  | get =>
      cases member
      refine ⟨?parameters, nodup_names_of_perm (perm _) (by simp), forall_mem_of_perm (perm _) ?_⟩
      case parameters =>
        simp only [List.forall_mem_cons]
        exact ⟨animal_distinct perm, List.forall_mem_nil _⟩
      simp only [List.forall_mem_cons]
      exact ⟨animalsFound_distinct perm, ⟨.nil, List.forall_mem_nil _⟩, List.forall_mem_nil _⟩
  | _ => cases member

end

/-- Animals found in the one order of all tables and in the reverse order. -/
theorem animals_same_meaning :
    (animals id).Distinct ∧ (animals List.reverse).Distinct ∧
    (animals id).same (animals List.reverse) = true ∧
    (animal id).Distinct ∧ (animal List.reverse).Distinct ∧
    (animal id).same (animal List.reverse) = true ∧
    (animal id).properties.map Prod.fst ≠ (animal List.reverse).properties.map Prod.fst ∧
    Json.meaning (Json.write (animals id).toDatum) =
      Json.meaning (Json.write (animals List.reverse).toDatum) ∧
    (animals id).Rearranged (animals List.reverse) ∧
    (animal id).toDatum.Rearranged (animal List.reverse).toDatum := by
  have items := animals_distinct (fun t => List.Perm.refl t)
  have turned := animals_distinct List.reverse_perm
  have schema := animal_distinct (fun t => List.Perm.refl t)
  have turnedSchema := animal_distinct List.reverse_perm
  have same : (animals id).same (animals List.reverse) = true := by decide
  have sameSchema : (animal id).same (animal List.reverse) = true := by decide
  obtain ⟨meaning, -, order⟩ := same_iff_same_meaning.1 _ _ items turned
  obtain ⟨-, data, -⟩ := same_iff_same_meaning.2.1 _ _ schema turnedSchema
  exact ⟨items, turned, same, schema, turnedSchema, sameSchema, by decide, meaning.mp same,
    order.mp same, data.mp sameSchema⟩

end ServiceDoc.OpenApi
