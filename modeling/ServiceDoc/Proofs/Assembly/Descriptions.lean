import ServiceDoc.Proofs.Assembly.Exposure
import ServiceDoc.Proofs.Assembly.TypeUse
import ServiceDoc.Proofs.Text.Documentation

/-! Descriptions. What a document says about an operation, a parameter, a response or a tag is what
the comment of the function, the field, the struct or the service documents, so it is there exactly
if the comment has a visible character, and it is trimmed. -/
namespace ServiceDoc.Assembly
open Idl OpenApi Http
open Text (Documents documents_documentation)

/-- The type refers to a definition. -/
def Defines (i : Interface) (t : TypeRef) (s : Struct) : Prop :=
  t.name ∉ builtinNames ∧ Refers i t.name s

/-- A parameter named after a field describes it. -/
structure DescribesField (f : Field) (p : Parameter) : Prop where
  name : p.name = f.name
  description : Documents f.comment p.description

/-- Parameters describe the fields of the definition that an only argument refers to. -/
inductive DescribeFields (i : Interface) : List Field → List Parameter → Prop where
  | fields {argument : Field} {s : Struct} {ps : List Parameter}
      (defined : Defines i argument.type s) (each : List.Forall₂ DescribesField s.fields ps) :
      DescribeFields i [argument] ps
  | absent {arguments : List Field}
      (undefined : ∀ argument s, arguments = [argument] → ¬ Defines i argument.type s) :
      DescribeFields i arguments []

/-- The schema of a result describes the definition that the type refers to. -/
inductive DescribesResult (i : Interface) (t : TypeRef) (schema : Schema) : Prop where
  | result {s : Struct} (defined : Defines i t s) (title : schema.title = some s.name)
      (description : Documents s.comment schema.description) : DescribesResult i t schema
  | absent (undefined : ∀ s, ¬ Defines i t s) (empty : schema = {}) : DescribesResult i t schema

/-- Every description of an operation comes from the comment of what it describes. -/
structure Describes (i : Interface) (f : Function) (o : Operation) : Prop where
  summary : Documents f.comment o.summary
  parameters : DescribeFields i f.arguments o.parameters
  response : ∃ schema, o.responses = [("200", answer schema)] ∧ DescribesResult i f.returns schema

structure DescribesService (s : Service) (t : Tag) : Prop where
  name : t.name = s.name
  description : Documents s.comment t.description

/-! ### Operations -/

theorem meaning_cases (i : Interface) (t : TypeRef) :
    (∃ s, Defines i t s ∧ meaning i t = .defined s) ∨
      (∀ s, ¬ Defines i t s) ∧ ∀ s, meaning i t ≠ .defined s := by
  by_cases builtin : t.name ∈ builtinNames
  · refine .inr ⟨fun s defined => defined.1 builtin, fun s => ?_⟩
    rw [meaning_of_builtin rfl builtin]
    exact nofun
  · by_cases undefined : ∀ s, ¬ Refers i t.name s
    · refine .inr ⟨fun s defined => undefined s defined.2, fun s => ?_⟩
      rw [meaning_of_undefined rfl builtin undefined]
      exact nofun
    · obtain ⟨s, refers⟩ := not_forall_not.mp undefined
      exact .inl ⟨s, ⟨builtin, refers⟩, meaning_of_refers rfl builtin refers⟩

theorem describesFields (fields : List Field) :
    List.Forall₂ DescribesField fields (queryParameters fields) :=
  (shows_queryParameters fields).imp fun f _ shown =>
    ⟨shown.name, shown.description ▸ documents_documentation f.comment⟩

theorem describeFields (i : Interface) (arguments : List Field) :
    DescribeFields i arguments (parameters i arguments) := by
  unfold parameters
  split
  next argument =>
    rcases meaning_cases i argument.type with ⟨s, defined, means⟩ | ⟨undefined, means⟩
    · rw [means]
      exact .fields defined (describesFields s.fields)
    · split
      next s defined => exact absurd defined (means s)
      next =>
        refine .absent ?_
        rintro _ s ⟨⟩
        exact undefined s
  next other => exact .absent fun argument s only => absurd only (other argument)

theorem describesResult (i : Interface) (t : TypeRef) : DescribesResult i t (returnSchema i t) := by
  unfold returnSchema
  rcases meaning_cases i t with ⟨s, defined, means⟩ | ⟨undefined, means⟩
  · rw [means]
    exact .result defined rfl (documents_documentation s.comment)
  · split
    next s defined => exact absurd defined (means s)
    next => exact .absent undefined rfl

theorem describes_operationOf (i : Interface) (s : Service) (f : Function) :
    Describes i f (operationOf i s f) where
  summary := documents_documentation f.comment
  parameters := describeFields i f.arguments
  response := ⟨returnSchema i f.returns, rfl, describesResult i f.returns⟩

/-! ### Tags -/

/-- Sorting the tags is sorting their services. -/
theorem exists_tagged (settings : Settings) (i : Interface) :
    ∃ owners : List Service, owners.Perm (slotOwners settings i) ∧
      (document settings i).tags = owners.map tagOf := by
  refine ⟨(slotOwners settings i).mergeSort fun s t => decide (s.name ≤ t.name),
    List.mergeSort_perm _ _, ?_⟩
  have sorted := List.map_mergeSort (f := tagOf) (s := fun a b => decide (a.name ≤ b.name))
    (l := slotOwners settings i) fun s _ t _ => rfl
  rw [← assembled_tags] at sorted
  exact sorted.symm

theorem describesServices (services : List Service) :
    List.Forall₂ DescribesService services (services.map tagOf) := by
  rw [List.forall₂_map_right_iff, List.forall₂_same]
  exact fun s _ => ⟨rfl, documents_documentation s.comment⟩

/-- Every description of a document comes from a comment. The operation of a slot has the summary of
the function that got the slot, its parameters describe the fields of the definition that they come
from and its response the definition of the result, and the tags describe the services that own a
slot; each of them is there exactly if the comment has a visible character, and is the comment
trimmed. -/
theorem descriptions_of_comments (settings : Settings) (i : Interface) :
    (∀ path v o, (document settings i).paths.slot path v = some o →
      ∃ p, firstPosition i path v = some p ∧ Describes i p.function o) ∧
    ∃ owners : List Service, owners.Perm (slotOwners settings i) ∧
      List.Forall₂ DescribesService owners (document settings i).tags := by
  constructor
  · intro path v o filled
    rw [slot_firstPosition, Option.map_eq_some_iff] at filled
    obtain ⟨p, first, rfl⟩ := filled
    exact ⟨p, first, describes_operationOf i p.service p.function⟩
  · obtain ⟨owners, perm, tags⟩ := exists_tagged settings i
    rw [tags]
    exact ⟨owners, perm, describesServices owners⟩

/-- Comments with blank ends, a blank one, and blanks that are no spaces. -/
def visits : Function where
  name := "visits"
  returns := { name := "Visit" }
  arguments := [{ name := "request", type := { name := "Query" } }]
  notes := [⟨"api.get", ["/visits"]⟩]
  comment := "\u00a0List the visits\u2003"

def vet : Service where
  name := "Vet"
  functions := [visits]
  comment := "\n All about health. \n"

def clinic : Interface where
  structs :=
    [{ name := "Query", fields := [{ name := "pet", comment := "\t\n" },
        { name := "day", comment := "on one day " }] },
      { name := "Visit", comment := "A visit" }]
  services := [vet]

theorem clinic_descriptions :
    (document {} clinic).paths.slot "/visits" .get = some (operationOf clinic vet visits) ∧
      Describes clinic visits (operationOf clinic vet visits) ∧
      (operationOf clinic vet visits).summary = some "List the visits" ∧
      (operationOf clinic vet visits).parameters.map Parameter.description =
        [none, some "on one day"] := by
  have filled : (document {} clinic).paths.slot "/visits" .get =
      some (operationOf clinic vet visits) := by
    rw [slot_firstPosition]
    rfl
  obtain ⟨operations, -⟩ := descriptions_of_comments {} clinic
  obtain ⟨p, first, describes⟩ := operations "/visits" .get _ filled
  cases first
  exact ⟨filled, describes, by decide, by decide⟩

end ServiceDoc.Assembly
