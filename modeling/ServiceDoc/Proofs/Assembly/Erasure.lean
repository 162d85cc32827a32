import ServiceDoc.Proofs.Assembly.Outline

/-! Erasure. Everything that an outline does not show can be taken out of an interface: functions
without a binding and services without such a function, all notes but the one that binds, what is
thrown, the names of arguments, element types, and definitions that nothing mentions or that another
one hides. -/
namespace ServiceDoc.Assembly
open Idl OpenApi Http

def routeKey : Method → String
  | .any => "api.any"
  | .one .get => "api.get"
  | .one .post => "api.post"
  | .one .put => "api.put"
  | .one .delete => "api.delete"
  | .one .options => "api.options"
  | .one .head => "api.head"
  | .one .patch => "api.patch"

def bareNote (b : Binding) : Note := ⟨routeKey b.method, [b.path]⟩

def bareType (t : TypeRef) : TypeRef := { name := t.name }

def bareField (f : Field) : Field where
  name := f.name
  requiredness := if f.isRequired then .required else .unstated
  type := bareType f.type
  default := f.default.map fun c => (c.identifier?.map Constant.ofIdentifier).getD {}
  comment := f.comment

def bareStruct (s : Struct) : Struct := { s with fields := s.fields.map bareField }

/-- The type of an argument matters only if there is one argument. -/
def bareArguments : List Field → List Field
  | [argument] => [{ type := bareType argument.type }]
  | arguments => arguments.map fun _ => {}

def bareFunction (f : Function) : Option Function :=
  (bindingOf f).map fun b =>
    { name := f.name, returns := bareType f.returns, arguments := bareArguments f.arguments,
      notes := [bareNote b], comment := f.comment }

def bareService (s : Service) : Option Service :=
  match s.functions.filterMap bareFunction with
  | [] => none
  | functions => some { name := s.name, functions, comment := s.comment }

/-- What is left of an interface. Definitions are all structs. -/
def bare (settings : Settings) (i : Interface) : Interface where
  namespaces := (i.namespaceFor settings.namespaceLanguage).toList
  structs := (mentioned i).filterMap fun name => (i.find name).map bareStruct
  services := i.services.filterMap bareService

theorem routes_singleton (note : Note) :
    routes [note] = (routeKeys.filter fun k => sameKey note.key k.1).map fun k =>
      (k.2, note.values) := by
  unfold routes
  induction routeKeys with
  | nil => rfl
  | cons k rest ih =>
      obtain ⟨key, method⟩ := k
      simp only [List.find?_singleton] at ih ⊢
      rw [List.filterMap_cons, ih, List.filter_cons]
      cases sameKey note.key key <;> rfl

theorem bindingOf_bareNote {f : Function} {b : Binding} (h : f.notes = [bareNote b]) :
    bindingOf f = some b := by
  have own : ∀ m : Method, routeKeys.filter (fun k => sameKey (routeKey m) k.1) =
      [(routeKey m, m)] := by
    intro m
    cases m with
    | any => decide
    | one verb => cases verb <;> decide
  rw [bindingOf, h, routes_singleton, bareNote, own]
  rfl

theorem view_bareField (f : Field) : FieldView.of (bareField f) = FieldView.of f := by
  have required : (bareField f).isRequired = f.isRequired := by
    unfold Field.isRequired bareField
    split <;> simp_all [Field.isRequired]
  have identifier : (bareField f).default.bind Constant.identifier? =
      f.default.bind Constant.identifier? := by
    unfold bareField
    cases f.default with
    | none => rfl
    | some c => cases h : c.identifier? <;> simp [h] <;> rfl
  have stated : (bareField f).default.isSome = f.default.isSome := Option.isSome_map
  rw [FieldView.of, FieldView.of, required, identifier, stated]
  rfl

theorem view_bareStruct (s : Struct) : StructView.of (bareStruct s) = StructView.of s := by
  have fields : (s.fields.map bareField).map FieldView.of = s.fields.map FieldView.of := by
    rw [List.map_map]
    exact List.map_congr_left fun f _ => view_bareField f
  exact congrArg (StructView.mk s.docs) fields

theorem length_bareArguments (xs : List Field) : (bareArguments xs).length = xs.length := by
  unfold bareArguments
  split
  · rfl
  · exact List.length_map _

theorem soleArgument_bareArguments (xs : List Field) :
    FunctionView.soleArgument (bareArguments xs) = FunctionView.soleArgument xs := by
  match xs with
  | [] => rfl
  | [_] => rfl
  | _ :: _ :: _ => rfl

theorem view_bareFunction (f : Function) :
    (bareFunction f).bind FunctionView.of? = FunctionView.of? f := by
  unfold bareFunction FunctionView.of?
  cases h : bindingOf f with
  | none => rfl
  | some b =>
      rw [Option.map_some, Option.bind_some, bindingOf_bareNote (b := b) rfl]
      simp only [Option.map_some, length_bareArguments, soleArgument_bareArguments]
      rfl

theorem views_bareFunctions (fs : List Function) :
    (fs.filterMap bareFunction).filterMap FunctionView.of? = fs.filterMap FunctionView.of? := by
  rw [List.filterMap_filterMap]
  exact List.filterMap_congr fun f _ => view_bareFunction f

theorem view_of_functions {s : Service} {functions : List FunctionView}
    (h : s.functions.filterMap FunctionView.of? = functions) :
    ServiceView.of? s = if functions = [] then none else some ⟨s.name, s.docs, functions⟩ := by
  unfold ServiceView.of?
  rw [h]
  cases functions <;> rfl

theorem view_bareService (s : Service) :
    (bareService s).bind ServiceView.of? = ServiceView.of? s := by
  have views := views_bareFunctions s.functions
  rw [view_of_functions views.symm]
  unfold bareService
  split
  next none => rw [none]; rfl
  next => rw [Option.bind_some, view_of_functions rfl]; rfl

theorem views_bare (settings : Settings) (i : Interface) :
    (bare settings i).services.filterMap ServiceView.of? =
      i.services.filterMap ServiceView.of? := by
  rw [bare, List.filterMap_filterMap]
  exact List.filterMap_congr fun s _ => view_bareService s

/-- Among values that are made from names and keep them, a name finds what was made from it. -/
theorem find?_filterMap_name {f : String → Option Struct} (keeps : ∀ n s, f n = some s → s.name = n)
    {names : List String} {name : String} (mem : name ∈ names) :
    (names.filterMap f).find? (fun s => s.name == name) = f name := by
  rw [List.find?_filterMap]
  have only : ∀ n, (f n).any (fun s => s.name == name) = true → n = name := by
    intro n found
    obtain ⟨s, made, same⟩ := (Option.any_eq_true _ _).mp found
    rw [← keeps n s made]
    exact eq_of_beq same
  cases found : names.find? fun n => (f n).any fun s => s.name == name with
  | some n =>
      have named := List.find?_some (p := fun n => (f n).any fun s => s.name == name) found
      rw [Option.bind_some, only n named]
  | none =>
      have absent := List.find?_eq_none.mp found name mem
      cases made : f name with
      | none => rfl
      | some s => simp [made, keeps name s made] at absent

theorem definitionView_bare (settings : Settings) {i : Interface} {name : String}
    (mem : name ∈ mentioned i) :
    definitionView (bare settings i) name = definitionView i name := by
  have keeps : ∀ n s, (i.find n).map bareStruct = some s → s.name = n := by
    intro n s made
    obtain ⟨t, found, rfl⟩ := Option.map_eq_some_iff.mp made
    exact (name_of_find found : t.name = n)
  have found : (bare settings i).find name = (i.find name).map bareStruct := by
    rw [Interface.find]
    simp only [bare, List.append_nil]
    exact find?_filterMap_name keeps mem
  rw [definitionView, found, Option.map_map]
  exact congrArg (fun f => (i.find name).map f) (funext view_bareStruct)

theorem namespaceFor_bare (settings : Settings) (i : Interface) :
    (bare settings i).namespaceFor settings.namespaceLanguage =
      i.namespaceFor settings.namespaceLanguage := by
  simp only [bare, Interface.namespaceFor]
  cases h : i.namespaces.find? fun n => n.language == settings.namespaceLanguage with
  | none => rfl
  | some n =>
      have language := List.find?_some
        (p := fun n : Namespace => n.language == settings.namespaceLanguage) h
      exact List.find?_cons_of_pos language

theorem sameOutline_bare (settings : Settings) (i : Interface) :
    SameOutline settings i (bare settings i) where
  namespaces := by rw [namespaceFor_bare]
  services := (views_bare settings i).symm
  definitions name mem := (definitionView_bare settings mem).symm

/-- The output depends on the outline alone. Interfaces with the same outline have the same document
and the same warnings; in particular nothing changes when all that the outline does not show is
erased. -/
theorem document_of_outline (settings : Settings) (i : Interface) :
    (∀ j, SameOutline settings i j →
      document settings i = document settings j ∧ warnings settings i = warnings settings j) ∧
    document settings (bare settings i) = document settings i ∧
    warnings settings (bare settings i) = warnings settings i := by
  obtain ⟨document, warnings⟩ := (sameOutline_bare settings i).document_eq
  exact ⟨fun j => SameOutline.document_eq, document.symm, warnings.symm⟩

/-- Only `hello` is served; the rest makes no difference. -/
def wordy : Interface where
  filename := "greeter.thrift"
  namespaces := [⟨"py", "greeting"⟩, ⟨"go", "demo"⟩, ⟨"go", "late"⟩]
  structs := [{ name := "Greeting", fields := [{ id := 1, name := "loud", type := { name := "bool" } }] }]
  exceptions := [{ name := "Greeting" }, { name := "Refused" }]
  services :=
    [{ name := "Idle", functions := [{ name := "wait" }] },
     { name := "Greeter", base := "Idle", comment := " Greets. "
       functions :=
        [{ name := "ready", oneway := true },
         { name := "hello", returns := { name := "list", value := some { name := "Greeting" } }
           arguments := [{ id := 1, name := "greeting", type := { name := "Greeting" } }]
           throws := [{ id := 1, name := "refused", type := { name := "Refused" } }]
           notes := [⟨"api.put", ["/late"]⟩, ⟨"API.Get", ["/hello", "/hi"]⟩, ⟨"api.get", ["/x"]⟩] }] }]

def terse : Interface where
  namespaces := [⟨"go", "demo"⟩]
  unions := [{ name := "Greeting", fields := [{ name := "loud", type := { name := "bool" } }] }]
  services :=
    [{ name := "Greeter", comment := "Greets."
       functions :=
        [{ name := "hello", returns := { name := "list" }
           arguments := [{ type := { name := "Greeting" } }]
           notes := [⟨"api.get", ["/hello"]⟩] }] }]

theorem wordy_terse :
    SameOutline {} wordy terse ∧ document {} wordy = document {} terse ∧
      warnings {} wordy = warnings {} terse := by
  have same : SameOutline {} wordy terse := by
    refine ⟨by decide, by decide, by decide⟩
  exact ⟨same, (document_of_outline {} wordy).1 terse same⟩

end ServiceDoc.Assembly
