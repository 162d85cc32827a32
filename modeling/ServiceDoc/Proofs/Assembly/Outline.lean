import ServiceDoc.Proofs.Assembly.Order
import Mathlib.Logic.Function.Basic

/-! Outlines. An outline is what an assembly reads of an interface: of a service and its bound
functions, of the definitions that these mention and of the namespace. Interfaces with the same
outline have the same document and warnings, however they differ otherwise. -/
namespace ServiceDoc.Assembly
open Idl OpenApi Http

structure FieldView where
  name : String
  required : Bool
  docs : Option String
  type : String
  hasDefault : Bool
  identifier : Option String
deriving DecidableEq

def FieldView.of (f : Field) : FieldView where
  name := f.name
  required := f.isRequired
  docs := f.docs
  type := f.type.name
  hasDefault := f.default.isSome
  identifier := f.default.bind Constant.identifier?

structure StructView where
  docs : Option String
  fields : List FieldView
deriving DecidableEq

def StructView.of (s : Struct) : StructView := ⟨s.docs, s.fields.map .of⟩

structure FunctionView where
  name : String
  docs : Option String
  binding : Binding
  arity : Nat
  /-- The type of the argument if there is one argument only. -/
  argument : Option String
  returns : String
deriving DecidableEq

namespace FunctionView

def soleArgument : List Field → Option String
  | [argument] => some argument.type.name
  | _ => none

/-- A function without a binding is not seen. -/
def of? (f : Function) : Option FunctionView :=
  (bindingOf f).map fun b =>
    { name := f.name, docs := f.docs, binding := b, arity := f.arguments.length,
      argument := soleArgument f.arguments, returns := f.returns.name }

/-- The type names that are looked up. -/
def mentions (v : FunctionView) : List String := v.argument.toList ++ [v.returns]

end FunctionView

structure ServiceView where
  name : String
  docs : Option String
  functions : List FunctionView
deriving DecidableEq

/-- A service without a bound function is not seen. -/
def ServiceView.of? (s : Service) : Option ServiceView :=
  match s.functions.filterMap FunctionView.of? with
  | [] => none
  | functions => some ⟨s.name, s.docs, functions⟩

def mentioned (i : Interface) : List String :=
  (i.services.filterMap ServiceView.of?).flatMap fun v => v.functions.flatMap (·.mentions)

/-- What is seen of the definition of a name, if there is one. -/
def definitionView (i : Interface) (name : String) : Option StructView :=
  (i.find name).map StructView.of

/-- Interfaces that look the same to an assembly. Definitions of names that no bound function
mentions may differ. -/
structure SameOutline (settings : Settings) (i j : Interface) : Prop where
  namespaces : (i.namespaceFor settings.namespaceLanguage).map Namespace.name =
    (j.namespaceFor settings.namespaceLanguage).map Namespace.name
  services : i.services.filterMap ServiceView.of? = j.services.filterMap ServiceView.of?
  definitions : ∀ name ∈ mentioned i, definitionView i name = definitionView j name

theorem map_eq_of_factorsThrough {α β γ : Type} [Nonempty β] {view : α → γ} {f : α → β}
    (h : f.FactorsThrough view) {xs ys : List α} (same : xs.map view = ys.map view) :
    xs.map f = ys.map f := by
  obtain ⟨e, rfl⟩ := (Function.factorsThrough_iff f).mp h
  rw [← List.map_map, ← List.map_map, same]

/-- Lists with the same visible members, member by member, have the same images. -/
theorem filterMap_eq_of_view {α β γ : Type} {view : α → Option γ} {f g : α → Option β}
    {xs ys : List α} (views : xs.filterMap view = ys.filterMap view)
    (same : ∀ x y v, view x = some v → view y = some v → v ∈ xs.filterMap view → f x = g y)
    (unseen : ∀ x, view x = none → f x = none ∧ g x = none) :
    xs.filterMap f = ys.filterMap g := by
  induction xs generalizing ys with
  | nil =>
      rw [List.filterMap_nil, eq_comm, List.filterMap_eq_nil_iff] at views
      rw [List.filterMap_nil, eq_comm, List.filterMap_eq_nil_iff]
      exact fun y mem => (unseen y (views y mem)).2
  | cons x xs ih =>
      cases seen : view x with
      | none =>
          rw [List.filterMap_cons_none seen] at views same
          rw [List.filterMap_cons_none (unseen x seen).1]
          exact ih views same
      | some v =>
          rw [List.filterMap_cons_some seen] at views same
          obtain ⟨hidden, y, rest, rfl, before, here, after⟩ :=
            List.filterMap_eq_cons_iff.mp views.symm
          have skipped : hidden.filterMap g = [] :=
            List.filterMap_eq_nil_iff.mpr fun z mem => (unseen z (before z mem)).2
          have first := same x y v seen here List.mem_cons_self
          have others := ih after.symm fun x y w hx hy mem =>
            same x y w hx hy (List.mem_cons_of_mem v mem)
          rw [List.filterMap_append, skipped, List.nil_append, List.filterMap_cons,
            List.filterMap_cons, first, others]

theorem fieldDefault_eq (f : Field) :
    fieldDefault f = if f.type.kind = .bool
      then (f.default.bind Constant.identifier?).map (· == "true") else none := by
  unfold fieldDefault
  split
  next bool =>
    rw [bool]
    cases f.default <;> rfl
  next other =>
    cases f.default with
    | none => rfl
    | some c =>
        rw [Option.bind_some]
        unfold defaultValue
        split
        next bool => exact absurd bool other
        next => rfl

theorem fieldDefault_factors : fieldDefault.FactorsThrough FieldView.of := by
  intro f g same
  have type : f.type.name = g.type.name := congrArg FieldView.type same
  have identifier : f.default.bind Constant.identifier? = g.default.bind Constant.identifier? :=
    congrArg FieldView.identifier same
  rw [fieldDefault_eq, fieldDefault_eq, identifier, TypeRef.kind, TypeRef.kind, type]

theorem queryParameter_factors : queryParameter.FactorsThrough FieldView.of := by
  intro f g same
  have name : f.name = g.name := congrArg FieldView.name same
  have required : f.isRequired = g.isRequired := congrArg FieldView.required same
  have docs : f.docs = g.docs := congrArg FieldView.docs same
  rw [queryParameter, queryParameter, name, required, docs, fieldDefault_factors same]

theorem defaultWarning_factors : defaultWarning.FactorsThrough FieldView.of := by
  intro f g same
  have name : f.name = g.name := congrArg FieldView.name same
  have type : f.type.name = g.type.name := congrArg FieldView.type same
  have default : f.default.isSome = g.default.isSome := congrArg FieldView.hasDefault same
  rw [defaultWarning, defaultWarning, name, type, default, fieldDefault_factors same]

theorem property_factors :
    (fun f : Field => (f.name, Schema.typed f.name f.type.name)).FactorsThrough FieldView.of := by
  intro f g same
  have name : f.name = g.name := congrArg FieldView.name same
  have type : f.type.name = g.type.name := congrArg FieldView.type same
  simp only [name, type]

/-- Meanings that look the same. -/
inductive SameMeaning : Meaning → Meaning → Prop where
  | builtin : SameMeaning .builtin .builtin
  | unknown (name : String) : SameMeaning (.unknown name) (.unknown name)
  | defined {s t : Struct} (name : s.name = t.name) (view : StructView.of s = StructView.of t) :
    SameMeaning (.defined s) (.defined t)

theorem eq_of_kind_name? {name other : String} (h : (Kind.of name).name? = some other) :
    other = name := by
  unfold Kind.of at h
  split at h <;> cases h
  rfl

theorem name_of_find {i : Interface} {name : String} {s : Struct} (h : i.find name = some s) :
    s.name = name := eq_of_beq (List.find?_some (p := fun s : Struct => s.name == name) h)

theorem sameMeaning {i j : Interface} {t u : TypeRef} (names : t.name = u.name)
    (finds : definitionView i t.name = definitionView j t.name) :
    SameMeaning (meaning i t) (meaning j u) := by
  unfold meaning TypeRef.kind
  rw [← names]
  cases h : (Kind.of t.name).name? with
  | none => exact .builtin
  | some name =>
      obtain rfl := eq_of_kind_name? h
      unfold definitionView at finds
      cases hi : i.find t.name with
      | none =>
          rw [hi, Option.map_none, eq_comm, Option.map_eq_none_iff] at finds
          simp only [finds, hi]
          exact .unknown _
      | some s =>
          rw [hi, Option.map_some, eq_comm, Option.map_eq_some_iff] at finds
          obtain ⟨s', hj, view⟩ := finds
          simp only [hj, hi]
          exact .defined ((name_of_find hi).trans (name_of_find hj).symm) view.symm

theorem returnSchema_eq {i j : Interface} {t u : TypeRef}
    (same : SameMeaning (meaning i t) (meaning j u)) : returnSchema i t = returnSchema j u := by
  unfold returnSchema
  generalize meaning i t = m, meaning j u = n at same ⊢
  cases same with
  | builtin => rfl
  | unknown name => rfl
  | @defined s s' name view =>
      have docs : s.docs = s'.docs := congrArg StructView.docs view
      have properties := map_eq_of_factorsThrough property_factors
        (congrArg StructView.fields view)
      simp only [structSchema, name, docs, properties]

theorem returnWarnings_eq_of_same {i j : Interface} {t u : TypeRef}
    (same : SameMeaning (meaning i t) (meaning j u)) : returnWarnings i t = returnWarnings j u := by
  unfold returnWarnings
  generalize meaning i t = m, meaning j u = n at same ⊢
  cases same <;> rfl

/-- Arguments that look the same lead to the same parameters and warnings. -/
theorem arguments_eq {i j : Interface} {xs ys : List Field} (arity : xs.length = ys.length)
    (argument : FunctionView.soleArgument xs = FunctionView.soleArgument ys)
    (finds : ∀ name ∈ FunctionView.soleArgument xs, definitionView i name = definitionView j name)
    (operation : String) :
    parameters i xs = parameters j ys ∧
      argumentWarnings i operation xs = argumentWarnings j operation ys := by
  match xs, ys with
  | [], [] => exact ⟨rfl, rfl⟩
  | [x], [y] =>
      have same := sameMeaning (Option.some.inj argument) (finds _ rfl)
      simp only [parameters, argumentWarnings]
      generalize meaning i x.type = m, meaning j y.type = n at same ⊢
      cases same with
      | builtin => exact ⟨rfl, rfl⟩
      | unknown name => exact ⟨rfl, rfl⟩
      | @defined s s' name view =>
          have fields : s.fields.map .of = s'.fields.map FieldView.of :=
            congrArg StructView.fields view
          have warnings := congrArg (List.filterMap id)
            (map_eq_of_factorsThrough defaultWarning_factors fields)
          simp only [List.filterMap_map] at warnings
          exact ⟨map_eq_of_factorsThrough queryParameter_factors fields, warnings⟩
  | _ :: _ :: _, _ :: _ :: _ =>
      exact ⟨rfl, congrArg (fun count => [Warning.manyArguments operation count]) arity⟩

theorem order_none_of_view {f : Function} (h : FunctionView.of? f = none) (i : Interface)
    (s : Service) : orderOf i s f = none :=
  Option.map_eq_none_iff.mpr (Option.map_eq_none_iff.mp h)

/-- Functions that look the same make the same order. -/
theorem orderOf_eq {i j : Interface} {s t : Service} {f g : Function} {v : FunctionView}
    (service : s.name = t.name) (hf : FunctionView.of? f = some v)
    (hg : FunctionView.of? g = some v)
    (finds : ∀ name ∈ v.mentions, definitionView i name = definitionView j name) :
    orderOf i s f = orderOf j t g := by
  obtain ⟨b, hb, rfl⟩ := Option.map_eq_some_iff.mp hf
  obtain ⟨c, hc, view⟩ := Option.map_eq_some_iff.mp hg
  injection view with name docs binding arity argument returns
  subst binding
  have id : operationId s f = operationId t g := by rw [operationId, operationId, service, name]
  have found : ∀ n ∈ FunctionView.soleArgument f.arguments,
      definitionView i n = definitionView j n := fun n mem =>
    finds n (List.mem_append_left _ (Option.mem_toList.mpr mem))
  obtain ⟨parameters, argumentWarnings⟩ :=
    arguments_eq arity.symm argument.symm found (operationId s f)
  have same : SameMeaning (meaning i f.returns) (meaning j g.returns) :=
    sameMeaning returns.symm (finds _ (List.mem_append_right _ List.mem_cons_self))
  have operation : operationOf i s f = operationOf j t g := by
    simp only [operationOf, id, service, name, docs, parameters, successResponse,
      returnSchema_eq same]
  have warnings : operationWarnings i s f = operationWarnings j t g := by
    rw [operationWarnings, operationWarnings, argumentWarnings, id, returnWarnings_eq_of_same same]
  rw [orderOf, orderOf, hb, hc, operation, warnings]

theorem functions_of_view {s : Service} {v : ServiceView} (h : ServiceView.of? s = some v) :
    s.name = v.name ∧ s.docs = v.docs ∧ s.functions.filterMap FunctionView.of? = v.functions := by
  unfold ServiceView.of? at h
  split at h
  next => cases h
  next => cases h; exact ⟨rfl, rfl, rfl⟩

theorem batch_none_of_view {s : Service} (h : ServiceView.of? s = none) (i : Interface) :
    batchOf i s = none := by
  have unseen : s.functions.filterMap FunctionView.of? = [] := by
    unfold ServiceView.of? at h
    split at h
    next none => exact none
    next => cases h
  have none : s.functions.filterMap (orderOf i s) = [] :=
    List.filterMap_eq_nil_iff.mpr fun f mem =>
      order_none_of_view (List.filterMap_eq_nil_iff.mp unseen f mem) i s
  rw [batchOf, none]

/-- Services that look the same have the same batches. -/
theorem batchOf_eq {i j : Interface} {s t : Service} {v : ServiceView}
    (hs : ServiceView.of? s = some v) (ht : ServiceView.of? t = some v)
    (finds : ∀ f ∈ v.functions, ∀ name ∈ f.mentions, definitionView i name = definitionView j name) :
    batchOf i s = batchOf j t := by
  obtain ⟨name, docs, functions⟩ := functions_of_view hs
  obtain ⟨name', docs', functions'⟩ := functions_of_view ht
  have orders : s.functions.filterMap (orderOf i s) = t.functions.filterMap (orderOf j t) := by
    refine filterMap_eq_of_view (functions.trans functions'.symm) ?_ ?_
    · intro f g w hf hg mem
      exact orderOf_eq (name.trans name'.symm) hf hg (finds w (functions ▸ mem))
    · intro f unseen
      exact ⟨order_none_of_view unseen i s, order_none_of_view unseen j t⟩
  have tag : tagOf s = tagOf t := by rw [tagOf, tagOf, name, docs, name', docs']
  rw [batchOf, batchOf, orders, tag]

/-- Nothing but the outline matters. -/
theorem SameOutline.document_eq {settings : Settings} {i j : Interface}
    (h : SameOutline settings i j) :
    document settings i = document settings j ∧ warnings settings i = warnings settings j := by
  refine document_of_batches h.namespaces (filterMap_eq_of_view h.services ?_ ?_)
  · intro s t v hs ht mem
    refine batchOf_eq hs ht fun f function name mention => h.definitions name ?_
    exact List.mem_flatMap.mpr ⟨v, mem, List.mem_flatMap.mpr ⟨f, function, mention⟩⟩
  · intro s unseen
    exact ⟨batch_none_of_view unseen i, batch_none_of_view unseen j⟩

end ServiceDoc.Assembly
