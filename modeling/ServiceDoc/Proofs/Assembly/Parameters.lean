import ServiceDoc.Proofs.Assembly.Account
import ServiceDoc.Proofs.Idl.Naming

/-! Query parameters. Each field of a struct becomes one parameter, in the order of the fields. The
default of a field is shown by its parameter or, if a parameter cannot show it, reported in a
warning of its own, so none is lost and none is told twice. -/
namespace ServiceDoc.Assembly
open Idl OpenApi

/-! ### The parameter of a field -/

/-- A truth value that a field states as its default: a bare name, true if it is `true`. -/
def StatesDefault (f : Field) (value : Bool) : Prop :=
  f.type.name = "bool" ∧
    ∃ c identifier, f.default = some c ∧ c.identifier? = some identifier ∧
      value = decide (identifier = "true")

theorem fieldDefault_eq_some_iff {f : Field} {value : Bool} :
    fieldDefault f = some value ↔ StatesDefault f value := by
  have bool : f.type.kind = .bool ↔ f.type.name = "bool" := Kind.of_eq_bool_iff
  unfold StatesDefault fieldDefault
  rw [← bool]
  constructor
  · intro shown
    obtain ⟨c, default, mapped⟩ := Option.bind_eq_some_iff.mp shown
    unfold defaultValue at mapped
    split at mapped
    next kind =>
      obtain ⟨identifier, here, rfl⟩ := Option.map_eq_some_iff.mp mapped
      exact ⟨kind, c, identifier, default, here, rfl⟩
    next => cases mapped
  · rintro ⟨kind, c, identifier, default, here, rfl⟩
    rw [default, Option.bind_some, kind, defaultValue, here, Option.map_some]
    rfl

/-- What the parameter of a field shows of it. -/
structure Shows (f : Field) (p : Parameter) : Prop where
  name : p.name = f.name
  location : p.location = "query"
  required : p.required = true ↔ f.requiredness = .required
  description : p.description = f.docs
  /-- There is nothing in the schema but a default. -/
  bare : p.schema = { default := p.schema.default }
  default (value : Bool) : p.schema.default = some value ↔ StatesDefault f value

theorem shows_queryParameter (f : Field) : Shows f (queryParameter f) where
  name := rfl
  location := rfl
  required := beq_iff_eq
  description := rfl
  bare := rfl
  default _ := fieldDefault_eq_some_iff

theorem shows_queryParameters (fields : List Field) :
    List.Forall₂ Shows fields (queryParameters fields) := by
  induction fields with
  | nil => exact .nil
  | cons f rest ih => exact .cons (shows_queryParameter f) ih

/-! ### Where defaults go -/

/-- Each default of a field goes to one place: the schema of the parameter at the same position or
the next of the warnings. -/
inductive Accounted : List Field → List Parameter → List Warning → Prop where
  | nil : Accounted [] [] []
  | absent {f : Field} {p : Parameter} {fields ps ws} (stated : f.default = none)
      (schema : p.schema.default = none) (rest : Accounted fields ps ws) :
      Accounted (f :: fields) (p :: ps) ws
  | shown {f : Field} {p : Parameter} {c : Constant} {value : Bool} {fields ps ws}
      (stated : f.default = some c) (schema : p.schema.default = some value)
      (rest : Accounted fields ps ws) : Accounted (f :: fields) (p :: ps) ws
  | dropped {f : Field} {p : Parameter} {c : Constant} {fields ps ws}
      (stated : f.default = some c) (schema : p.schema.default = none)
      (rest : Accounted fields ps ws) :
      Accounted (f :: fields) (p :: ps) (.droppedDefault f.name f.type.name :: ws)

theorem defaultWarnings_cons (f : Field) (rest : List Field) :
    defaultWarnings (f :: rest) = (defaultWarning f).toList ++ defaultWarnings rest := by
  rw [defaultWarnings, List.filterMap_cons]
  cases defaultWarning f <;> rfl

theorem accounted (fields : List Field) :
    Accounted fields (queryParameters fields) (defaultWarnings fields) := by
  induction fields with
  | nil => exact .nil
  | cons f rest ih =>
      have schema : (queryParameter f).schema.default = fieldDefault f := rfl
      rw [defaultWarnings_cons]
      cases stated : f.default with
      | none =>
          have unshown : fieldDefault f = none := by rw [fieldDefault, stated, Option.bind_none]
          have silent : defaultWarning f = none := by simp [defaultWarning, stated]
          rw [silent]
          exact .absent stated (schema.trans unshown) ih
      | some c =>
          cases value : fieldDefault f with
          | none =>
              have told : defaultWarning f = some (.droppedDefault f.name f.type.name) := by
                simp [defaultWarning, stated, value]
              rw [told]
              exact .dropped stated (schema.trans value) ih
          | some shown =>
              have silent : defaultWarning f = none := by simp [defaultWarning, value]
              rw [silent]
              exact .shown stated (schema.trans value) ih

/-- No default is lost and none is counted twice. -/
theorem Accounted.count {fields : List Field} {ps : List Parameter} {ws : List Warning}
    (h : Accounted fields ps ws) :
    fields.countP (·.default.isSome) = ps.countP (·.schema.default.isSome) + ws.length := by
  induction h with
  | nil => rfl
  | absent stated schema rest ih => simpa [List.countP_cons, stated, schema] using ih
  | shown stated schema rest ih =>
      simp only [List.countP_cons, stated, schema, Option.isSome_some, if_true]
      omega
  | dropped stated schema rest ih =>
      simp only [List.countP_cons, stated, schema, Option.isSome_some, Option.isSome_none, if_true,
        Bool.false_eq_true, if_false, List.length_cons]
      omega

/-! ### Field after field -/

/-- Makes the parameters one after the other; each field adds its warning to what was said before
it. -/
def parametersAfter (said : List Warning) : List Field → List Parameter × List Warning
  | [] => ([], said)
  | f :: rest =>
    let (ps, all) := parametersAfter (said ++ (defaultWarning f).toList) rest
    (queryParameter f :: ps, all)

theorem parametersAfter_eq (said : List Warning) (fields : List Field) :
    parametersAfter said fields = (queryParameters fields, said ++ defaultWarnings fields) := by
  induction fields generalizing said with
  | nil => rw [parametersAfter, defaultWarnings, List.filterMap_nil, List.append_nil]; rfl
  | cons f rest ih =>
      rw [parametersAfter, ih, defaultWarnings_cons, List.append_assoc]
      rfl

/-- The parameters of some fields show them one by one, what was said before stays, and every
default is in the schema of its parameter or in one warning, in the order of the fields. -/
theorem parameters_account (said : List Warning) (fields : List Field) :
    parametersAfter said fields = (queryParameters fields, said ++ defaultWarnings fields) ∧
    List.Forall₂ Shows fields (queryParameters fields) ∧
    Accounted fields (queryParameters fields) (defaultWarnings fields) ∧
    fields.countP (·.default.isSome) =
      (queryParameters fields).countP (·.schema.default.isSome) +
        (defaultWarnings fields).length :=
  ⟨parametersAfter_eq said fields, shows_queryParameters fields, accounted fields,
    (accounted fields).count⟩

example :
    defaultWarnings
      [{ name := "loud", type := { name := "bool" }, default := some (.ofIdentifier "true") },
        { name := "times", type := { name := "i32" }, default := some (.ofInt 3) },
        { name := "quiet", type := { name := "bool" }, default := some (.ofInt 1) }] =
      [.droppedDefault "times" "i32", .droppedDefault "quiet" "bool"] := by decide

end ServiceDoc.Assembly
