import ServiceDoc.Proofs.Assembly.Claims

/-! The account of an assembly. What is left out of a document is said in its warnings: a report on
every bound function, made from the declarations and the functions before it alone. A warning names in
its words all that it is about. Slots that are filled and verbs that are reported as refused add up to
the verbs that were asked for. -/
namespace ServiceDoc.Assembly
open Idl OpenApi Http

/-- A field with a default whose parameter shows none. -/
def losesDefault (f : Field) : Bool :=
  f.default.isSome && (queryParameter f).schema.default.isNone

def argumentReport (i : Interface) (operation : String) : List Field → List Warning
  | [] => []
  | [argument] =>
    match argument.type.kind with
    | .named name =>
      match i.find name with
      | none => [.unknownArgument name operation]
      | some s => (s.fields.filter losesDefault).map fun f => .droppedDefault f.name f.type.name
    | _ => []
  | arguments => [.manyArguments operation arguments.length]

def returnReport (i : Interface) (t : TypeRef) : List Warning :=
  match t.kind with
  | .named name => if (i.find name).isNone then [.unknownReturn name] else []
  | _ => []

/-- The verbs of a binding that an earlier function claims on the same path, in slot order. -/
def refusedVerbs (earlier : List (Service × Function)) (b : Binding) : List Verb :=
  [.get, .post, .put, .delete, .options, .head, .patch].filter fun v => v ∈ b.method.verbs ∧ ∃ x ∈ earlier, Claims x.2 b.path v

def conflictReport (earlier : List (Service × Function)) (b : Binding) (operation : String) :
    List Warning :=
  if refusedVerbs earlier b = [] then []
  else [.alreadyBound (refusedVerbs earlier b) b.path operation]

def functionReport (i : Interface) (earlier : List (Service × Function)) (s : Service)
    (f : Function) : List Warning :=
  match bindingOf f with
  | none => []
  | some b =>
    argumentReport i (operationId s f) f.arguments ++ returnReport i f.returns ++
      conflictReport earlier b (operationId s f)

/-- The reports on functions that come one after the other. -/
def reports (i : Interface) (earlier : List (Service × Function)) :
    List (Service × Function) → List Warning
  | [] => []
  | (s, f) :: rest => functionReport i earlier s f ++ reports i (earlier ++ [(s, f)]) rest

def namespaceReport (settings : Settings) (i : Interface) : List Warning :=
  if i.namespaceFor settings.namespaceLanguage = none
  then [.noNamespace settings.namespaceLanguage] else []

theorem namespaceWarnings_eq (settings : Settings) (i : Interface) :
    namespaceWarnings settings i = namespaceReport settings i := by
  unfold namespaceWarnings namespaceName namespaceReport
  cases i.namespaceFor settings.namespaceLanguage <;> rfl

/-- What a type means, by the kind of its name. -/
theorem meaning_eq (i : Interface) (t : TypeRef) :
    meaning i t = match t.kind with
      | .named name => ((i.find name).map Meaning.defined).getD (.unknown name)
      | _ => .builtin := by
  unfold meaning
  cases t.kind with
  | named name =>
      simp only [Kind.name?]
      cases i.find name <;> rfl
  | _ => rfl

theorem defaultWarnings_eq (fields : List Field) :
    defaultWarnings fields =
      (fields.filter losesDefault).map fun f => .droppedDefault f.name f.type.name := by
  induction fields with
  | nil => rfl
  | cons f rest ih =>
      have same : defaultWarning f =
          if losesDefault f then some (.droppedDefault f.name f.type.name) else none := rfl
      simp only [defaultWarnings, List.filterMap_cons, List.filter_cons, same] at ih ⊢
      cases losesDefault f with
      | false => exact ih
      | true => exact congrArg _ ih

theorem argumentWarnings_eq (i : Interface) (operation : String) (arguments : List Field) :
    argumentWarnings i operation arguments = argumentReport i operation arguments := by
  match arguments with
  | [] => rfl
  | [argument] =>
      simp only [argumentWarnings, argumentReport, meaning_eq]
      cases argument.type.kind with
      | named name =>
          cases h : i.find name with
          | none => simp only [h, Option.map_none, Option.getD_none]
          | some s => simp only [h, Option.map_some, Option.getD_some, defaultWarnings_eq]
      | _ => rfl
  | _ :: _ :: _ => rfl

theorem returnWarnings_eq (i : Interface) (t : TypeRef) :
    returnWarnings i t = returnReport i t := by
  simp only [returnWarnings, returnReport, meaning_eq]
  cases t.kind with
  | named name => cases h : i.find name <;> simp [h]
  | _ => rfl

/-- The invariant of a run: the filled slots are those that the functions so far claim. -/
def FilledBy (paths : Paths) (earlier : List (Service × Function)) : Prop :=
  ∀ path v, (paths.slot path v).isSome = true ↔ ∃ x ∈ earlier, Claims x.2 path v

theorem filledBy_nil : FilledBy [] [] := by
  intro path v
  simp only [Paths.slot_nil, Option.isSome_none, Bool.false_eq_true, List.not_mem_nil, false_and,
    exists_false]

theorem FilledBy.placeFunction {paths : Paths} {earlier : List (Service × Function)}
    (h : FilledBy paths earlier) (i : Interface) (s : Service) (f : Function) :
    FilledBy (placeFunction i s paths f).paths (earlier ++ [(s, f)]) := by
  intro path v
  rw [slot_placeFunction, Option.isSome_or, Bool.or_eq_true, h path v]
  have own : (if Claims f path v then some (operationOf i s f) else none).isSome = true ↔
      Claims f path v := by
    split <;> simp_all
  rw [own]
  simp only [List.mem_append, List.mem_singleton, or_and_right, exists_or, exists_eq_left]

theorem FilledBy.taken_eq {paths : Paths} {earlier : List (Service × Function)}
    (h : FilledBy paths earlier) (b : Binding) (o : Operation) :
    paths.taken b.path (.serving b.method o) = refusedVerbs earlier b := by
  rw [Paths.taken_eq, refusedVerbs]
  refine List.filter_congr fun v _ => ?_
  rw [Bool.eq_iff_iff, Bool.and_eq_true, decide_eq_true_eq, h b.path v, PathItem.operation_serving,
    and_comm]
  refine and_congr_left fun _ => ?_
  split <;> simp_all

theorem conflictWarnings_eq (taken : List Verb) (path operation : String) :
    conflictWarnings taken path operation =
      if taken = [] then [] else [.alreadyBound taken path operation] := by
  cases taken <;> rfl

theorem filterMap_warning (ws : List Warning) :
    (ws.map Event.warning).filterMap Event.warning? = ws := by
  rw [List.filterMap_map]
  exact List.filterMap_some

theorem FilledBy.warnings_placeFunction {paths : Paths} {earlier : List (Service × Function)}
    (h : FilledBy paths earlier) (i : Interface) (s : Service) (f : Function) :
    (Assembly.placeFunction i s paths f).events.filterMap Event.warning? =
      functionReport i earlier s f := by
  unfold Assembly.placeFunction functionReport
  cases bindingOf f with
  | none => rfl
  | some b =>
      have id_eq : (operationOf i s f).id = operationId s f := rfl
      simp only [List.filterMap_append, filterMap_warning, h.taken_eq, conflictWarnings_eq, id_eq,
        List.filterMap_cons, Event.warning?, operationWarnings, argumentWarnings_eq,
        returnWarnings_eq, conflictReport]

/-- The events of a run over functions, whatever their services. -/
def placedEvents (i : Interface) : Paths → List (Service × Function) → List Event
  | _, [] => []
  | paths, (s, f) :: rest =>
    (placeFunction i s paths f).events ++ placedEvents i (placeFunction i s paths f).paths rest

theorem placedEvents_append (i : Interface) (paths : Paths) (xs ys : List (Service × Function)) :
    placedEvents i paths (xs ++ ys) =
      placedEvents i paths xs ++ placedEvents i (placed i paths xs) ys := by
  induction xs generalizing paths with
  | nil => rfl
  | cons x xs ih =>
      obtain ⟨s, f⟩ := x
      simp only [List.cons_append, placedEvents, placed, ih, List.append_assoc]

theorem placeFunctions_events (i : Interface) (s : Service) (paths : Paths) (fs : List Function) :
    (placeFunctions i s paths fs).events = placedEvents i paths (fs.map fun f => (s, f)) := by
  induction fs generalizing paths with
  | nil => rfl
  | cons f rest ih => exact congrArg _ (ih _)

theorem placeServices_events (i : Interface) (paths : Paths) (services : List Service) :
    (placeServices i paths services).events =
      placedEvents i paths (services.flatMap fun s => s.functions.map fun f => (s, f)) := by
  induction services generalizing paths with
  | nil => rfl
  | cons s rest ih =>
      rw [List.flatMap_cons, placedEvents_append, ← placeFunctions_paths, ← placeFunctions_events]
      exact congrArg _ (ih _)

theorem FilledBy.warnings_placed {paths : Paths} {earlier : List (Service × Function)}
    (h : FilledBy paths earlier) (i : Interface) (xs : List (Service × Function)) :
    (placedEvents i paths xs).filterMap Event.warning? = reports i earlier xs := by
  induction xs generalizing paths earlier with
  | nil => rfl
  | cons x rest ih =>
      obtain ⟨s, f⟩ := x
      rw [placedEvents, reports, List.filterMap_append, h.warnings_placeFunction,
        ih (h.placeFunction i s f)]

theorem warnings_eq_reports (settings : Settings) (i : Interface) :
    warnings settings i = namespaceReport settings i ++ reports i [] (declared i) := by
  rw [warnings, events, List.filterMap_append, filterMap_warning, namespaceWarnings_eq, assembled,
    placeServices_events]
  exact congrArg _ (filledBy_nil.warnings_placed i (declared i))

def verbWord : Verb → String
  | .get => "GET"
  | .post => "POST"
  | .put => "PUT"
  | .delete => "DELETE"
  | .options => "OPTIONS"
  | .head => "HEAD"
  | .patch => "PATCH"

/-- The words of a warning. -/
def Warning.words : Warning → String
  | .noNamespace language => s!"No {language} namespace found"
  | .manyArguments operation count =>
    s!"`{operation}` takes {count} arguments, only single-argument functions get query parameters"
  | .unknownArgument type operation =>
    s!"Argument type `{type}` of `{operation}` is not a known struct, no query parameters generated"
  | .droppedDefault field type =>
    s!"Default value of field `{field}` ({type}) is not supported and was dropped"
  | .unknownReturn type =>
    s!"Return type `{type}` is not a known struct, response schema left empty"
  | .alreadyBound verbs path operation =>
    let listed := ",".intercalate (verbs.map verbWord)
    s!"{listed} {path} is already bound, `{operation}` was dropped for those methods"

theorem name_eq_verbWord : Verb.name = verbWord := by
  funext v
  cases v <;> rfl

theorem message_eq_words (w : Warning) : w.message = w.words := by
  cases w with
  | alreadyBound verbs path operation =>
      unfold Warning.message
      rw [name_eq_verbWord]
      rfl
  | _ => rfl

/-- The verbs that a warning says were refused. -/
def Warning.refused : Warning → List Verb
  | .alreadyBound verbs _ _ => verbs
  | _ => []

/-- How many verbs some warnings list. -/
def refusals (ws : List Warning) : Nat := (ws.map fun w => w.refused.length).sum

/-- How many slots some functions ask for. -/
def asked (xs : List (Service × Function)) : Nat :=
  ((xs.filterMap fun x => bindingOf x.2).map fun b => b.method.verbs.length).sum

theorem refusals_append (ws us : List Warning) : refusals (ws ++ us) = refusals ws + refusals us := by
  simp only [refusals, List.map_append, List.sum_append]

theorem refusals_eq_zero {ws : List Warning} (h : ∀ w ∈ ws, w.refused = []) : refusals ws = 0 := by
  induction ws with
  | nil => rfl
  | cons w rest ih =>
      have first : w.refused = [] := h w List.mem_cons_self
      have others := ih fun u mem => h u (List.mem_cons_of_mem w mem)
      unfold refusals at others ⊢
      rw [List.map_cons, List.sum_cons, others, first, List.length_nil]

theorem refusals_argumentReport (i : Interface) (operation : String) (arguments : List Field) :
    refusals (argumentReport i operation arguments) = 0 := by
  refine refusals_eq_zero fun w mem => ?_
  unfold argumentReport at mem
  split at mem
  · cases mem
  · split at mem
    · split at mem
      · rw [List.mem_singleton.mp mem]
        rfl
      · obtain ⟨f, -, rfl⟩ := List.mem_map.mp mem
        rfl
    · cases mem
  · rw [List.mem_singleton.mp mem]
    rfl

theorem refusals_returnReport (i : Interface) (t : TypeRef) : refusals (returnReport i t) = 0 := by
  unfold returnReport
  split
  · split <;> rfl
  · rfl

theorem refusals_namespaceReport (settings : Settings) (i : Interface) :
    refusals (namespaceReport settings i) = 0 := by
  unfold namespaceReport
  split <;> rfl

theorem refusals_conflictReport (earlier : List (Service × Function)) (b : Binding)
    (operation : String) :
    refusals (conflictReport earlier b operation) = (refusedVerbs earlier b).length := by
  unfold conflictReport
  split
  next none_refused => rw [none_refused]; rfl
  next => rfl

/-- One step of the count: each verb that is asked for fills a slot or is refused. -/
theorem FilledBy.filled_placeFunction {paths : Paths} {earlier : List (Service × Function)}
    (h : FilledBy paths earlier) (i : Interface) (s : Service) (f : Function) :
    (Assembly.placeFunction i s paths f).paths.filled + refusals (functionReport i earlier s f) =
      paths.filled + asked [(s, f)] := by
  unfold Assembly.placeFunction functionReport asked
  cases bound : bindingOf f with
  | none => simp only [List.filterMap_cons, bound, List.filterMap_nil]; rfl
  | some b =>
      have counted := Paths.filled_add paths b.path (.serving b.method (operationOf i s f))
      rw [h.taken_eq, PathItem.verbs_serving] at counted
      simp only [List.filterMap_cons, bound, List.filterMap_nil, List.map_cons, List.map_nil,
        List.sum_cons, List.sum_nil, refusals_append, refusals_argumentReport,
        refusals_returnReport, refusals_conflictReport]
      omega

theorem asked_cons (x : Service × Function) (xs : List (Service × Function)) :
    asked (x :: xs) = asked [x] + asked xs := by
  unfold asked
  cases h : bindingOf x.2 <;> simp [h]

theorem FilledBy.filled_placed {paths : Paths} {earlier : List (Service × Function)}
    (h : FilledBy paths earlier) (i : Interface) (xs : List (Service × Function)) :
    (placed i paths xs).filled + refusals (reports i earlier xs) = paths.filled + asked xs := by
  induction xs generalizing paths earlier with
  | nil => rfl
  | cons x rest ih =>
      obtain ⟨s, f⟩ := x
      have first := h.filled_placeFunction i s f
      have others := ih (h.placeFunction i s f)
      rw [placed, reports, refusals_append, asked_cons]
      omega

/-- Nothing is dropped silently: the warnings are the namespace report and then, in the order of
declaration, the reports on the functions, each in its words; and every verb that is asked for fills a
slot of the document or is listed in a warning. -/
theorem warnings_account (settings : Settings) (i : Interface) :
    warnings settings i = namespaceReport settings i ++ reports i [] (declared i) ∧
    (warnings settings i).map Warning.message =
      (namespaceReport settings i ++ reports i [] (declared i)).map Warning.words ∧
    (document settings i).paths.filled +
        ((warnings settings i).map fun w => w.refused.length).sum =
      (((declared i).filterMap fun x => bindingOf x.2).map fun b => b.method.verbs.length).sum := by
  refine ⟨warnings_eq_reports settings i, ?_, ?_⟩
  · rw [warnings_eq_reports]
    exact List.map_congr_left fun w _ => message_eq_words w
  · have counted := filledBy_nil.filled_placed i (declared i)
    rw [Paths.filled_nil, Nat.zero_add] at counted
    change _ + refusals (warnings settings i) = asked (declared i)
    rw [warnings_eq_reports, refusals_append, refusals_namespaceReport, Nat.zero_add,
      document_paths, Paths.filled_sorted, assembled_paths]
    exact counted

end ServiceDoc.Assembly
