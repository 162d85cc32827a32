import ServiceDoc.Generation
import ServiceDoc.Proofs.Assembly.Account

/-! The story of a generation as its log tells it: of every function, in the order of declaration,
one note and around it what there was to warn of. Warnings are logged where they arise, so the log
holds those of the delivery, all of them and in their order. -/
namespace ServiceDoc
namespace Assembly
open Idl OpenApi Http

/-- How a warning is logged. -/
def warningLine (message : String) : Log.Line := ⟨.warn, "thrift_openapi::error", message, []⟩

/-- How it is logged what became of a function. -/
def noteLine (message : String) (fields : List (String × String)) : Log.Line :=
  ⟨.debug, "thrift_openapi::builder", message, fields⟩

def methodWord : Method → String
  | .one verb => verbWord verb
  | .any => "ANY"

/-- What is said of a function, given the functions before it. Refusals are known only once the
operation is placed, so they come last. -/
def functionStory (i : Interface) (earlier : List (Service × Function)) (s : Service)
    (f : Function) : List Log.Line :=
  let warned (ws : List Warning) := ws.map fun w => warningLine w.words
  match bindingOf f with
  | none => [noteLine "no HTTP binding, skipping" [("service", s.name), ("function", f.name)]]
  | some b =>
    let operation := operationId s f
    let method := methodWord b.method
    warned (argumentReport i operation f.arguments) ++ warned (returnReport i f.returns) ++
      noteLine "adding operation"
        [("operation_id", operation), ("method", s!"\"{method}\""), ("path", b.path)] ::
      warned (conflictReport earlier b operation)

/-- The stories of functions that come one after the other. -/
def story (i : Interface) (earlier : List (Service × Function)) :
    List (Service × Function) → List Log.Line
  | [] => []
  | (s, f) :: rest => functionStory i earlier s f ++ story i (earlier ++ [(s, f)]) rest

theorem map_line_warning (ws : List Warning) :
    (ws.map Event.warning).map Event.line = ws.map fun w => warningLine w.words := by
  rw [List.map_map]
  exact List.map_congr_left fun w _ => congrArg warningLine (message_eq_words w)

theorem name_eq_methodWord (m : Method) : m.name = methodWord m := by
  cases m with
  | any => rfl
  | one verb => exact congrFun name_eq_verbWord verb

/-- Placing a function tells its story. -/
theorem FilledBy.lines_placeFunction {paths : Paths} {earlier : List (Service × Function)}
    (h : FilledBy paths earlier) (i : Interface) (s : Service) (f : Function) :
    (Assembly.placeFunction i s paths f).events.map Event.line = functionStory i earlier s f := by
  unfold Assembly.placeFunction functionStory
  cases bindingOf f with
  | none => rfl
  | some b =>
      have id_eq : (operationOf i s f).id = operationId s f := rfl
      simp only [id_eq, h.taken_eq, conflictWarnings_eq, conflictReport, operationWarnings,
        argumentWarnings_eq, returnWarnings_eq, List.map_append, List.map_cons, map_line_warning,
        Event.line, name_eq_methodWord]
      rfl

theorem FilledBy.lines_placed {paths : Paths} {earlier : List (Service × Function)}
    (h : FilledBy paths earlier) (i : Interface) (xs : List (Service × Function)) :
    (placedEvents i paths xs).map Event.line = story i earlier xs := by
  induction xs generalizing paths earlier with
  | nil => rfl
  | cons x rest ih =>
      obtain ⟨s, f⟩ := x
      rw [placedEvents, story, List.map_append, h.lines_placeFunction, ih (h.placeFunction i s f)]

theorem generationLog_eq_story (settings : Settings) (request : Idl.Request) :
    generationLog settings request =
      ((namespaceReport settings request.interface).map fun w => warningLine w.words) ++
        story request.interface [] (declared request.interface) := by
  rw [generationLog, events, namespaceWarnings_eq, assembled, placeServices_events, List.map_append,
    map_line_warning, filledBy_nil.lines_placed]
  rfl

theorem debug_lines_warned (ws : List Warning) :
    (ws.map fun w => warningLine w.words).filter (fun l => l.level = .debug) = [] := by
  rw [List.filter_eq_nil_iff]
  intro l member
  obtain ⟨w, -, rfl⟩ := List.mem_map.mp member
  exact of_decide_eq_false rfl

theorem debug_lines_functionStory (i : Interface) (earlier : List (Service × Function)) (s : Service)
    (f : Function) :
    ((functionStory i earlier s f).filter fun l => l.level = .debug).length = 1 := by
  unfold functionStory
  cases bindingOf f with
  | none => rfl
  | some b =>
      simp only [List.filter_append, List.filter_cons, debug_lines_warned, List.nil_append]
      rfl

theorem debug_lines_story (i : Interface) (earlier xs : List (Service × Function)) :
    ((story i earlier xs).filter fun l => l.level = .debug).length = xs.length := by
  induction xs generalizing earlier with
  | nil => rfl
  | cons x rest ih =>
      obtain ⟨s, f⟩ := x
      rw [story, List.filter_append, List.length_append, debug_lines_functionStory, ih,
        List.length_cons, Nat.add_comm]

theorem filter_warn_lines (es : List Event) :
    (es.map Event.line).filter (fun l => l.level = .warn) =
      ((es.filterMap Event.warning?).map Warning.message).map warningLine := by
  induction es with
  | nil => rfl
  | cons e rest ih =>
      simp only [List.map_cons, List.filter_cons, List.filterMap_cons, ih]
      cases e <;> rfl

end Assembly

open Assembly

/-- The log and the delivery tell the same story: the log is the namespace warning, if any, and then
what there is to say of each function; its warnings are those of the delivery, in the same order,
and its other lines are one for each function. -/
theorem log_tells_story (settings : Settings) (request : Idl.Request) :
    generationLog settings request =
      ((namespaceReport settings request.interface).map fun w => warningLine w.words) ++
        story request.interface [] (declared request.interface) ∧
    (generationLog settings request).filter (fun l => l.level = .warn) =
      (generate settings request).warnings.map warningLine ∧
    ((generationLog settings request).filter fun l => l.level = .debug).length =
      (request.interface.services.map fun s => s.functions.length).sum := by
  refine ⟨generationLog_eq_story settings request,
    filter_warn_lines (events settings request.interface), ?_⟩
  have functions : (declared request.interface).length =
      (request.interface.services.map fun s => s.functions.length).sum := by
    simp only [declared, List.length_flatMap, List.length_map]
  rw [generationLog_eq_story, List.filter_append, debug_lines_warned, List.nil_append,
    debug_lines_story, functions]

end ServiceDoc
