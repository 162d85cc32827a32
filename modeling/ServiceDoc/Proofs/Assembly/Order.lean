import ServiceDoc.Proofs.Assembly.Account

/-! Orders. A bound function orders an operation on a path. Paths, tags and warnings of an assembly
come from the orders alone; all else is only in its notes on functions. -/
namespace ServiceDoc.Assembly
open Idl OpenApi Http

structure Order where
  binding : Binding
  operation : Operation
  warnings : List Warning

def orderOf (i : Interface) (s : Service) (f : Function) : Option Order :=
  (bindingOf f).map fun b => ⟨b, operationOf i s f, operationWarnings i s f⟩

def placeOrder (paths : Paths) (o : Order) : Placed :=
  let item := PathItem.serving o.binding.method o.operation
  let taken := paths.taken o.binding.path item
  { paths := paths.add o.binding.path item
    events := o.warnings.map .warning ++
      (conflictWarnings taken o.binding.path o.operation.id).map .warning
    served := taken.length < o.binding.method.verbs.length }

def placeOrders (paths : Paths) : List Order → Placed
  | [] => { paths }
  | o :: rest =>
    let first := placeOrder paths o
    let others := placeOrders first.paths rest
    { paths := others.paths
      events := first.events ++ others.events
      served := first.served || others.served }

/-- The orders of a service, with the tag that they bring. -/
structure Batch where
  tag : Tag
  orders : List Order

/-- A service without a bound function has none. -/
def batchOf (i : Interface) (s : Service) : Option Batch :=
  match s.functions.filterMap (orderOf i s) with
  | [] => none
  | orders => some ⟨tagOf s, orders⟩

def placeBatches (paths : Paths) : List Batch → Assembled
  | [] => { paths }
  | b :: rest =>
    let first := placeOrders paths b.orders
    let others := placeBatches first.paths rest
    { paths := others.paths
      tags := if first.served then b.tag :: others.tags else others.tags
      events := first.events ++ others.events }

def isWarning (e : Event) : Bool := e.warning?.isSome

theorem filter_isWarning_map (ws : List Warning) :
    (ws.map Event.warning).filter isWarning = ws.map .warning := by
  refine List.filter_eq_self.mpr fun e mem => ?_
  obtain ⟨w, -, rfl⟩ := List.mem_map.mp mem
  rfl

theorem filterMap_filter_isWarning (es : List Event) :
    (es.filter isWarning).filterMap Event.warning? = es.filterMap Event.warning? := by
  rw [List.filterMap_filter]
  refine List.filterMap_congr fun e _ => ?_
  cases e <;> rfl

/-- A placement without its notes. -/
def Placed.plain (p : Placed) : Placed := { p with events := p.events.filter isWarning }

def Assembled.plain (a : Assembled) : Assembled := { a with events := a.events.filter isWarning }

theorem placeFunction_of_order {i : Interface} {s : Service} {f : Function} {o : Order}
    (h : orderOf i s f = some o) (paths : Paths) :
    (placeFunction i s paths f).plain = placeOrder paths o := by
  obtain ⟨b, bound, rfl⟩ := Option.map_eq_some_iff.mp h
  simp only [placeFunction, bound, Placed.plain, placeOrder, List.filter_append,
    filter_isWarning_map]
  exact congrArg (fun es => Placed.mk _ (_ ++ es) _) (filter_isWarning_map _)

theorem placeFunction_of_none {i : Interface} {s : Service} {f : Function}
    (h : orderOf i s f = none) (paths : Paths) :
    (placeFunction i s paths f).plain = { paths } := by
  have unbound : bindingOf f = none := Option.map_eq_none_iff.mp h
  simp only [placeFunction, unbound]
  rfl

theorem placeFunctions_cons_plain (i : Interface) (s : Service) (paths : Paths) (f : Function)
    (rest : List Function) :
    let first := (placeFunction i s paths f).plain
    let others := (placeFunctions i s first.paths rest).plain
    (placeFunctions i s paths (f :: rest)).plain =
      { paths := others.paths
        events := first.events ++ others.events
        served := first.served || others.served } := by
  simp only [placeFunctions, Placed.plain, List.filter_append]

/-- Functions are placed as their orders are. -/
theorem placeFunctions_plain (i : Interface) (s : Service) (paths : Paths) (fs : List Function) :
    (placeFunctions i s paths fs).plain = placeOrders paths (fs.filterMap (orderOf i s)) := by
  induction fs generalizing paths with
  | nil => rfl
  | cons f rest ih =>
      rw [placeFunctions_cons_plain, ih]
      cases h : orderOf i s f with
      | none =>
          rw [List.filterMap_cons_none h, placeFunction_of_none h]
          rfl
      | some o =>
          rw [List.filterMap_cons_some h, placeFunction_of_order h]
          rfl

theorem placeServices_cons_plain (i : Interface) (paths : Paths) (s : Service)
    (rest : List Service) :
    let first := (placeFunctions i s paths s.functions).plain
    let others := (placeServices i first.paths rest).plain
    (placeServices i paths (s :: rest)).plain =
      { paths := others.paths
        tags := if first.served then tagOf s :: others.tags else others.tags
        events := first.events ++ others.events } := by
  simp only [placeServices, Placed.plain, Assembled.plain, List.filter_append]
  rfl

/-- Services are placed as the batches of their orders are. -/
theorem placeServices_plain (i : Interface) (paths : Paths) (services : List Service) :
    (placeServices i paths services).plain =
      placeBatches paths (services.filterMap (batchOf i)) := by
  induction services generalizing paths with
  | nil => rfl
  | cons s rest ih =>
      rw [placeServices_cons_plain, ih, placeFunctions_plain]
      cases h : s.functions.filterMap (orderOf i s) with
      | nil =>
          rw [List.filterMap_cons_none (by rw [batchOf, h])]
          rfl
      | cons o others =>
          rw [List.filterMap_cons_some (b := ⟨tagOf s, o :: others⟩) (by rw [batchOf, h])]
          rfl

/-- Interfaces with the same batches and the same namespace have the same document and warnings. -/
theorem document_of_batches {settings : Settings} {i j : Interface}
    (namespaces : namespaceName settings i = namespaceName settings j)
    (batches : i.services.filterMap (batchOf i) = j.services.filterMap (batchOf j)) :
    document settings i = document settings j ∧ warnings settings i = warnings settings j := by
  have plain : (assembled i).plain = (assembled j).plain := by
    rw [assembled, assembled, placeServices_plain, placeServices_plain, batches]
  have paths : (assembled i).paths = (assembled j).paths :=
    (congrArg Assembled.paths plain :)
  have tags : (assembled i).tags = (assembled j).tags := (congrArg Assembled.tags plain :)
  have said : (assembled i).events.filterMap Event.warning? =
      (assembled j).events.filterMap Event.warning? := by
    rw [← filterMap_filter_isWarning, ← filterMap_filter_isWarning (assembled j).events]
    exact congrArg (fun a => a.events.filterMap Event.warning?) plain
  constructor
  · simp only [document, paths, tags, infoOf, namespaces]
  · rw [warnings, warnings, events, events, List.filterMap_append, List.filterMap_append, said,
      namespaceWarnings, namespaceWarnings, namespaces]

end ServiceDoc.Assembly
