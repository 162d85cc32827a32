import ServiceDoc.CommandLine.Options

/-! A debug dump among the arguments stands for itself: what else a command line asks for does not
depend on it. A line with it and the line without it are read side by side. -/
namespace ServiceDoc.CommandLine

/-- Arguments with a debug dump somewhere among them, or the arguments as they are. -/
inductive AddsDump (arguments : List String) : List String → Prop where
  | none : AddsDump arguments arguments
  | next (before after : List String) (path : String) (h : arguments = before ++ after) :
    AddsDump arguments (before ++ "--debug-dump" :: path :: after)
  | attached (before after : List String) (path : String) (h : arguments = before ++ after) :
    AddsDump arguments (before ++ ("--debug-dump=" ++ path) :: after)

/-- Nothing is complained of. Help may be asked for. -/
def Accepted {α : Type} (x : Except Stop α) : Prop := ∀ s, x = .error s → s.isFailure = false

theorem accepted_ok {α : Type} (a : α) : Accepted (.ok a) := nofun

theorem not_accepted {α : Type} {s : Stop} (failure : s.isFailure = true) :
    ¬ Accepted (.error s : Except Stop α) := by
  intro accepted
  rw [accepted s rfl] at failure
  cases failure

namespace Options

/-- Options but for the debug dump. -/
def withoutDump (o : Options) : Options := { o with debugDump := none }

theorem get_withoutDump (o : Options) {f : Flag} (other : f ≠ .debugDump) :
    o.withoutDump.get f = o.get f := by
  cases f with
  | debugDump => exact absurd rfl other
  | _ => rfl

theorem withoutDump_set (o : Options) (value : String) {f : Flag} (other : f ≠ .debugDump) :
    (o.set value f).withoutDump = o.withoutDump.set value f := by
  cases f with
  | debugDump => exact absurd rfl other
  | _ => rfl

theorem debugDump_set (o : Options) (value : String) {f : Flag} (other : f ≠ .debugDump) :
    (o.set value f).debugDump = o.debugDump := by
  cases f with
  | debugDump => exact absurd rfl other
  | _ => rfl

/-- Options that say the same as others, and a debug dump besides. -/
structure Beyond (o p : Options) : Prop where
  same : o.withoutDump = p.withoutDump
  dumped : o.debugDump.isSome = true

end Options

namespace Reading

theorem take_eq_ok {o p : Options} {f : Flag} {value : String} :
    take o f value = .ok p ↔
      o.get f = none ∧ ¬ (f.isPath && value = "") = true ∧ o.set value f = p := by
  unfold take
  cases o.get f with
  | some _ => simp
  | none =>
      rw [Option.isSome_none, if_neg Bool.false_ne_true]
      split <;> simp [*]

theorem isFailure_of_take {o : Options} {f : Flag} {value : String} {s : Stop}
    (h : take o f value = .error s) : s.isFailure = true := by
  unfold take at h
  split at h
  · cases h
    rfl
  · split at h <;> cases h
    rfl

theorem isFailure_of_settle {r : Reading} {s : Stop} (h : r.settle = .error s) :
    s.isFailure = true := by
  unfold settle at h
  split at h
  · cases h
  · cases h
    rfl
  · exact isFailure_of_take h

theorem take_beyond {o p o' : Options} (h : o.Beyond p) {f : Flag} {value : String}
    (taken : take o f value = .ok o') : ∃ p', take p f value = .ok p' ∧ o'.Beyond p' := by
  obtain ⟨free, given, rfl⟩ := take_eq_ok.mp taken
  -- The dump is there already, and no flag is taken twice.
  have other : f ≠ .debugDump := by
    rintro rfl
    have dumped := h.dumped
    rw [show o.debugDump = none from free] at dumped
    cases dumped
  have same : p.get f = none := by
    rw [← p.get_withoutDump other, ← h.same, o.get_withoutDump other, free]
  refine ⟨p.set value f, take_eq_ok.mpr ⟨same, given, rfl⟩, ?_, ?_⟩
  · rw [o.withoutDump_set value other, p.withoutDump_set value other, h.same]
  · rw [o.debugDump_set value other, h.dumped]

/-- A reading that is as far as another, with a debug dump besides: when it settles so does the other,
and when it waits for a value the other waits for the same. -/
structure Beyond (r q : Reading) : Prop where
  settle : ∀ o, r.settle = .ok o → ∃ p, q.settle = .ok p ∧ o.Beyond p
  awaits : ∀ f, r.waiting = some (f, none) →
    q.waiting = some (f, none) ∧ r.options.Beyond q.options

/-- How two readings go on alike. -/
def Follows (x y : Except Stop Reading) : Prop :=
  (∀ r, x = .ok r → ∃ q, y = .ok q ∧ r.Beyond q) ∧
    ∀ s, x = .error s → s.isFailure = false → y = .error s

theorem follows_of_failure {x y : Except Stop Reading} {s : Stop} (h : x = .error s)
    (failure : s.isFailure = true) : Follows x y := by
  subst h
  refine ⟨fun r none => (by cases none), fun s' same accepted => ?_⟩
  cases same
  rw [failure] at accepted
  cases accepted

theorem Beyond.flag {r q : Reading} (h : r.Beyond q) (f : Flag) (attached : Option String) :
    Follows (r.flag f attached) (q.flag f attached) := by
  unfold Reading.flag
  cases settled : r.settle with
  | error s => exact follows_of_failure rfl (isFailure_of_settle settled)
  | ok o =>
      obtain ⟨p, other, beyond⟩ := h.settle o settled
      rw [other]
      cases attached with
      | none =>
          refine ⟨?_, fun s none => (by cases none)⟩
          rintro _ ⟨⟩
          refine ⟨_, rfl, fun o none => (by cases none), ?_⟩
          rintro g ⟨⟩
          exact ⟨rfl, beyond⟩
      | some value =>
          dsimp only [bind, Except.bind]
          cases taken : take o f value with
          | error s => exact follows_of_failure rfl (isFailure_of_take taken)
          | ok o' =>
              obtain ⟨p', taken', beyond'⟩ := take_beyond beyond taken
              rw [taken']
              refine ⟨?_, fun s none => (by cases none)⟩
              rintro _ ⟨⟩
              refine ⟨_, rfl, ?_, fun f none => (by cases none)⟩
              rintro _ ⟨⟩
              exact ⟨p', rfl, beyond'⟩

theorem Beyond.stop {r q : Reading} (h : r.Beyond q) (s : Stop) :
    Follows (r.stop s) (q.stop s) := by
  unfold Reading.stop
  cases settled : r.settle with
  | error s => exact follows_of_failure rfl (isFailure_of_settle settled)
  | ok o =>
      obtain ⟨p, other, -⟩ := h.settle o settled
      rw [other]
      refine ⟨fun r none => (by cases none), ?_⟩
      rintro _ ⟨⟩ _
      rfl

theorem Beyond.plain {r q : Reading} (h : r.Beyond q) (a : String) :
    Follows (r.plain a) (q.plain a) := by
  unfold Reading.plain
  split
  next f awaits =>
    obtain ⟨other, beyond⟩ := h.awaits f awaits
    rw [other]
    refine ⟨?_, fun s none => (by cases none)⟩
    rintro _ ⟨⟩
    refine ⟨_, rfl, fun o taken => take_beyond beyond taken, fun f none => (by cases none)⟩
  next => exact follows_of_failure rfl rfl

/-- What an argument is does not depend on what comes before it: a mistake, a flag, a question or a
value. -/
theorem argument_cases (a : String) :
    (∃ s, s.isFailure = true ∧ ∀ r : Reading, r.argument a = .error s) ∨
      (∃ f attached, ∀ r : Reading, r.argument a = r.flag f attached) ∨
      (∃ s, ∀ r : Reading, r.argument a = r.stop s) ∨ ∀ r : Reading, r.argument a = r.plain a := by
  unfold argument
  split
  next cs _ =>
    unfold long
    dsimp only
    split
    next f _ => exact .inr (.inl ⟨f, _, fun _ => rfl⟩)
    next =>
      split
      · exact .inl ⟨_, rfl, fun _ => rfl⟩
      · exact .inl ⟨_, rfl, fun _ => rfl⟩
      · exact .inr (.inr (.inl ⟨_, fun _ => rfl⟩))
  next c cs _ =>
    unfold short
    split
    next f _ => exact .inr (.inl ⟨f, _, fun _ => rfl⟩)
    next =>
      split
      · exact .inr (.inr (.inl ⟨_, fun _ => rfl⟩))
      · split
        · exact .inr (.inr (.inl ⟨_, fun _ => rfl⟩))
        · exact .inl ⟨_, rfl, fun _ => rfl⟩
  next => exact .inr (.inr (.inr fun _ => rfl))

theorem Beyond.argument {r q : Reading} (h : r.Beyond q) (a : String) :
    Follows (r.argument a) (q.argument a) := by
  rcases argument_cases a with ⟨s, failure, same⟩ | ⟨f, attached, same⟩ | ⟨s, same⟩ | same
  · exact follows_of_failure (same r) failure
  · rw [same r, same q]
    exact h.flag f attached
  · rw [same r, same q]
    exact h.stop s
  · rw [same r, same q]
    exact h.plain a

/-! ### Whole lines -/

theorem all_cons (r : Reading) {a : String} (named : a ≠ "--") (as : List String) :
    r.all (a :: as) = (r.argument a).bind fun q => q.all as := by
  rw [all.eq_def]
  exact if_neg named

/-- Readings that go on alike end alike. -/
theorem Beyond.all {r q : Reading} (h : r.Beyond q) {as : List String} (accepted : Accepted (r.all as)) :
    (r.all as).map Options.withoutDump = (q.all as).map Options.withoutDump := by
  have ends {r q : Reading} (h : r.Beyond q) (accepted : Accepted r.settle) :
      r.settle.map Options.withoutDump = q.settle.map Options.withoutDump := by
    cases settled : r.settle with
    | error s =>
        rw [settled] at accepted
        exact absurd accepted (not_accepted (isFailure_of_settle settled))
    | ok o =>
        obtain ⟨p, other, beyond⟩ := h.settle o settled
        rw [other]
        exact congrArg Except.ok beyond.same
  induction as generalizing r q with
  | nil => exact ends h accepted
  | cons a as ih =>
      by_cases named : a = "--"
      · subst named
        cases as with
        | nil => exact ends h accepted
        | cons b rest => exact absurd accepted (not_accepted rfl)
      · rw [all_cons r named] at accepted ⊢
        rw [all_cons q named]
        obtain ⟨going, ending⟩ := h.argument a
        cases next : r.argument a with
        | error s =>
            rw [next] at accepted
            rw [ending s next (accepted s rfl)]
        | ok r' =>
            obtain ⟨q', next', beyond⟩ := going r' next
            rw [next] at accepted
            rw [next']
            exact ih beyond accepted

/-- What comes first is read first. -/
theorem map_all_append {as bs : List String} (some : as ≠ [])
    (same : ∀ r : Reading, Accepted (r.all as) →
      (r.all as).map Options.withoutDump = (r.all bs).map Options.withoutDump)
    (before : List String) (r : Reading) (accepted : Accepted (r.all (before ++ as))) :
    (r.all (before ++ as)).map Options.withoutDump =
      (r.all (before ++ bs)).map Options.withoutDump := by
  induction before generalizing r with
  | nil => exact same r accepted
  | cons a rest ih =>
      rw [List.cons_append] at accepted ⊢
      by_cases named : a = "--"
      · subst named
        -- Nothing may follow two dashes, but the dump does.
        cases shape : rest ++ as with
        | nil => exact absurd (List.append_eq_nil_iff.mp shape).2 some
        | cons b others =>
            rw [shape] at accepted
            exact absurd accepted (not_accepted rfl)
      · rw [all_cons r named] at accepted ⊢
        rw [List.cons_append, all_cons r named]
        cases next : r.argument a with
        | error s => rfl
        | ok q =>
            rw [next] at accepted
            exact ih q accepted

/-- With a flag that waits for its value, nothing but the value is taken. -/
theorem argument_of_awaiting {r : Reading} {f : Flag} (awaits : r.waiting = some (f, none))
    (a : String) :
    r.argument a = .ok { r with waiting := some (f, some a) } ∨
      ∃ s, r.argument a = .error s ∧ s.isFailure = true := by
  have unsettled : r.settle = .error (.valueMissing f) := by rw [settle, awaits]
  rcases argument_cases a with ⟨s, failure, same⟩ | ⟨g, attached, same⟩ | ⟨s, same⟩ | same
  · exact .inr ⟨s, same r, failure⟩
  · refine .inr ⟨.valueMissing f, ?_, rfl⟩
    rw [same, flag, unsettled]
    rfl
  · refine .inr ⟨.valueMissing f, ?_, rfl⟩
    rw [same, stop, unsettled]
    rfl
  · left
    rw [same, plain, awaits]

/-- A reading that has taken a dump, or is about to, is beyond the one without it. -/
theorem beyond_of_dump {r q : Reading} {o : Options} (path : String) (settled : r.settle = .ok o)
    (ready : ∀ f, q.waiting ≠ some (f, none))
    (taken : ∀ p, q.settle = .ok p → take o .debugDump path = .ok p) : q.Beyond r where
  settle p ends := by
    obtain ⟨-, -, rfl⟩ := take_eq_ok.mp (taken p ends)
    exact ⟨o, settled, rfl, rfl⟩
  awaits f waiting := absurd waiting (ready f)

theorem argument_debugDump (r : Reading) : r.argument "--debug-dump" = r.flag .debugDump none := rfl

theorem argument_attached (r : Reading) (path : String) :
    r.argument ("--debug-dump=" ++ path) = r.flag .debugDump (some path) := by
  have shape : ("--debug-dump=" ++ path).toList =
      '-' :: '-' :: ("debug-dump".toList ++ '=' :: path.toList) := by
    rw [String.toList_append]
    rfl
  have plain : "debug-dump".toList.all (· != '=') = true := by decide
  have name := List.all_eq_true.mp plain
  have found : Flag.all.find? (fun f => f.long = "debug-dump") = some .debugDump := by decide
  unfold argument
  rw [shape]
  change r.long ("debug-dump".toList ++ '=' :: path.toList) = _
  unfold long
  rw [List.takeWhile_append_of_pos name, List.dropWhile_append_of_pos name,
    List.takeWhile_cons_of_neg (by decide), List.dropWhile_cons_of_neg (by decide), List.append_nil,
    String.ofList_toList]
  dsimp only
  rw [found, String.ofList_toList]

/-- A dump in two arguments makes no difference but for itself. -/
theorem map_all_debugDump (r : Reading) (path : String) (after : List String)
    (accepted : Accepted (r.all ("--debug-dump" :: path :: after))) :
    (r.all ("--debug-dump" :: path :: after)).map Options.withoutDump =
      (r.all after).map Options.withoutDump := by
  rw [all_cons r (by decide), argument_debugDump, flag] at accepted ⊢
  cases settled : r.settle with
  | error s =>
      rw [settled] at accepted
      exact absurd accepted (not_accepted (isFailure_of_settle settled))
  | ok o =>
      let q (value : Option String) : Reading := { options := o, waiting := some (.debugDump, value) }
      rw [settled] at accepted
      change Accepted ((q none).all (path :: after)) at accepted
      change ((q none).all (path :: after)).map _ = _
      by_cases named : path = "--"
      · subst named
        cases after with
        | nil => exact absurd accepted (not_accepted rfl)
        | cons b rest => exact absurd accepted (not_accepted rfl)
      · rw [all_cons _ named] at accepted ⊢
        rcases argument_of_awaiting (r := q none) rfl path with found | ⟨s, found, failure⟩
        · have beyond : (q (some path)).Beyond r :=
            beyond_of_dump path settled (fun f => nofun) fun p ends => ends
          rw [found] at accepted ⊢
          exact beyond.all accepted
        · rw [found] at accepted
          exact absurd accepted (not_accepted failure)

/-- Neither does one in a single argument. -/
theorem map_all_attached (r : Reading) (path : String) (after : List String)
    (accepted : Accepted (r.all (("--debug-dump=" ++ path) :: after))) :
    (r.all (("--debug-dump=" ++ path) :: after)).map Options.withoutDump =
      (r.all after).map Options.withoutDump := by
  have named : "--debug-dump=" ++ path ≠ "--" := by
    intro same
    have letters := congrArg String.toList same
    rw [String.toList_append] at letters
    cases letters
  rw [all_cons r named, argument_attached, flag] at accepted ⊢
  cases settled : r.settle with
  | error s =>
      rw [settled] at accepted
      exact absurd accepted (not_accepted (isFailure_of_settle settled))
  | ok o =>
      rw [settled] at accepted
      dsimp only [bind, Except.bind] at accepted ⊢
      cases taken : take o .debugDump path with
      | error s =>
          rw [taken] at accepted
          exact absurd accepted (not_accepted (isFailure_of_take taken))
      | ok p =>
          rw [taken] at accepted
          have beyond : { options := p : Reading }.Beyond r :=
            beyond_of_dump path settled (fun f => nofun) fun p' ends => ends ▸ taken
          exact beyond.all accepted

end Reading

/-- What a line asks for but a debug dump is what it asks for without it. -/
theorem read_addsDump {arguments more : List String} (h : AddsDump arguments more)
    (accepted : Accepted (Options.read more)) :
    (Options.read more).map Options.withoutDump = (Options.read arguments).map Options.withoutDump := by
  cases h with
  | none => rfl
  | next before after path same =>
      subst same
      exact Reading.map_all_append (List.cons_ne_nil _ _)
        (fun r => r.map_all_debugDump path after) before {} accepted
  | attached before after path same =>
      subst same
      exact Reading.map_all_append (List.cons_ne_nil _ _)
        (fun r => r.map_all_attached path after) before {} accepted

end ServiceDoc.CommandLine
