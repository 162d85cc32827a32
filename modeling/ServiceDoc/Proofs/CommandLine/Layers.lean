import ServiceDoc.Proofs.CommandLine.Program
import ServiceDoc.Proofs.Toml.Keys

/-! Layers of settings. A flag is over what a file says, and that is over the default, for each setting
by itself. A file is looked into by the names of settings only, so neither what else it holds nor the
order of its keys makes a difference. -/
namespace ServiceDoc.Toml.Entries

open OpenApi (Table)

variable {es fs : Entries}

theorem lookup_eq_some_iff (distinct : es.Distinct) {key : String} {item : Item} :
    es.lookup key = some item ↔ (key, item) ∈ es :=
  ⟨Table.mem_of_get?, Table.get?_of_mem distinct⟩

/-- Where only some keys are looked up, only these and not their order count. -/
theorem lookup_eq_of_perm_filter {wanted : String × Item → Bool} (distinct : es.Distinct)
    (distinct' : fs.Distinct) (same : (es.filter wanted).Perm (fs.filter wanted)) {key : String}
    (looked : ∀ item, wanted (key, item) = true) : es.lookup key = fs.lookup key := by
  ext item
  have member := same.mem_iff (a := (key, item))
  simp only [List.mem_filter, looked, and_true] at member
  rw [lookup_eq_some_iff distinct, lookup_eq_some_iff distinct', member]

end ServiceDoc.Toml.Entries

namespace ServiceDoc.Layer

/-- The keys that name a setting. -/
def settingKeys : List String :=
  ["output_filename", "namespace_language", "openapi_version", "api_version", "debug_dump"]

/-- Every setting that a table says is a text. -/
def Readable (es : Toml.Entries) : Prop :=
  ∀ key ∈ settingKeys, ∀ item, es.lookup key = some item → ∃ s, item = .text s

/-- The text that a table has at a key. -/
def said (es : Toml.Entries) (key : String) : Option String :=
  match es.lookup key with
  | some (.text s) => some s
  | _ => none

theorem said_eq_some_iff {es : Toml.Entries} {key s : String} :
    said es key = some s ↔ es.lookup key = some (.text s) := by
  unfold said
  split
  next found => simp [found]
  next other => exact iff_of_false nofun (other s)

theorem textAt?_eq_some_iff {es : Toml.Entries} {key : String} {text : Option String} :
    textAt? es key = some text ↔
      (∀ item, es.lookup key = some item → ∃ s, item = .text s) ∧ said es key = text := by
  unfold textAt? said
  split
  next absent => simp [absent]
  next s found => simp [found]
  next item other found =>
    refine iff_of_false nofun fun ⟨texts, _⟩ => ?_
    obtain ⟨s, rfl⟩ := texts item found
    exact other s rfl

/-- A table gives a layer if every setting that it says is a text. -/
theorem ofEntries?_eq_some_iff {es : Toml.Entries} {l : Layer} :
    ofEntries? es = some l ↔ Readable es ∧
      l = { outputFilename := said es "output_filename"
            namespaceLanguage := said es "namespace_language"
            openapiVersion := said es "openapi_version"
            apiVersion := said es "api_version"
            debugDump := said es "debug_dump" } := by
  simp only [ofEntries?, bind, Option.bind_eq_some_iff, textAt?_eq_some_iff, pure,
    Option.some.injEq, Readable, settingKeys, List.forall_mem_cons, List.not_mem_nil,
    false_implies, implies_true, and_true]
  constructor
  · rintro ⟨_, ⟨a, rfl⟩, _, ⟨b, rfl⟩, _, ⟨c, rfl⟩, _, ⟨d, rfl⟩, _, ⟨e, rfl⟩, rfl⟩
    exact ⟨⟨a, b, c, d, e⟩, rfl⟩
  · rintro ⟨⟨a, b, c, d, e⟩, rfl⟩
    exact ⟨_, ⟨a, rfl⟩, _, ⟨b, rfl⟩, _, ⟨c, rfl⟩, _, ⟨d, rfl⟩, _, ⟨e, rfl⟩, rfl⟩

/-- Whether an entry of a table names a setting. -/
def names (entry : String × Toml.Item) : Bool := settingKeys.contains entry.1

theorem ofEntries?_congr {es fs : Toml.Entries}
    (same : ∀ key ∈ settingKeys, es.lookup key = fs.lookup key) : ofEntries? es = ofEntries? fs := by
  simp only [settingKeys, List.forall_mem_cons] at same
  obtain ⟨a, b, c, d, e, -⟩ := same
  simp only [ofEntries?, textAt?, a, b, c, d, e]

end ServiceDoc.Layer

namespace ServiceDoc.CommandLine

open Files (Tree)

/-- A path leads to a text that stands for a table. -/
def Holds (t : Tree) (path : String) (es : Toml.Entries) : Prop :=
  ∃ content text, t.read path = .ok content ∧ String.fromUTF8? content = some text ∧
    Toml.read text = some es

variable {t u : Tree} {o : Options} {path : String} {es fs : Toml.Entries}

theorem Holds.unique (h : Holds t path es) (other : Holds t path fs) : es = fs := by
  obtain ⟨content, text, read, decoded, table⟩ := h
  obtain ⟨content', text', read', decoded', table'⟩ := other
  cases read.symm.trans read'
  cases decoded.symm.trans decoded'
  exact Option.some.inj (table.symm.trans table')

theorem Holds.distinct (h : Holds t path es) : es.Distinct := by
  obtain ⟨_, _, -, -, table⟩ := h
  exact Toml.distinct_of_read table

theorem settingsIn_of_no_config (none : o.config = none) :
    settingsIn t o = .ok (o.layer.apply {}) := by
  rw [settingsIn, none]

theorem settingsIn_of_config (given : o.config = some path) :
    settingsIn t o =
      match textAt t path with
      | none => .error (.configUnread path)
      | some text =>
        match Layer.read text with
        | none => .error (.configRefused path)
        | some file => .ok (o.layer.apply (file.apply {})) := by
  unfold settingsIn
  generalize o.config = config at given ⊢
  subst given
  rfl

/-- A file that holds a table gives the layer of the table, or is refused if that has none. -/
theorem settingsIn_of_holds (given : o.config = some path) (holds : Holds t path es) :
    settingsIn t o =
      match Layer.ofEntries? es with
      | none => .error (.configRefused path)
      | some file => .ok (o.layer.apply (file.apply {})) := by
  obtain ⟨content, text, read, decoded, table⟩ := holds
  rw [settingsIn_of_config given, textAt, read]
  simp only [Except.toOption, Option.bind_some, decoded, Layer.read, table, bind]

/-- No settings come from a file that holds no table. -/
theorem settingsIn_of_not_holds (given : o.config = some path) (not : ¬ ∃ es, Holds t path es) :
    ∃ f, settingsIn t o = .error f := by
  rw [settingsIn_of_config given, textAt]
  cases read : t.read path with
  | error p => exact ⟨_, rfl⟩
  | ok content =>
      simp only [Except.toOption, Option.bind_some]
      cases decoded : String.fromUTF8? content with
      | none => exact ⟨_, rfl⟩
      | some text =>
          cases table : Toml.read text with
          | none => exact ⟨_, by simp only [Layer.read, table, bind, Option.bind_none]; rfl⟩
          | some es => exact absurd ⟨es, content, text, read, decoded, table⟩ not

theorem settingsIn_fails_iff (t : Tree) (o : Options) :
    (∃ f, settingsIn t o = .error f) ↔
      ∃ path, o.config = some path ∧ ¬ ∃ es, Holds t path es ∧ Layer.Readable es := by
  cases given : o.config with
  | none => simp [settingsIn_of_no_config given]
  | some path =>
      simp only [Option.some.injEq, exists_eq_left']
      by_cases holding : ∃ es, Holds t path es
      · obtain ⟨es, holds⟩ := holding
        rw [settingsIn_of_holds given holds]
        cases layer : Layer.ofEntries? es with
        | none =>
            refine iff_of_true ⟨_, rfl⟩ fun ⟨fs, other, readable⟩ => ?_
            rw [holds.unique other, Layer.ofEntries?_eq_some_iff.mpr ⟨readable, rfl⟩] at layer
            cases layer
        | some file =>
            refine iff_of_false nofun (not_not_intro ⟨es, holds, ?_⟩)
            exact (Layer.ofEntries?_eq_some_iff.mp layer).1
      · refine iff_of_true (settingsIn_of_not_holds given holding) fun ⟨es, holds, _⟩ => ?_
        exact holding ⟨es, holds⟩

/-- Settings of a file that is taken: flags over what its table says, over defaults. -/
theorem settingsIn_eq_ok {s : Settings} (given : o.config = some path)
    (loaded : settingsIn t o = .ok s) :
    ∃ es, Holds t path es ∧ ∃ file, Layer.ofEntries? es = some file ∧
      s = o.layer.apply (file.apply {}) := by
  by_cases holding : ∃ es, Holds t path es
  · obtain ⟨es, holds⟩ := holding
    rw [settingsIn_of_holds given holds] at loaded
    cases layer : Layer.ofEntries? es with
    | none =>
        rw [layer] at loaded
        cases loaded
    | some file =>
        rw [layer] at loaded
        exact ⟨es, holds, file, layer, (Except.ok.inj loaded).symm⟩
  · obtain ⟨f, failed⟩ := settingsIn_of_not_holds given holding
    rw [failed] at loaded
    cases loaded

/-- The settings that a program loads are those its options give in the tree, and the tree stays as it
is. They fail to load exactly if a file is named that cannot be read as text or does not stand for
a table whose settings are texts. Else each setting that has a flag is the flag's value if it is given,
else what the file says, else the default, and each of the other two is what the file says or the
default. What else a file holds, and the order of its keys, changes nothing. -/
theorem settings_of_layers (t : Tree) (o : Options) :
    (loadSettings o : StateM Tree _).run t = (settingsIn t o, t) ∧
    ((∃ f, settingsIn t o = .error f) ↔
      ∃ path, o.config = some path ∧ ¬ ∃ es, Holds t path es ∧ Layer.Readable es) ∧
    (∀ s, settingsIn t o = .ok s →
      ∃ file : String → Option String,
        (o.config = none → ∀ key, file key = none) ∧
        (∀ path, o.config = some path → ∃ es, Holds t path es ∧
          ∀ key text, file key = some text ↔ es.lookup key = some (.text text)) ∧
        s.outputFilename = (o.outputFilename.or (file "output_filename")).getD "openapi.yaml" ∧
        s.namespaceLanguage = (o.namespaceLanguage.or (file "namespace_language")).getD "go" ∧
        s.debugDump = o.debugDump.or (file "debug_dump") ∧
        s.openapiVersion = (file "openapi_version").getD "3.0.3" ∧
        s.apiVersion = (file "api_version").getD "0.0.1") ∧
    ∀ u path es fs, o.config = some path → Holds t path es → Holds u path fs →
      (es.filter Layer.names).Perm (fs.filter Layer.names) → settingsIn u o = settingsIn t o := by
  refine ⟨loadSettings_run o t, settingsIn_fails_iff t o, fun s loaded => ?_, fun u path es fs given here there same => ?_⟩
  · cases given : o.config with
    | none =>
        rw [settingsIn_of_no_config given] at loaded
        cases loaded
        refine ⟨fun _ => none, fun _ _ => rfl, nofun, ?_⟩
        simp [Layer.apply, Options.layer]
    | some path =>
        obtain ⟨es, holds, file, layer, rfl⟩ := settingsIn_eq_ok given loaded
        obtain ⟨-, rfl⟩ := Layer.ofEntries?_eq_some_iff.mp layer
        refine ⟨Layer.said es, nofun, ?_, ?_⟩
        · rintro _ ⟨rfl⟩
          exact ⟨es, holds, fun key text => Layer.said_eq_some_iff⟩
        · simp [Layer.apply, Options.layer, Option.getD_or]
  · have looked : ∀ key ∈ Layer.settingKeys, fs.lookup key = es.lookup key := by
      intro key member
      refine (Toml.Entries.lookup_eq_of_perm_filter here.distinct there.distinct same ?_).symm
      exact fun item => List.elem_eq_true_of_mem member
    rw [settingsIn_of_holds given here, settingsIn_of_holds given there, Layer.ofEntries?_congr looked]

def terseConfig : String := "namespace_language = 'py'\noutput_filename = 'api.yaml'\n"

/-- The same settings the other way round, among what names none. -/
def wordyConfig : String :=
  "output_filename = 'api.yaml'\ncolour = 7\nnamespace_language = 'py'\n[owner]\nname = 'me'\n"

def brokenConfig : String := "output_filename = ["

/-- A tree with one file. -/
def treeOf (text : String) : Tree := { nodes := [(["a.toml"], .file text.toUTF8)] }

/-- The empty text is a name too. -/
def namedEmpty : Options := { config := some "a.toml", outputFilename := some "" }

theorem holds_terseConfig : Holds (treeOf terseConfig) "a.toml"
    [("namespace_language", .text "py"), ("output_filename", .text "api.yaml")] :=
  ⟨_, terseConfig, rfl, by decide +kernel, rfl⟩

theorem holds_wordyConfig : Holds (treeOf wordyConfig) "a.toml"
    [("output_filename", .text "api.yaml"), ("colour", .other), ("namespace_language", .text "py"),
      ("owner", .table .stated [("name", .text "me")])] :=
  ⟨_, wordyConfig, rfl, by decide +kernel, rfl⟩

theorem terse_wordy_layers :
    (∃ s, settingsIn (treeOf terseConfig) namedEmpty = .ok s ∧ s.outputFilename = "" ∧
      s.namespaceLanguage = "py" ∧ s.openapiVersion = "3.0.3") ∧
    settingsIn (treeOf wordyConfig) namedEmpty = settingsIn (treeOf terseConfig) namedEmpty ∧
    ∃ f, settingsIn (treeOf brokenConfig) namedEmpty = .error f := by
  obtain ⟨-, -, layers, alike⟩ := settings_of_layers (treeOf terseConfig) namedEmpty
  have loaded := settingsIn_of_holds (o := namedEmpty) rfl holds_terseConfig
  refine ⟨⟨_, loaded, ?_⟩, ?_, ?_⟩
  · obtain ⟨file, -, given, output, language, -, openapi, -⟩ := layers _ loaded
    obtain ⟨es, holds, table⟩ := given _ rfl
    cases holds.unique holds_terseConfig
    have py : file "namespace_language" = some "py" := (table _ _).mpr rfl
    have silent : file "openapi_version" = none :=
      Option.eq_none_iff_forall_ne_some.mpr fun text found => nomatch (table _ text).mp found
    rw [py] at language
    rw [silent] at openapi
    exact ⟨output, language, openapi⟩
  · exact alike _ _ _ _ rfl holds_terseConfig holds_wordyConfig (.swap _ _ _)
  · refine (settings_of_layers (treeOf brokenConfig) namedEmpty).2.1.mpr ⟨_, rfl, ?_⟩
    rintro ⟨es, ⟨content, text, read, decoded, table⟩, -⟩
    obtain rfl : brokenConfig.toUTF8 = content := Except.ok.inj read
    have known : String.fromUTF8? brokenConfig.toUTF8 = some brokenConfig := by decide +kernel
    cases known.symm.trans decoded
    cases table

end ServiceDoc.CommandLine
