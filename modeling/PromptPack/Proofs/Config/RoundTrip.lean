import PromptPack.Config.ConfigFile
import PromptPack.Proofs.Document.Json.RoundTrip
import PromptPack.Proofs.Fault

/-! A configuration that was made from plain data is saved as JSON, and the file loads as the same
configuration. Main statement: `load_save_json`. -/

namespace PromptPack

namespace Settings

variable {settings : Settings}

theorem toValue_eq (settings : Settings) :
    settings.toValue = .map (Value.named settings.toEntries) := rfl

theorem named_toEntries (settings : Settings) :
    named (Value.named settings.toEntries) = settings := by
  simp [named, Value.field?_named, toEntries]

theorem unknownNames_eq_nil {given : List String} (known : ∀ name ∈ given, name ∈ names) :
    unknownNames given = [] := by
  have none : given.filter (fun name => !names.contains name) = [] := by simpa using known
  rw [unknownNames, none]
  simp

theorem ofValue_named {fields : List (String × Value)}
    (known : ∀ name ∈ fields.map Prod.fst, name ∈ names) :
    ofValue (.map (Value.named fields)) = .ok (named (Value.named fields)) := by
  have texts : ((Value.named fields).map (·.1)).mapM text? = some (fields.map Prod.fst) := by
    clear known
    induction fields with
    | nil => rfl
    | cons field fields ih =>
      simp only [Value.named, List.map_cons, List.mapM_cons] at ih ⊢
      rw [ih]
      rfl
  have given : (Value.map (Value.named fields)).items?.bind (·.mapM text?) =
      some (fields.map Prod.fst) := texts
  unfold ofValue
  rw [given]
  simp only [unknownNames_eq_nil known]
  rfl

theorem ofValue_toValue (settings : Settings) : ofValue settings.toValue = .ok settings := by
  have known : ∀ name ∈ settings.toEntries.map Prod.fst, name ∈ names := fun _ => id
  rw [toValue_eq, ofValue_named known, named_toEntries]

def Plain (settings : Settings) : Prop := ∀ entry ∈ settings.toEntries, entry.2.Plain

theorem plain_default : Plain {} := by
  intro entry listed
  simp only [toEntries, List.mem_cons, List.not_mem_nil, or_false] at listed
  rcases listed with rfl | rfl | rfl | rfl | rfl | rfl | rfl
  all_goals first | exact .bool false | exact .null

theorem plain_named {entries : List (Value × Value)} (plain : (Value.map entries).Plain) :
    (named entries).Plain := by
  intro entry listed
  simp only [toEntries, named, List.mem_cons, List.not_mem_nil, or_false] at listed
  rcases listed with rfl | rfl | rfl | rfl | rfl | rfl | rfl
  all_goals first | exact plain.getD_field (.bool false) | exact plain.getD_field .null

theorem plain_of_ofValue {value : Value} (plain : value.Plain) (accepted : ofValue value = .ok settings) :
    settings.Plain := by
  unfold ofValue at accepted
  split at accepted
  · cases accepted
  · split at accepted
    · cases accepted
    · split at accepted
      · cases accepted
        exact plain_named plain
      · cases accepted

theorem Plain.toValue (plain : settings.Plain) : settings.toValue.Plain := by
  rw [toValue_eq]
  have distinct : (settings.toEntries.map Prod.fst).Nodup := (by decide +kernel : names.Nodup)
  exact .map distinct plain

theorem Plain.same_self (plain : settings.Plain) : settings.same settings = true := by
  simp [Plain, toEntries] at plain
  simp [same, toEntries, fun value (plain : Value.Plain value) => plain.same_self, plain]

end Settings

namespace StoredFile

open Text

theorem normalizeBreaks_eq_self {cs : List Char} (none : '\r' ∉ cs) : normalizeBreaks cs = cs := by
  induction cs with
  | nil => exact scan_nil breakStep
  | cons c cs ih =>
    rw [List.mem_cons, not_or] at none
    rw [normalizeBreaks, scan_cons, breakStep, if_neg (Ne.symm none.1)]
    exact congrArg (c :: ·) (ih none.2)

theorem read_text {text : String} (none : '\r' ∉ text.toList) :
    read (some (.text text)) = .ok text := by
  rw [read, normalizeBreaks_eq_self none, String.ofList_toList]

end StoredFile

namespace PackConfig

open Value (named)

variable {config : PackConfig} {entries : List (Value × Value)}

def fields (config : PackConfig) : List (String × Value) :=
  [ ("model_profile", config.modelProfile),
    ("num_packs", config.numPacks),
    ("output_format", config.outputFormat),
    ("max_tokens_per_file", config.maxTokensPerFile),
    ("optimization", config.optimization.toValue),
    ("debounce_ms", config.debounceMs),
    ("profiles", .list config.profiles) ]

theorem toValue_eq {rows : List (List (Value × Value))} (maps : config.profiles = rows.map .map) :
    config.toValue = .ok (.map (named config.fields)) := by
  have same : config.profiles.mapM Value.toEntries = .ok rows := by
    rw [maps, List.mapM_map]
    exact (mapM_eq_ok fun _ _ => rfl).trans (congrArg Except.ok (List.map_id rows))
  rw [toValue, same, fields, maps]
  rfl

theorem ofValue_fields (config : PackConfig) :
    ofValue (.map (named config.fields)) = .ok config := by
  have optimization : optimizationOf (named config.fields) = .ok config.optimization := by
    have given : config.optimization.toValue.truthy = true := rfl
    simp [optimizationOf, Value.field?_named, fields, Settings.ofValue_toValue, given]
  have profiles : profilesOf (named config.fields) = .ok config.profiles := by
    cases listed : config.profiles <;>
      simp [profilesOf, Value.field?_named, fields, listed, Value.truthy, Value.items?]
  rw [ofValue, optimization, profiles]
  simp [Value.field?_named, fields]
  rfl

/-- The profiles of a document are absent, null or a list of mappings. -/
def ListsProfiles (entries : List (Value × Value)) : Prop :=
  ∀ value, Value.field? entries "profiles" = some value →
    value = .null ∨ ∃ rows : List (List (Value × Value)), value = .list (rows.map .map)

theorem profilesOf_eq_ok {profiles : List Value} (listed : ListsProfiles entries)
    (accepted : profilesOf entries = .ok profiles) : profiles = [] ∨
      ∃ rows : List (List (Value × Value)), profiles = rows.map .map ∧
        Value.field? entries "profiles" = some (.list profiles) := by
  unfold profilesOf at accepted
  split at accepted
  · cases accepted
    exact .inl rfl
  · next value found =>
    rcases listed value found with rfl | ⟨rows, rfl⟩
    · cases accepted
      exact .inl rfl
    · split at accepted
      · cases accepted
        exact .inr ⟨rows, rfl, found⟩
      · cases accepted
        exact .inl rfl

theorem toValue_of_ofValue (listed : ListsProfiles entries)
    (accepted : ofValue (.map entries) = .ok config) :
    config.toValue = .ok (.map (named config.fields)) := by
  obtain ⟨settings, _, accepted⟩ := bind_eq_ok.mp accepted
  obtain ⟨profiles, given, accepted⟩ := bind_eq_ok.mp accepted
  cases accepted
  rcases profilesOf_eq_ok listed given with rfl | ⟨rows, rfl, _⟩
  · exact toValue_eq (List.map_nil (f := Value.map)).symm
  · exact toValue_eq rfl

theorem plain_optimizationOf {settings : Settings} (plain : (Value.map entries).Plain)
    (accepted : optimizationOf entries = .ok settings) : settings.Plain := by
  unfold optimizationOf at accepted
  split at accepted
  · cases accepted
    exact Settings.plain_default
  · next value found =>
    split at accepted
    · exact Settings.plain_of_ofValue (plain.field found) accepted
    · cases accepted
      exact Settings.plain_default

structure IsPlain (config : PackConfig) : Prop where
  fields : ∀ field ∈ config.fields, field.2.Plain
  optimization : config.optimization.Plain

theorem isPlain_of_ofValue (plain : (Value.map entries).Plain) (listed : ListsProfiles entries)
    (accepted : ofValue (.map entries) = .ok config) : config.IsPlain := by
  obtain ⟨settings, optimization, accepted⟩ := bind_eq_ok.mp accepted
  obtain ⟨profiles, given, accepted⟩ := bind_eq_ok.mp accepted
  cases accepted
  have tidy := plain_optimizationOf plain optimization
  have list : (Value.list profiles).Plain := by
    rcases profilesOf_eq_ok listed given with rfl | ⟨_, _, found⟩
    · exact .list (List.forall_mem_nil _)
    · exact plain.field found
  refine ⟨?_, tidy⟩
  intro field member
  simp only [PackConfig.fields, List.mem_cons, List.not_mem_nil, or_false] at member
  rcases member with rfl | rfl | rfl | rfl | rfl | rfl | rfl
  · exact plain.getD_field (.text _)
  · exact plain.getD_field (.int_of_lt (by decide))
  · exact plain.getD_field (.text _)
  · exact plain.getD_field .null
  · exact tidy.toValue
  · exact plain.getD_field (.int_of_lt (by decide))
  · exact list

theorem IsPlain.document (plain : config.IsPlain) :
    (Value.map (named config.fields)).Plain := by
  have distinct : (config.fields.map Prod.fst).Nodup :=
    (by decide +kernel : ((PackConfig.fields {}).map Prod.fst).Nodup)
  exact .map distinct plain.fields

theorem IsPlain.same_self (plain : config.IsPlain) : config.same config = true := by
  obtain ⟨fields, settings⟩ := plain
  simp only [PackConfig.fields, List.forall_mem_cons] at fields
  obtain ⟨model, packs, format, ceiling, _, debounce, profiles, _⟩ := fields
  have profiles := profiles.same_self
  rw [Value.same] at profiles
  simp [same, model.same_self, packs.same_self, format.same_self, ceiling.same_self,
    settings.same_self, debounce.same_self, profiles]

theorem load_text (format : DocumentFormat) {text : String} {document : Value}
    (noReturn : '\r' ∉ text.toList) (read : format.read text = .ok document) (name : String) :
    load format name (some (.text text)) = ofDocument name document := by
  rw [load, StoredFile.read_text noReturn]
  dsimp only
  rw [read]
  rfl

/-- A configuration from plain data is saved, its file loads as it, and the two count as equal. -/
theorem load_save_json (plain : (Value.map entries).Plain) (listed : ListsProfiles entries)
    (accepted : ofValue (.map entries) = .ok config) (name : String) :
    ∃ text document, config.save .json = .ok text ∧
      load .json name (some (.text text)) = .ok config ∧ config.same config = true ∧
      config.toValue = .ok document ∧ document.same document = true := by
  have tidy := isPlain_of_ofValue plain listed accepted
  have document := toValue_of_ofValue listed accepted
  obtain ⟨text, written, noReturn, read⟩ := Json.read_write tidy.document
  refine ⟨text, _, ?_, ?_, tidy.same_self, document, tidy.document.same_self⟩
  · rw [save, document]
    exact written
  · rw [load_text .json noReturn read, ofDocument, ofValue_fields]

def escapedSettings : List (String × Value) :=
  [("entry_point", .text "a\\b"), ("strip_comments", .bool true)]

/-- A document with quotes, backslashes, line breaks and controls in its texts, a setting left out
and a field that no configuration has. -/
def escapedDocument : List (String × Value) :=
  [ ("model_profile", .text "say \"\\\r\n\t\x01 é 😀"),
    ("num_packs", .int (-12)),
    ("optimization", .map (named escapedSettings)),
    ("note", .null),
    ("profiles", .list [.map (named [("id", .text "l'été\r"), ("sizes", .list [])])]) ]

theorem load_save_json_escaped : ∃ config text document,
    ofValue (.map (named escapedDocument)) = .ok config ∧ config.save .json = .ok text ∧
      load .json "pack.json" (some (.text text)) = .ok config ∧ config.same config = true ∧
      config.toValue = .ok document ∧ document.same document = true := by
  have settings : (Value.map (named escapedSettings)).Plain := by
    apply Value.Plain.map
    · decide
    · simp [escapedSettings, Value.Plain.text, Value.Plain.bool]
  have profile : (Value.map (named [("id", .text "l'été\r"), ("sizes", .list [])])).Plain := by
    apply Value.Plain.map
    · decide
    · simp [Value.Plain.text, Value.Plain.list]
  have plain : (Value.map (named escapedDocument)).Plain := by
    apply Value.Plain.map
    · decide
    · simp [escapedDocument, Value.Plain.text, Value.Plain.null, Value.Plain.int_of_lt, settings,
        Value.Plain.list, profile]
  have listed : ListsProfiles (named escapedDocument) := by
    intro value found
    simp [escapedDocument, Value.field?_named] at found
    exact .inr ⟨[_], found.symm⟩
  have accepted : ∃ config, ofValue (.map (named escapedDocument)) = .ok config := by
    have optimization : optimizationOf (named escapedDocument) =
        .ok (Settings.named (named escapedSettings)) := by
      have known : ∀ name ∈ escapedSettings.map Prod.fst, name ∈ Settings.names := by decide
      simp only [optimizationOf, escapedDocument, Value.field?_named]
      exact Settings.ofValue_named known
    have profiles : profilesOf (named escapedDocument) =
        .ok [.map (named [("id", .text "l'été\r"), ("sizes", .list [])])] := by
      simp [profilesOf, escapedDocument, Value.field?_named, Value.truthy, Value.items?]
    rw [ofValue, optimization, profiles]
    exact ⟨_, rfl⟩
  obtain ⟨config, accepted⟩ := accepted
  obtain ⟨text, document, saved, loaded, rest⟩ := load_save_json plain listed accepted "pack.json"
  exact ⟨config, text, document, accepted, saved, loaded, rest⟩

end PackConfig

end PromptPack
