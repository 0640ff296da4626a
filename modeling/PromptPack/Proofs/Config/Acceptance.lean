import PromptPack.Proofs.Config.RoundTrip
import PromptPack.Proofs.Document.Fields
import PromptPack.Proofs.Document.Json.Values

/-! Which documents make a configuration. Whatever a document holds, its settings and its profiles
are all that can be refused, and a refusal concerns a value, so it is reported for the source.
Main statement: `ofDocument_json`. -/

namespace PromptPack

namespace Settings

variable {value : Value} {settings : Settings} {fault : Fault} {given : List String}

theorem map_text_of_mapM {values : List Value} (texts : values.mapM text? = some given) :
    values = given.map .text := by
  induction values generalizing given with
  | nil =>
    cases texts
    rfl
  | cons value values ih =>
    rw [List.mapM_cons] at texts
    obtain ⟨s, read, texts⟩ := Option.bind_eq_some_iff.mp texts
    obtain ⟨others, rest, texts⟩ := Option.bind_eq_some_iff.mp texts
    cases texts
    cases value <;> cases read
    rw [ih rest, List.map_cons]

theorem mem_unknownNames {name : String} :
    name ∈ unknownNames given ↔ name ∈ given ∧ name ∉ names := by
  simp [unknownNames]

theorem ofValue_eq_ok_iff : ofValue value = .ok settings ↔
    ∃ fields, value = .map (Value.named fields) ∧ (∀ name ∈ fields.map Prod.fst, name ∈ names) ∧
      settings = named (Value.named fields) := by
  constructor
  · intro accepted
    unfold ofValue at accepted
    split at accepted
    · cases accepted
    · next given found =>
      split at accepted
      · cases accepted
      · next known =>
        split at accepted
        · next entries =>
          have texts : entries.map Prod.fst = given.map .text := map_text_of_mapM found
          obtain ⟨fields, rfl⟩ := Value.exists_named (List.Perm.of_eq texts).subset
          rw [Value.map_fst_named] at texts
          obtain rfl := List.map_injective_iff.mpr Value.text_injective texts
          cases accepted
          refine ⟨fields, rfl, ?_, rfl⟩
          intro name listed
          by_contra unknown
          apply known
          exact List.ne_nil_of_mem (mem_unknownNames.mpr ⟨listed, unknown⟩)
        · cases accepted
  · rintro ⟨fields, rfl, known, rfl⟩
    exact ofValue_named known

theorem concernsValue_of_ofValue (refused : ofValue value = .error fault) :
    fault.concernsValue = true := by
  unfold ofValue at refused
  split at refused
  · cases refused
    rfl
  · split at refused
    · cases refused
      rfl
    · split at refused
      · cases refused
      · cases refused
        rfl

end Settings

namespace PackConfig

open Value (named field?)

variable {entries : List (Value × Value)} {config : PackConfig} {fault : Fault}

/-- No settings, something that counts as false, or a mapping of known settings. -/
def FitsSettings (entries : List (Value × Value)) : Prop :=
  ∀ value ∈ field? entries "optimization", value.truthy = false ∨
    ∃ fields, value = .map (named fields) ∧ ∀ name ∈ fields.map Prod.fst, name ∈ Settings.names

/-- No profiles, something that counts as false, or something with items. -/
def FitsProfiles (entries : List (Value × Value)) : Prop :=
  ∀ value ∈ field? entries "profiles", value.truthy = false ∨ ∃ items, value.items? = some items

theorem optimizationOf_isOk_iff :
    (∃ settings, optimizationOf entries = .ok settings) ↔ FitsSettings entries := by
  unfold optimizationOf FitsSettings
  cases field? entries "optimization" with
  | none => simp
  | some value =>
    cases counts : value.truthy with
    | false => simp [counts]
    | true =>
      simp only [counts, if_true, Settings.ofValue_eq_ok_iff, Option.mem_some_iff, forall_eq',
        Bool.true_eq_false, false_or]
      constructor
      · rintro ⟨settings, fields, same, known, -⟩
        exact ⟨fields, same, known⟩
      · rintro ⟨fields, same, known⟩
        exact ⟨_, fields, same, known, rfl⟩

theorem profilesOf_isOk_iff :
    (∃ profiles, profilesOf entries = .ok profiles) ↔ FitsProfiles entries := by
  unfold profilesOf FitsProfiles
  cases field? entries "profiles" with
  | none => simp
  | some value =>
    cases counts : value.truthy <;> cases found : value.items? <;> simp [counts, found]

theorem ofValue_isOk_iff :
    (∃ config, ofValue (.map entries) = .ok config) ↔ FitsSettings entries ∧ FitsProfiles entries := by
  rw [← optimizationOf_isOk_iff, ← profilesOf_isOk_iff]
  constructor
  · rintro ⟨config, accepted⟩
    obtain ⟨settings, optimization, accepted⟩ := bind_eq_ok.mp accepted
    obtain ⟨profiles, listed, -⟩ := bind_eq_ok.mp accepted
    exact ⟨⟨settings, optimization⟩, profiles, listed⟩
  · rintro ⟨⟨settings, optimization⟩, profiles, listed⟩
    rw [ofValue, optimization, listed]
    exact ⟨_, rfl⟩

theorem concernsValue_of_optimizationOf (refused : optimizationOf entries = .error fault) :
    fault.concernsValue = true := by
  unfold optimizationOf at refused
  split at refused
  · cases refused
  · split at refused
    · exact Settings.concernsValue_of_ofValue refused
    · cases refused

theorem concernsValue_of_profilesOf (refused : profilesOf entries = .error fault) :
    fault.concernsValue = true := by
  unfold profilesOf at refused
  split at refused
  · cases refused
  · split at refused
    · split at refused
      · cases refused
      · cases refused
        rfl
    · cases refused

theorem concernsValue_of_ofValue (refused : ofValue (.map entries) = .error fault) :
    fault.concernsValue = true := by
  rw [ofValue] at refused
  cases optimization : optimizationOf entries with
  | error other =>
    rw [optimization] at refused
    cases refused
    exact concernsValue_of_optimizationOf optimization
  | ok settings =>
    cases profiles : profilesOf entries with
    | error other =>
      rw [optimization, profiles] at refused
      cases refused
      exact concernsValue_of_profilesOf profiles
    | ok listed =>
      rw [optimization, profiles] at refused
      cases refused

theorem ofDocument_map_eq_ok_iff {source : String} :
    ofDocument source (.map entries) = .ok config ↔ ofValue (.map entries) = .ok config := by
  rw [ofDocument]
  cases ofValue (.map entries) <;> simp

theorem fault_of_ofDocument {source : String} {document : Value}
    (refused : ofDocument source document = .error fault) :
    ∃ reason, fault = .invalidConfig source reason := by
  unfold ofDocument at refused
  split at refused
  · cases refused
  · next entries =>
    split at refused
    · cases refused
    · next other found =>
      rw [if_pos (concernsValue_of_ofValue found)] at refused
      cases refused
      exact ⟨_, rfl⟩
  · cases refused
    exact ⟨_, rfl⟩

inductive Acceptable : Value → Prop where
  | null : Acceptable .null
  | map {entries : List (Value × Value)} (settings : FitsSettings entries)
      (profiles : ∀ value ∈ field? entries "profiles", value.truthy = false ∨
        (∃ items, value = .list items) ∨ (∃ s, value = .text s) ∨ ∃ fields, value = .map fields) :
      Acceptable (.map entries)

theorem items?_isSome_iff {value : Value} (json : value.IsJson) :
    (∃ items, value.items? = some items) ↔
      (∃ items, value = .list items) ∨ (∃ s, value = .text s) ∨ ∃ fields, value = .map fields := by
  cases json <;> simp [Value.items?]

theorem fitsProfiles_iff (json : (Value.map entries).IsJson) :
    FitsProfiles entries ↔ ∀ value ∈ field? entries "profiles", value.truthy = false ∨
      (∃ items, value = .list items) ∨ (∃ s, value = .text s) ∨ ∃ fields, value = .map fields := by
  apply forall₂_congr
  intro value found
  rw [items?_isSome_iff (json.field found)]

theorem ofDocument_isOk_iff {document : Value} (json : document.IsJson) (source : String) :
    (∃ config, ofDocument source document = .ok config) ↔ Acceptable document := by
  cases document with
  | null => exact iff_of_true ⟨{}, rfl⟩ .null
  | map entries =>
    simp only [ofDocument_map_eq_ok_iff]
    rw [ofValue_isOk_iff, fitsProfiles_iff json]
    constructor
    · exact fun fits => .map fits.1 fits.2
    · rintro ⟨⟩
      next settings profiles => exact ⟨settings, profiles⟩
  | _ =>
    apply iff_of_false
    · rintro ⟨config, accepted⟩
      cases accepted
    · rintro ⟨⟩

theorem load_json_isOk_iff {name : String} {file : Option StoredFile} :
    (∃ config, load .json name file = .ok config) ↔
      ∃ text document, StoredFile.read file = .ok text ∧ Json.read text = .ok document ∧
        Acceptable document := by
  unfold load
  cases StoredFile.read file with
  | error failure => simp
  | ok text =>
    constructor
    · rintro ⟨config, loaded⟩
      obtain ⟨document, read, accepted⟩ := bind_eq_ok.mp loaded
      exact ⟨text, document, rfl, read,
        (ofDocument_isOk_iff (Json.isJson_of_read read) name).mp ⟨config, accepted⟩⟩
    · rintro ⟨text, document, ⟨⟩, read, acceptable⟩
      obtain ⟨config, accepted⟩ :=
        (ofDocument_isOk_iff (Json.isJson_of_read read) name).mpr acceptable
      exact ⟨config, bind_eq_ok.mpr ⟨document, read, accepted⟩⟩

/-- A JSON document makes a configuration, the one of its mapping or the defaults, or it is refused
for its source, and nothing else can go wrong. -/
theorem ofDocument_json {document : Value} (json : document.IsJson) (source : String) :
    ((∃ config, ofDocument source document = .ok config) ↔ Acceptable document) ∧
      (∀ config, ofDocument source document = .ok config →
        document = .null ∧ config = {} ∨ ofValue document = .ok config) ∧
      ∀ fault, ofDocument source document = .error fault →
        ∃ reason, fault = .invalidConfig source reason := by
  refine ⟨ofDocument_isOk_iff json source, ?_, fun fault => fault_of_ofDocument⟩
  intro config accepted
  cases document with
  | null =>
    cases accepted
    exact .inl ⟨rfl, rfl⟩
  | map entries => exact .inr (ofDocument_map_eq_ok_iff.mp accepted)
  | _ => cases accepted

def oddDocument : List (String × Value) :=
  [ ("optimization", .map (named [("strip_comments", .int 2)])),
    ("num_packs", .float .nan),
    ("profiles", .text "ab") ]

theorem ofDocument_json_textProfiles : (Value.map (named oddDocument)).IsJson ∧
    Acceptable (.map (named oddDocument)) ∧
    ∃ config, ofDocument "pack.json" (.map (named oddDocument)) = .ok config ∧
      ofValue (.map (named oddDocument)) = .ok config ∧
      ∀ fault, ofDocument "pack.json" (.map (named oddDocument)) = .error fault →
        ∃ reason, fault = .invalidConfig "pack.json" reason := by
  have settings : (Value.map (named [("strip_comments", .int 2)])).IsJson := by
    apply Value.IsJson.map
    · decide
    · simp [Value.IsJson.int]
  have json : (Value.map (named oddDocument)).IsJson := by
    apply Value.IsJson.map
    · decide
    · simp [oddDocument, settings, Value.IsJson.float, Value.IsJson.text]
  have acceptable : Acceptable (.map (named oddDocument)) := by
    apply Acceptable.map
    · intro value found
      simp [oddDocument, Value.field?_named] at found
      refine .inr ⟨_, found.symm, ?_⟩
      decide
    · intro value found
      simp [oddDocument, Value.field?_named] at found
      exact .inr (.inr (.inl ⟨"ab", found.symm⟩))
  obtain ⟨accepted, same, refused⟩ := ofDocument_json json "pack.json"
  obtain ⟨config, made⟩ := accepted.mpr acceptable
  exact ⟨json, acceptable, config, made, (same config made).resolve_left nofun, refused⟩

end PackConfig

end PromptPack
