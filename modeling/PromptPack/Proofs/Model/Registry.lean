import Mathlib.Algebra.Group.Int.Defs
import PromptPack.Model.Registry
import PromptPack.Proofs.Document.Plain
import PromptPack.Proofs.Fault

/-! Profiles from documents, and registries that they are layered over. Of a typed document with an
id and a window only the tokenizer can be refused; and whatever profile a registry then gives has a
window and a ceiling in range. Main statements: `layer_isOk_iff`, `Sound.layer`. -/

namespace PromptPack

namespace Profile

variable {entries : List (Value × Value)} {profile : Profile} {document : Value}

/-- The fields of a profile's document, where present, are texts and integers in range. -/
structure Typed (entries : List (Value × Value)) : Prop where
  id : ∀ value, Value.field? entries "id" = some value → ∃ s, value = .text s
  tokenizer : ∀ value, Value.field? entries "tokenizer" = some value → ∃ s, value = .text s
  contextWindow : ∀ value, Value.field? entries "context_window_tokens" = some value →
    ∃ n : Int, value = .int n ∧ n < 2 ^ 53
  maxAttachments : ∀ value, Value.field? entries "max_attachments" = some value →
    ∃ n : Int, value = .int n ∧ n < 2 ^ 53
  tokensPerFile : ∀ value, Value.field? entries "tokens_per_file" = some value →
    value = .null ∨ ∃ n : Int, value = .int n ∧ n < 2 ^ 53

/-- A tokenizer, where the document names one, that is known. -/
def KnownTokenizer (entries : List (Value × Value)) : Prop :=
  ∀ name, Value.field? entries "tokenizer" = some (.text name) → name ∈ tokenizers

structure Identified (entries : List (Value × Value)) : Prop where
  id : ∃ s, Value.field? entries "id" = some (.text s) ∧ s ≠ ""
  contextWindow : ∃ n : Int, Value.field? entries "context_window_tokens" = some (.int n) ∧ 0 < n

structure Sound (profile : Profile) : Prop where
  id : profile.id.isKey = true
  contextWindow : ∃ n : Int, profile.contextWindow = .int n ∧ 0 < n ∧ n < 2 ^ 53
  tokensPerFile : profile.tokensPerFile = .null ∨
    ∃ n : Int, profile.tokensPerFile = .int n ∧ n < 2 ^ 53

theorem refuseTokenizer_ne_ok (tokenizer id : Value) (name : String) :
    refuseTokenizer tokenizer id ≠ .ok name := by
  intro accepted
  obtain ⟨_, _, accepted⟩ := bind_eq_ok.mp accepted
  obtain ⟨_, _, accepted⟩ := bind_eq_ok.mp accepted
  cases accepted

theorem tokenizerOf_isOk_iff (typed : Typed entries) :
    (∃ tokenizer, tokenizerOf entries = .ok tokenizer) ↔ KnownTokenizer entries := by
  unfold tokenizerOf KnownTokenizer
  cases found : Value.field? entries "tokenizer" with
  | none => simp [tokenizers]
  | some value =>
    obtain ⟨name, rfl⟩ := typed.tokenizer value found
    by_cases known : name ∈ tokenizers
    · simp [known]
    · simp [known, refuseTokenizer_ne_ok]

theorem sound_of_tokenizerOf (typed : Typed entries) (identified : Identified entries)
    {tokenizer : String} (accepted : tokenizerOf entries = .ok tokenizer) :
    ∃ profile, ofValue (.map entries) = .ok profile ∧ profile.Sound := by
  obtain ⟨s, id, _⟩ := identified.id
  obtain ⟨n, window, positive⟩ := identified.contextWindow
  obtain ⟨_, sameWindow, small⟩ := typed.contextWindow _ window
  cases sameWindow
  have attachments : ∃ m,
      ((Value.field? entries "max_attachments").getD (.int 20)).toInteger = .ok m := by
    cases found : Value.field? entries "max_attachments" with
    | none => exact ⟨20, rfl⟩
    | some value =>
      obtain ⟨m, rfl, _⟩ := typed.maxAttachments value found
      exact ⟨m, rfl⟩
  obtain ⟨m, given⟩ := attachments
  have idGiven : required entries "id" = .ok (.text s) := by rw [required, id]
  have windowGiven : required entries "context_window_tokens" = .ok (.int n) := by
    rw [required, window]
  refine ⟨⟨.text s, (Value.field? entries "name").getD (.text s), .int n, m, tokenizer,
    (Value.field? entries "tokens_per_file").getD .null⟩, ?_, ?_⟩
  · rw [ofValue, accepted, idGiven, windowGiven]
    refine bind_eq_ok.mpr ⟨tokenizer, rfl, bind_eq_ok.mpr ⟨.text s, rfl, ?_⟩⟩
    exact bind_eq_ok.mpr ⟨.int n, rfl, bind_eq_ok.mpr ⟨n, rfl, bind_eq_ok.mpr ⟨m, given, rfl⟩⟩⟩
  · refine ⟨rfl, ⟨n, rfl, positive, small⟩, ?_⟩
    dsimp only
    cases found : Value.field? entries "tokens_per_file" with
    | none => exact .inl rfl
    | some value => exact typed.tokensPerFile value found

theorem ofValue_isOk_iff (typed : Typed entries) (identified : Identified entries) :
    (∃ profile, ofValue (.map entries) = .ok profile) ↔ KnownTokenizer entries := by
  rw [← tokenizerOf_isOk_iff typed]
  constructor
  · rintro ⟨profile, read⟩
    obtain ⟨tokenizer, accepted, _⟩ := bind_eq_ok.mp read
    exact ⟨tokenizer, accepted⟩
  · rintro ⟨tokenizer, accepted⟩
    obtain ⟨profile, read, _⟩ := sound_of_tokenizerOf typed identified accepted
    exact ⟨profile, read⟩

theorem sound_of_ofValue (typed : Typed entries) (identified : Identified entries)
    (read : ofValue (.map entries) = .ok profile) : profile.Sound := by
  obtain ⟨tokenizer, accepted, _⟩ := bind_eq_ok.mp read
  obtain ⟨same, again, sound⟩ := sound_of_tokenizerOf typed identified accepted
  obtain rfl := Except.ok.inj (read.symm.trans again)
  exact sound

end Profile

namespace Registry

variable {registry layered : Registry} {profile : Profile} {documents : List Value} {id : Value}

structure Sound (registry : Registry) : Prop where
  nonempty : registry.profiles ≠ []
  all : ∀ profile ∈ registry.profiles, profile.Sound

theorem sound_defaults : defaults.Sound := by
  refine ⟨by decide, ?_⟩
  simp only [defaults, List.forall_mem_cons, List.not_mem_nil, false_imp_iff, implies_true, and_true]
  refine ⟨?_, ?_, ?_, ?_, ?_, ?_, ?_⟩
  all_goals exact ⟨rfl, ⟨_, rfl, by decide, by decide⟩, .inl rfl⟩

theorem mem_replace {profiles : List Profile} {p : Profile}
    (member : p ∈ replace profile profiles) : p = profile ∨ p ∈ profiles := by
  induction profiles with
  | nil => exact .inl (List.mem_singleton.mp member)
  | cons first rest ih =>
    unfold replace at member
    split at member
    · rcases List.mem_cons.mp member with new | old
      · exact .inl new
      · exact .inr (List.mem_cons_of_mem first old)
    · rcases List.mem_cons.mp member with same | later
      · exact .inr (same ▸ List.mem_cons_self)
      · exact (ih later).imp_right (List.mem_cons_of_mem first)

theorem replace_ne_nil (profile : Profile) (profiles : List Profile) :
    replace profile profiles ≠ [] := by
  unfold replace
  split
  · exact nofun
  · split <;> exact nofun

theorem Sound.register (sound : registry.Sound) (added : profile.Sound) :
    ∃ next, registry.register profile = .ok next ∧ next.Sound := by
  refine ⟨⟨replace profile registry.profiles⟩, if_pos added.id, replace_ne_nil _ _, ?_⟩
  intro p member
  rcases mem_replace member with rfl | old
  · exact added
  · exact sound.all p old

def Documents (documents : List Value) : Prop :=
  ∀ document ∈ documents, ∃ entries, document = .map entries ∧ Profile.Typed entries ∧
    Profile.Identified entries

def KnownTokenizers (documents : List Value) : Prop :=
  ∀ document ∈ documents, ∀ entries, document = .map entries → Profile.KnownTokenizer entries

theorem Sound.layer (sound : registry.Sound) (given : Documents documents)
    (known : KnownTokenizers documents) :
    ∃ layered, registry.layer documents = .ok layered ∧ layered.Sound := by
  induction documents generalizing registry with
  | nil => exact ⟨registry, rfl, sound⟩
  | cons document documents ih =>
    obtain ⟨here, there⟩ := List.forall_mem_cons.mp given
    obtain ⟨named, others⟩ := List.forall_mem_cons.mp known
    obtain ⟨entries, rfl, typed, identified⟩ := here
    obtain ⟨profile, read⟩ := (Profile.ofValue_isOk_iff typed identified).mpr (named entries rfl)
    obtain ⟨next, registered, kept⟩ :=
      sound.register (Profile.sound_of_ofValue typed identified read)
    obtain ⟨layered, rest, final⟩ := ih kept there others
    refine ⟨layered, ?_, final⟩
    rw [Registry.layer, List.foldlM_cons, read]
    exact bind_eq_ok.mpr ⟨next, registered, rest⟩

theorem layer_isOk_iff (sound : registry.Sound) (given : Documents documents) :
    (∃ layered, registry.layer documents = .ok layered) ↔ KnownTokenizers documents := by
  constructor
  · rintro ⟨layered, accepted⟩
    induction documents generalizing registry with
    | nil => exact nofun
    | cons document documents ih =>
      obtain ⟨here, there⟩ := List.forall_mem_cons.mp given
      obtain ⟨entries, rfl, typed, identified⟩ := here
      rw [Registry.layer, List.foldlM_cons] at accepted
      obtain ⟨next, added, rest⟩ := bind_eq_ok.mp accepted
      obtain ⟨profile, read, registered⟩ := bind_eq_ok.mp added
      have good := Profile.sound_of_ofValue typed identified read
      obtain ⟨same, again, kept⟩ := sound.register good
      obtain rfl := Except.ok.inj (again.symm.trans registered)
      refine List.forall_mem_cons.mpr ⟨?_, ih kept there rest⟩
      rintro _ ⟨⟩
      exact (Profile.ofValue_isOk_iff typed identified).mp ⟨profile, read⟩
  · intro known
    obtain ⟨layered, accepted, _⟩ := sound.layer given known
    exact ⟨layered, accepted⟩

theorem Sound.get (sound : registry.Sound) (key : id.isKey = true) :
    ∃ profile, registry.get id = .ok profile ∧ profile.Sound := by
  unfold Registry.get
  split
  · next empty => exact absurd empty sound.nonempty
  · next first rest listed =>
    rw [if_pos key]
    refine ⟨_, rfl, ?_⟩
    cases found : registry.find? id with
    | none => exact sound.all first (listed ▸ List.mem_cons_self)
    | some profile => exact sound.all profile (List.mem_of_find?_eq_some found)

end Registry

end PromptPack
