import PromptPack.Proofs.Model.Registry
import PromptPack.Proofs.Packing.Outcome

/-! What a packing needs beyond a configuration without issues. Main statement:
`packs_validated_iff`. -/

namespace PromptPack

namespace PackConfig

variable {config : PackConfig} {entries : List (Value × Value)} {seen profiles : List Value} {id : Value}

theorem number_eq_ok {value : Value} {n : Number} :
    number value = .ok n ↔ value.toNumber? = some n := by
  unfold number
  cases value.toNumber? with
  | none => simp
  | some m => simp

theorem eq_false_of_issueOf {found : Bool} {value : Value} {text : String → String}
    (none : issueOf found value text = .ok []) : found = false := by
  cases found with
  | false => rfl
  | true =>
    obtain ⟨_, _, none⟩ := bind_eq_ok.mp none
    cases none

theorem window_of_profileIssues (none : profileIssues seen id entries = .ok []) :
    ∃ window, ((Value.field? entries "context_window_tokens").getD (.int 0)).toNumber? = some window ∧
      window.le (.int 0) = false := by
  unfold profileIssues at none
  cases key : id.isKey with
  | false =>
    rw [key] at none
    cases none
  | true =>
    rw [key] at none
    obtain ⟨_, _, none⟩ := bind_eq_ok.mp none
    obtain ⟨window, found, none⟩ := bind_eq_ok.mp none
    obtain ⟨issues, low, none⟩ := bind_eq_ok.mp none
    obtain ⟨_, rfl⟩ := List.append_eq_nil_iff.mp (Except.ok.inj none)
    exact ⟨window, number_eq_ok.mp found, eq_false_of_issueOf low⟩

theorem identified_of_profileIssues (typed : Profile.Typed entries)
    (named : ((Value.field? entries "id").getD .null).truthy = true)
    (none : profileIssues seen id entries = .ok []) : Profile.Identified entries where
  id := by
    cases found : Value.field? entries "id" with
    | none =>
      rw [found] at named
      cases named
    | some value =>
      obtain ⟨s, rfl⟩ := typed.id value found
      rw [found] at named
      exact ⟨s, rfl, by simpa [Value.truthy] using named⟩
  contextWindow := by
    obtain ⟨window, number, positive⟩ := window_of_profileIssues none
    cases found : Value.field? entries "context_window_tokens" with
    | none =>
      rw [found] at number
      cases number
      simp at positive
    | some value =>
      obtain ⟨n, rfl, _⟩ := typed.contextWindow value found
      rw [found] at number
      cases number
      exact ⟨n, rfl, by simpa using positive⟩

theorem documents_of_allProfileIssues
    (typed : ∀ document ∈ profiles, ∃ entries, document = .map entries ∧ Profile.Typed entries)
    (none : allProfileIssues seen profiles = .ok []) : Registry.Documents profiles := by
  induction profiles generalizing seen with
  | nil => exact nofun
  | cons document profiles ih =>
    obtain ⟨here, there⟩ := List.forall_mem_cons.mp typed
    obtain ⟨entries, rfl, fields⟩ := here
    unfold allProfileIssues at none
    dsimp only at none
    split at none
    · next named =>
      obtain ⟨own, here, none⟩ := bind_eq_ok.mp none
      obtain ⟨others, rest, none⟩ := bind_eq_ok.mp none
      obtain ⟨rfl, rfl⟩ := List.append_eq_nil_iff.mp (Except.ok.inj none)
      have identified := identified_of_profileIssues fields named here
      exact List.forall_mem_cons.mpr ⟨⟨entries, rfl, fields, identified⟩, ih there rest⟩
    · obtain ⟨others, _, none⟩ := bind_eq_ok.mp none
      cases none

theorem documents_of_validate
    (typed : ∀ document ∈ config.profiles, ∃ entries, document = .map entries ∧ Profile.Typed entries)
    (valid : config.validate = .ok []) : Registry.Documents config.profiles := by
  obtain ⟨_, _, valid⟩ := bind_eq_ok.mp valid
  obtain ⟨_, _, valid⟩ := bind_eq_ok.mp valid
  obtain ⟨_, _, valid⟩ := bind_eq_ok.mp valid
  obtain ⟨issues, profiles, valid⟩ := bind_eq_ok.mp valid
  have none : issues = [] := by
    have none := Except.ok.inj valid
    simp only [List.append_eq_nil_iff] at none
    exact none.2
  exact documents_of_allProfileIssues typed (none ▸ profiles)

end PackConfig

namespace Packing

variable {σ : Type} {oracle : Option Oracle} {bundler : BundlerWith σ} {selected : List SourceFile}
  {contents : Table String (Option String)} {config : PackConfig} {tokenMap : Table String Int}
  {profile : Profile} {packs : Int}

theorem wantedCeiling_of_number {value : Value} {n : Number} (number : value.toNumber? = some n) :
    wantedCeiling value = .ok (some n) := by
  cases value <;> cases number <;> rfl

/-- A configured number wins over the budget of the profile, whatever number it is. -/
theorem ceilingFor_of_number {wanted : Number}
    (number : config.maxTokensPerFile.toNumber? = some wanted) :
    ceilingFor config profile = Budget.resolveCeiling (some wanted) profile.contextWindow := by
  have own : config.maxTokensPerFile ≠ .null := by
    intro none
    rw [none] at number
    cases number
  rw [ceilingFor]
  split
  · next none => exact absurd none own
  · rw [wantedCeiling_of_number number]
    rfl

theorem limits_of_lt {n : Int} (small : n < 2 ^ 53) : (Number.int n).Limits := by
  rcases Int.lt_or_le 0 n with high | low
  · have size : n.natAbs < 2 ^ 53 := by omega
    obtain ⟨x, found⟩ := Binary64.exists_ofInt?_of_bits size (by decide)
    exact .inr (Option.isSome_iff_exists.mpr ⟨x, found⟩)
  · exact .inl low

theorem ceilingFor_isOk_iff (sound : profile.Sound)
    (maximum : config.maxTokensPerFile = .null ∨
      ∃ wanted, config.maxTokensPerFile.toNumber? = some wanted ∧ wanted.Encoded) :
    (∃ ceiling, ceilingFor config profile = .ok ceiling) ↔
      ∀ wanted, config.maxTokensPerFile.toNumber? = some wanted → wanted.Limits := by
  obtain ⟨window, given, positive, small⟩ := sound.contextWindow
  have derived : ∃ ceiling, Budget.deriveCeiling profile.contextWindow = .ok ceiling := by
    rw [given]
    have size : window.natAbs < 2 ^ 53 := by omega
    exact Budget.exists_deriveCeiling_int (Nat.lt_trans size (by decide +kernel))
  rcases maximum with none | ⟨wanted, number, encoded⟩
  · refine iff_of_true ?_ fun wanted number => by rw [none] at number; cases number
    rw [ceilingFor, none]
    dsimp only
    rcases sound.tokensPerFile with none | ⟨n, some, small⟩
    · rw [none]
      exact derived
    · rw [some]
      have encoded : (Number.int n).Encoded := trivial
      exact (Budget.resolveCeiling_isOk_iff encoded derived).mpr (limits_of_lt small)
  · rw [ceilingFor_of_number number, Budget.resolveCeiling_isOk_iff encoded derived]
    constructor
    · rintro limits other again
      cases number.symm.trans again
      exact limits
    · exact fun limits => limits wanted number

theorem exists_targetProfile (model : ∃ name, config.modelProfile = .text name)
    (given : Registry.Documents config.profiles)
    (known : Registry.KnownTokenizers config.profiles) :
    ∃ profile, targetProfile .defaults config = .ok profile ∧ profile.Sound := by
  obtain ⟨name, model⟩ := model
  obtain ⟨layered, accepted, sound⟩ := Registry.sound_defaults.layer given known
  obtain ⟨profile, found, fits⟩ := sound.get (show config.modelProfile.isKey = true by rw [model]; rfl)
  exact ⟨profile, bind_eq_ok.mpr ⟨layered, accepted, found⟩, fits⟩

/-- A configuration without issues is packed if and only if its profiles name known tokenizers and
its own ceiling, when it has one, is a number that a double can hold. -/
theorem packs_validated_iff (oracle : Option Oracle) (bundler : BundlerWith σ)
    (selected : List SourceFile) (contents : Table String (Option String)) (config : PackConfig)
    (tokenMap : Table String Int) (s : σ)
    (model : ∃ name, config.modelProfile = .text name)
    (integer : config.numPacks.toNumber? = some (.int packs))
    (maximum : config.maxTokensPerFile = .null ∨
      ∃ wanted, config.maxTokensPerFile.toNumber? = some wanted ∧ wanted.Encoded)
    (typed : ∀ document ∈ config.profiles, ∃ entries, document = .map entries ∧
      Profile.Typed entries)
    (valid : config.validate = .ok [])
    (counts : ∀ file ∈ selected, ∀ count ∈ (tokenMap.get? file.path).or file.explicitTokenCount,
      count < (10 ^ 300 : Nat))
    (lengths : ∀ file ∈ selected, (textAt contents file).length < 10 ^ 300)
    (totals : ∀ request s response, (bundler request s).1 = .ok response →
      response.totalTokens.natAbs < 10 ^ 300) :
    ((∃ layered, Registry.defaults.layer config.profiles = .ok layered) ↔
      Registry.KnownTokenizers config.profiles) ∧
    ((∃ run, (packWith oracle bundler .defaults selected contents config tokenMap s).value.1 =
        .ok run) ↔
      Registry.KnownTokenizers config.profiles ∧
        ∀ wanted, config.maxTokensPerFile.toNumber? = some wanted → wanted.Limits) := by
  have given := PackConfig.documents_of_validate typed valid
  have layering := Registry.layer_isOk_iff Registry.sound_defaults given
  refine ⟨layering, ?_, ?_⟩
  · rintro ⟨run, packed⟩
    obtain ⟨profile, ceiling, resolved, limited⟩ := resolved_of_packWith packed
    obtain ⟨layered, accepted, _⟩ := bind_eq_ok.mp resolved
    have known := layering.mp ⟨layered, accepted⟩
    obtain ⟨same, again, sound⟩ := exists_targetProfile model given known
    obtain rfl := Except.ok.inj (again.symm.trans resolved)
    exact ⟨known, (ceilingFor_isOk_iff sound maximum).mp ⟨ceiling, limited⟩⟩
  · rintro ⟨known, limits⟩
    obtain ⟨profile, resolved, sound⟩ := exists_targetProfile model given known
    obtain ⟨ceiling, limited⟩ := (ceilingFor_isOk_iff sound maximum).mpr limits
    obtain ⟨balance, arranged⟩ := exists_balance_prepareFiles oracle config ceiling counts lengths
    have double := exists_ofInt?_of_ceilingFor limited
    obtain ⟨outcome, concluded, _⟩ := conclude_reports balance
      ⟨balance.files, config.numPacks, config.outputFormat, profile.id⟩ double integer (totals _ s)
    rw [packWith_of_balance resolved limited arranged, concluded]
    exact ⟨_, rfl⟩

def localFields (tokenizer : String) : List (String × Value) :=
  [ ("id", .text "local"),
    ("tokenizer", .text tokenizer),
    ("context_window_tokens", .int 1000),
    ("tokens_per_file", .int 10) ]

def localConfig (tokenizer : String) : PackConfig where
  modelProfile := .text "local"
  maxTokensPerFile := .float (.ofBits 0x40934A0000000000)
  profiles := [.map (Value.named (localFields tokenizer))]

theorem packs_validated_local :
    (localConfig "gemini").validate = .ok [] ∧
      ∃ run, (packWith none (recording (.ok ⟨[], 40000⟩)) .defaults [largeFile] []
        (localConfig "gemini") [] []).value.1 = .ok run := by
  have valid : (localConfig "gemini").validate = .ok [] := by decide +kernel
  have typed : ∀ document ∈ (localConfig "gemini").profiles, ∃ entries, document = .map entries ∧
      Profile.Typed entries := by
    intro document member
    obtain rfl := List.mem_singleton.mp member
    refine ⟨_, rfl, ?_, ?_, ?_, ?_, ?_⟩
    all_goals
      intro value found
      simp [Value.field?_named, localFields] at found
    · exact ⟨_, found.symm⟩
    · exact ⟨_, found.symm⟩
    · exact ⟨1000, found.symm, by decide⟩
    · exact .inr ⟨10, found.symm, by decide⟩
  have known : Registry.KnownTokenizers (localConfig "gemini").profiles := by
    intro document member
    obtain rfl := List.mem_singleton.mp member
    rintro _ ⟨⟩ name found
    simp [Value.field?_named, localFields] at found
    subst found
    decide
  have packed := packs_validated_iff none (recording (.ok ⟨[], 40000⟩)) [largeFile] []
    (localConfig "gemini") [] [] ⟨"local", rfl⟩ rfl (.inr ⟨_, rfl, _, rfl⟩) typed valid
    largeFile_counts largeFile_lengths (by rintro _ _ _ ⟨⟩; decide +kernel)
  refine ⟨valid, packed.2.mpr ⟨known, ?_⟩⟩
  rintro _ ⟨⟩
  exact ⟨by decide +kernel, by decide +kernel⟩

theorem packWith_of_refused {registry : Registry} {s : σ} {fault : Fault}
    (refused : targetProfile registry config = .error fault) :
    (packWith oracle bundler registry selected contents config tokenMap s).value =
      (.error fault, s) := by
  rw [packWith, refused]
  rfl

theorem packWith_of_unlimited {registry : Registry} {s : σ} {fault : Fault}
    (resolved : targetProfile registry config = .ok profile)
    (unlimited : ceilingFor config profile = .error fault) :
    (packWith oracle bundler registry selected contents config tokenMap s).value =
      (.error fault, s) := by
  unfold packWith
  rw [resolved]
  dsimp only [Traced.value_bind]
  rw [balanced, unlimited]
  rfl

/-- Without issues, yet not packed: a tokenizer that is not known, and ceilings that are no number. -/
theorem validated_not_packed :
    ((localConfig "bpe").validate = .ok [] ∧
      (packWith none (recording (.ok ⟨[], 0⟩)) .defaults [] [] (localConfig "bpe") [] []).value =
        (.error (.unknownTokenizer "bpe" "local"), [])) ∧
    (({ maxTokensPerFile := .float (.infinite false) } : PackConfig).validate = .ok [] ∧
      (packWith none (recording (.ok ⟨[], 0⟩)) .defaults [] []
        { maxTokensPerFile := .float (.infinite false) } [] []).value = (.error .outOfRange, [])) ∧
    ({ maxTokensPerFile := .float .nan } : PackConfig).validate = .ok [] ∧
      (packWith none (recording (.ok ⟨[], 0⟩)) .defaults [] []
        { maxTokensPerFile := .float .nan } [] []).value = (.error .badValue, []) := by
  have refused : targetProfile .defaults (localConfig "bpe") =
      .error (.unknownTokenizer "bpe" "local") := by
    have tokenizer : Profile.tokenizerOf (Value.named (localFields "bpe")) =
        .error (.unknownTokenizer "bpe" "local") := by
      decide +kernel
    rw [targetProfile, Registry.layer, localConfig, List.foldlM_cons, Profile.ofValue, tokenizer]
    rfl
  have infinite : ceilingFor { maxTokensPerFile := .float (.infinite false) } opus =
      .error .outOfRange := by
    decide +kernel
  have nan : ceilingFor { maxTokensPerFile := .float .nan } opus = .error .badValue := by
    decide +kernel
  refine ⟨⟨by decide +kernel, packWith_of_refused refused⟩, ⟨by decide +kernel, ?_⟩,
    by decide +kernel, ?_⟩
  · exact packWith_of_unlimited (targetProfile_opus rfl rfl) infinite
  · exact packWith_of_unlimited (targetProfile_opus rfl rfl) nan

end Packing

end PromptPack
